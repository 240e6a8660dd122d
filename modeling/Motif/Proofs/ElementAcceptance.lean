import Motif.Proofs.Reading
import Motif.Proofs.Unambiguity

/-!
# Which element tests are accepted

Readers of element tests accept what the grammar derives, up to a place where it may end. Each of
them has one lemma that says so, from left to right and from right to left at once, since both
directions are by the recursion of the reader.

* `Reaches`: a reader succeeds and leaves lexemes with certain symbols.
* `Scope.reaches_readTerm`, `Scope.reaches_readUnary`, `Scope.reaches_readDisjuncts`: the readers
  within brackets.
* **`Scope.reaches_readElement`**: the reader of element tests.
-/

namespace Motif

namespace Presence

theorem keyword_of_ofKeyword? {word : String} {test : Presence} (h : ofKeyword? word = some test) :
    test.keyword = word := by
  have := List.find?_some h
  simpa using this

@[simp] theorem ofKeyword?_keyword (test : Presence) : ofKeyword? test.keyword = some test := by
  cases test <;> decide

end Presence

/-! ## Lexemes and symbols -/

/-- The symbols of lexemes. -/
def symbolsOf (ls : List Lexeme) : List Symbol := ls.map (·.symbol)

@[simp] theorem symbolsOf_cons (l : Lexeme) (ls : List Lexeme) :
    symbolsOf (l :: ls) = l.symbol :: symbolsOf ls := rfl

theorem peek_eq_first (ls : List Lexeme) : peek ls = Derivation.first (symbolsOf ls) := by
  cases ls <;> rfl

theorem exists_of_symbolsOf_eq_cons {ls : List Lexeme} {x : Symbol} {xs : List Symbol}
    (h : symbolsOf ls = x :: xs) :
    ∃ offset rest, ls = ⟨x, offset⟩ :: rest ∧ symbolsOf rest = xs := by
  obtain ⟨⟨y, offset⟩, rest, rfl, rfl, rfl⟩ := List.map_eq_cons_iff.1 h
  exact ⟨offset, rest, rfl, rfl⟩

theorem first_symbolsOf_ne {ls : List Lexeme} {x : Symbol} (hx : x ≠ .eof)
    (h : ∀ offset rest, ls = ⟨x, offset⟩ :: rest → False) :
    Derivation.first (symbolsOf ls) ≠ x := by
  cases ls with
  | nil => exact hx.symm
  | cons l rest =>
    rintro rfl
    exact h l.offset rest rfl

/-- A reader succeeds and leaves lexemes with certain symbols. -/
def Reaches {α : Type} {n : Nat} (x : Except CompileError (Parsed Lexeme α n)) (r : List Symbol) :
    Prop :=
  ∃ p, x = .ok p ∧ symbolsOf p.rest = r

namespace Reaches

variable {α β : Type} {m n : Nat} {r : List Symbol}

theorem ok_iff {p : Parsed Lexeme α n} : Reaches (.ok p) r ↔ symbolsOf p.rest = r :=
  ⟨fun ⟨_, hp, h⟩ => by cases hp; exact h, fun h => ⟨p, rfl, h⟩⟩

theorem pure_iff {p : Parsed Lexeme α n} :
    Reaches (pure p : Except CompileError (Parsed Lexeme α n)) r ↔ symbolsOf p.rest = r := ok_iff

theorem not_error {e : CompileError} :
    ¬ Reaches (.error e : Except CompileError (Parsed Lexeme α n)) r :=
  fun ⟨_, h, _⟩ => by cases h

theorem bind_iff {γ : Type} {x : Except CompileError γ}
    {f : γ → Except CompileError (Parsed Lexeme α n)} :
    Reaches (x >>= f) r ↔ ∃ a, x = .ok a ∧ Reaches (f a) r := by
  constructor
  · rintro ⟨p, hp, h⟩
    obtain ⟨a, ha, hf⟩ := exists_of_bind_eq_ok hp
    exact ⟨a, ha, p, hf, h⟩
  · rintro ⟨a, rfl, h⟩
    exact h

end Reaches

namespace Scope

open Motif.Derivation

variable {s : Scope} {ls : List Lexeme} {r : List Symbol}

/-! ## Symbols -/

theorem reaches_expect {symbol : Symbol} {what : String} :
    Reaches (s.expect symbol what ls) r ↔ symbolsOf ls = symbol :: r := by
  cases ls with
  | nil => exact ⟨fun h => absurd h Reaches.not_error, nofun⟩
  | cons l rest =>
    rw [expect]
    split
    · next hl => rw [Reaches.ok_iff, symbolsOf_cons, hl, List.cons.injEq, eq_self, true_and]
    · next hl => exact ⟨fun h => absurd h Reaches.not_error, fun h => absurd (List.cons.inj h).1 hl⟩

theorem reaches_closed {α β : Type} {m n : Nat} {symbol : Symbol} {what : String}
    {x : Except CompileError (Parsed Lexeme α m)}
    {close : (p : Parsed Lexeme α m) → Parsed Lexeme Unit p.rest.length → Parsed Lexeme β n}
    (hclose : ∀ p e, (close p e).rest = e.rest) :
    Reaches (do let p ← x; let e ← s.expect symbol what p.rest; return close p e) r ↔
      Reaches x (symbol :: r) := by
  rw [Reaches.bind_iff]
  refine exists_congr fun p => and_congr_right fun _ => ?_
  rw [← @reaches_expect s _ r symbol what, Reaches.bind_iff]
  exact exists_congr fun e => and_congr_right fun _ => by rw [Reaches.pure_iff, hclose]

theorem exists_regex_eq_ok {source : String} {offset : Nat} :
    (∃ x, s.regex source offset = .ok x) ↔ (s.env.regex? source).isSome := by
  rw [regex]
  cases s.env.regex? source with
  | none => exact ⟨nofun, nofun⟩
  | some x => exact ⟨fun _ => rfl, fun _ => ⟨x, rfl⟩⟩

theorem exists_regexTest_eq_ok {source : String} {offset : Nat} :
    (∃ x, s.regexTest source offset = .ok x) ↔ (s.env.regex? source).isSome := by
  rw [regexTest, regex]
  cases s.env.regex? source with
  | none => exact ⟨nofun, nofun⟩
  | some x => exact ⟨fun _ => rfl, fun _ => ⟨_, rfl⟩⟩

theorem exists_functionTest_eq_ok {name : String} {offset : Nat} :
    (∃ x, s.functionTest name offset = .ok x) ↔ (s.env.function? name).isSome := by
  rw [functionTest]
  cases s.env.function? name with
  | none => exact ⟨nofun, nofun⟩
  | some x => exact ⟨fun _ => rfl, fun _ => ⟨x, rfl⟩⟩

/-! ## Terms -/

theorem exists_of_reaches_readAttribute {name : String} (h : Reaches (s.readAttribute name ls) r) :
    ∃ t : Term, Meant s.env t.symbols ∧ .ident name :: symbolsOf ls = t.symbols ++ r := by
  rw [readAttribute.eq_def] at h
  split at h
  · exact absurd h Reaches.not_error
  · split at h
    · cases Reaches.ok_iff.1 h
      exact ⟨.value name (.literal _), by simp [Term.symbols, Symbol.Meant, Comparand.symbol], rfl⟩
    · cases Reaches.ok_iff.1 h
      exact ⟨.value name (.name _), by simp [Term.symbols, Symbol.Meant, Comparand.symbol], rfl⟩
    · cases Reaches.ok_iff.1 h
      exact ⟨.value name (.number _), by simp [Term.symbols, Symbol.Meant, Comparand.symbol], rfl⟩
    · next source at_ rest =>
      obtain ⟨x, hx, h⟩ := Reaches.bind_iff.1 h
      cases Reaches.ok_iff.1 h
      refine ⟨.value name (.regex source), ?_, rfl⟩
      simp [Term.symbols, Symbol.Meant, Comparand.symbol, exists_regex_eq_ok.1 ⟨x, hx⟩]
    · exact absurd h Reaches.not_error
  · split at h
    · split at h
      · next word _ _ test htest =>
        cases Reaches.ok_iff.1 h
        have := Presence.keyword_of_ofKeyword? htest
        subst this
        exact ⟨.presence name test, by simp [Term.symbols, Symbol.Meant], rfl⟩
      · exact absurd h Reaches.not_error
    · exact absurd h Reaches.not_error
  · split at h
    · cases Reaches.ok_iff.1 h
      exact ⟨.compare name _ _, by simp [Term.symbols, Symbol.Meant], rfl⟩
    · exact absurd h Reaches.not_error
  · exact absurd h Reaches.not_error

theorem reaches_readAttribute {name : String} {t : Term} (ht : Meant s.env t.symbols)
    (h : .ident name :: symbolsOf ls = t.symbols ++ r) : Reaches (s.readAttribute name ls) r := by
  cases t with
  | value name' c =>
    obtain ⟨hname, h₁⟩ := List.cons.inj h
    cases hname
    obtain ⟨o₁, ls₁, rfl, h₂⟩ := exists_of_symbolsOf_eq_cons h₁
    obtain ⟨o₂, ls₂, rfl, h₃⟩ := exists_of_symbolsOf_eq_cons h₂
    cases c with
    | regex source =>
      have hs : (s.env.regex? source).isSome := by
        simpa [Term.symbols, Comparand.symbol, Symbol.Meant] using ht
      obtain ⟨x, hx⟩ := exists_regex_eq_ok.2 hs
      exact Reaches.bind_iff.2 ⟨x, hx, Reaches.ok_iff.2 h₃⟩
    | _ => exact Reaches.ok_iff.2 h₃
  | presence name' test =>
    obtain ⟨hname, h₁⟩ := List.cons.inj h
    cases hname
    obtain ⟨o₁, ls₁, rfl, h₂⟩ := exists_of_symbolsOf_eq_cons h₁
    obtain ⟨o₂, ls₂, rfl, h₃⟩ := exists_of_symbolsOf_eq_cons h₂
    simp only [readAttribute, Presence.ofKeyword?_keyword]
    exact Reaches.ok_iff.2 h₃
  | compare name' relation digits =>
    obtain ⟨hname, h₁⟩ := List.cons.inj h
    cases hname
    obtain ⟨o₁, ls₁, rfl, h₂⟩ := exists_of_symbolsOf_eq_cons h₁
    obtain ⟨o₂, ls₂, rfl, h₃⟩ := exists_of_symbolsOf_eq_cons h₂
    exact Reaches.ok_iff.2 h₃
  | leaf l => cases l <;> cases (List.cons.inj h).1

theorem reaches_readTerm : Reaches (s.readTerm ls) r ↔
    ∃ t : Term, Meant s.env t.symbols ∧ symbolsOf ls = t.symbols ++ r := by
  constructor
  · intro h
    rw [readTerm.eq_def] at h
    split at h
    · exact absurd h Reaches.not_error
    · obtain ⟨p, hp, h⟩ := Reaches.bind_iff.1 h
      have hr := Reaches.pure_iff.1 h
      exact exists_of_reaches_readAttribute ⟨p, hp, hr⟩
    · cases Reaches.ok_iff.1 h
      exact ⟨.leaf (.literal _), by simp [Term.symbols, Leaf.symbol, Symbol.Meant], rfl⟩
    · next source _ _ =>
      obtain ⟨x, hx, h⟩ := Reaches.bind_iff.1 h
      cases Reaches.ok_iff.1 h
      refine ⟨.leaf (.regex source), ?_, rfl⟩
      simp [Term.symbols, Leaf.symbol, Symbol.Meant, exists_regexTest_eq_ok.1 ⟨x, hx⟩]
    · next name _ _ =>
      obtain ⟨x, hx, h⟩ := Reaches.bind_iff.1 h
      cases Reaches.ok_iff.1 h
      refine ⟨.leaf (.func name), ?_, rfl⟩
      simp [Term.symbols, Leaf.symbol, Symbol.Meant, exists_functionTest_eq_ok.1 ⟨x, hx⟩]
    · exact absurd h Reaches.not_error
  · rintro ⟨t, ht, h⟩
    cases t with
    | leaf l =>
      obtain ⟨o, rest, rfl, hr⟩ := exists_of_symbolsOf_eq_cons h
      cases l with
      | literal text => exact Reaches.ok_iff.2 hr
      | regex source =>
        obtain ⟨x, hx⟩ := exists_regexTest_eq_ok.2 (ht _ List.mem_cons_self)
        exact Reaches.bind_iff.2 ⟨x, hx, Reaches.ok_iff.2 hr⟩
      | func name =>
        obtain ⟨x, hx⟩ := exists_functionTest_eq_ok.2 (ht _ List.mem_cons_self)
        exact Reaches.bind_iff.2 ⟨x, hx, Reaches.ok_iff.2 hr⟩
    | _ =>
      obtain ⟨o, rest, rfl, -⟩ := exists_of_symbolsOf_eq_cons h
      obtain ⟨p, hp, hr⟩ := reaches_readAttribute ht h
      exact Reaches.bind_iff.2 ⟨p, hp, Reaches.ok_iff.2 hr⟩

/-! ## Connectives -/

mutual

theorem reaches_readUnary (ls : List Lexeme) (r : List Symbol) : Reaches (s.readUnary ls) r ↔
    ∃ u : Unary, Meant s.env u.symbols ∧ symbolsOf ls = u.symbols ++ r := by
  constructor
  · intro h
    rw [readUnary.eq_def] at h
    split at h
    · obtain ⟨p, hp, h⟩ := Reaches.bind_iff.1 h
      have hr := Reaches.pure_iff.1 h
      obtain ⟨u, hu, h⟩ := (reaches_readUnary _ _).1 ⟨p, hp, hr⟩
      exact ⟨.negation u, by simp [Unary.symbols, Symbol.Meant, hu], by simp [Unary.symbols, h]⟩
    · obtain ⟨d, hd, h, -⟩ := (reaches_readDisjuncts _ _).1 ((reaches_closed fun _ _ => rfl).1 h)
      exact ⟨.parens d, by simp [Unary.symbols, Symbol.Meant, hd], by simp [Unary.symbols, h]⟩
    · obtain ⟨t, ht, h⟩ := reaches_readTerm.1 h
      exact ⟨.term t, ht, h⟩
  · rintro ⟨u, hu, h⟩
    cases u with
    | term t =>
      have hread : s.readUnary ls = s.readTerm ls := by
        obtain ⟨x, xs, ht, -, hbang, hparen⟩ := t.exists_first
        obtain ⟨o, rest, rfl, -⟩ := exists_of_symbolsOf_eq_cons
          (h.trans (congrArg (· ++ r) ht))
        rw [readUnary]
        · rintro o' rest' heq
          cases heq
          exact hbang rfl
        · rintro o' rest' heq
          cases heq
          exact hparen rfl
      rw [hread]
      exact reaches_readTerm.2 ⟨t, hu, h⟩
    | negation u =>
      obtain ⟨o, rest, rfl, h'⟩ := exists_of_symbolsOf_eq_cons h
      obtain ⟨p, hp, hr⟩ := (reaches_readUnary rest r).2 ⟨u, (meant_cons.1 hu).2, h'⟩
      rw [readUnary]
      exact Reaches.bind_iff.2 ⟨p, hp, Reaches.ok_iff.2 hr⟩
    | parens d =>
      obtain ⟨o, rest, rfl, h'⟩ := exists_of_symbolsOf_eq_cons h
      rw [List.append_eq, List.append_assoc] at h'
      rw [Unary.symbols, meant_cons, meant_append] at hu
      rw [readUnary, reaches_closed fun _ _ => rfl]
      exact (reaches_readDisjuncts rest _).2 ⟨d, hu.2.1, h', nofun, nofun⟩
termination_by (ls.length, 0)

theorem reaches_readConjuncts (ls : List Lexeme) (r : List Symbol) :
    Reaches (s.readConjuncts ls) r ↔ ∃ c : Conjunction, Meant s.env c.symbols ∧
      symbolsOf ls = c.symbols ++ r ∧ first r ≠ .amp := by
  rw [readConjuncts, Reaches.bind_iff]
  constructor
  · rintro ⟨p, hp, h⟩
    obtain ⟨u, hu, hls⟩ := (reaches_readUnary ls _).1 ⟨p, hp, rfl⟩
    split at h
    · next o rest hrest =>
      have hlt : rest.length < ls.length := p.rest_lt hrest
      obtain ⟨q, hq, h⟩ := Reaches.bind_iff.1 h
      have hr := Reaches.pure_iff.1 h
      obtain ⟨c, hc, h, hamp⟩ := (reaches_readConjuncts rest _).1 ⟨q, hq, hr⟩
      refine ⟨.cons u c, by simp [Conjunction.symbols, Symbol.Meant, hu, hc], ?_, hamp⟩
      rw [hls, hrest, symbolsOf_cons, h, Conjunction.symbols, List.append_assoc, List.cons_append]
    · next hne =>
      cases Reaches.pure_iff.1 h
      exact ⟨.one u, hu, hls, first_symbolsOf_ne nofun hne⟩
  · rintro ⟨c, hc, h, hamp⟩
    cases c with
    | one u =>
      obtain ⟨p, hp, hr⟩ := (reaches_readUnary ls r).2 ⟨u, hc, h⟩
      refine ⟨p, hp, ?_⟩
      split
      · next o rest hrest =>
        rw [← hr, hrest] at hamp
        exact absurd rfl hamp
      · exact Reaches.pure_iff.2 hr
    | cons u c =>
      rw [Conjunction.symbols, meant_append, meant_cons] at hc
      rw [Conjunction.symbols, List.append_assoc] at h
      obtain ⟨p, hp, hr⟩ := (reaches_readUnary ls _).2 ⟨u, hc.1, h⟩
      refine ⟨p, hp, ?_⟩
      obtain ⟨o', rest', hrest', hr'⟩ := exists_of_symbolsOf_eq_cons hr
      split
      · next o rest hrest =>
        have hlt : rest.length < ls.length := p.rest_lt hrest
        cases hrest.symm.trans hrest'
        obtain ⟨q, hq, hr⟩ := (reaches_readConjuncts rest' r).2 ⟨c, hc.2.2, hr', hamp⟩
        exact Reaches.bind_iff.2 ⟨q, hq, Reaches.pure_iff.2 hr⟩
      · next hne => exact absurd hrest' (hne o' rest')
termination_by (ls.length, 1)

theorem reaches_readDisjuncts (ls : List Lexeme) (r : List Symbol) :
    Reaches (s.readDisjuncts ls) r ↔ ∃ d : Disjunction, Meant s.env d.symbols ∧
      symbolsOf ls = d.symbols ++ r ∧ first r ≠ .amp ∧ first r ≠ .pipe := by
  rw [readDisjuncts, Reaches.bind_iff]
  constructor
  · rintro ⟨p, hp, h⟩
    obtain ⟨c, hc, hls, hamp⟩ := (reaches_readConjuncts ls _).1 ⟨p, hp, rfl⟩
    split at h
    · next o rest hrest =>
      have hlt : rest.length < ls.length := p.rest_lt hrest
      obtain ⟨q, hq, h⟩ := Reaches.bind_iff.1 h
      have hr := Reaches.pure_iff.1 h
      obtain ⟨d, hd, h, hfollow⟩ := (reaches_readDisjuncts rest _).1 ⟨q, hq, hr⟩
      refine ⟨.cons c d, by simp [Disjunction.symbols, Symbol.Meant, hc, hd], ?_, hfollow⟩
      rw [hls, hrest, symbolsOf_cons, h, Disjunction.symbols, List.append_assoc, List.cons_append]
    · next hne =>
      cases Reaches.pure_iff.1 h
      exact ⟨.one c, hc, hls, hamp, first_symbolsOf_ne nofun hne⟩
  · rintro ⟨d, hd, h, hamp, hpipe⟩
    cases d with
    | one c =>
      obtain ⟨p, hp, hr⟩ := (reaches_readConjuncts ls r).2 ⟨c, hd, h, hamp⟩
      refine ⟨p, hp, ?_⟩
      split
      · next o rest hrest =>
        rw [← hr, hrest] at hpipe
        exact absurd rfl hpipe
      · exact Reaches.pure_iff.2 hr
    | cons c d =>
      rw [Disjunction.symbols, meant_append, meant_cons] at hd
      rw [Disjunction.symbols, List.append_assoc] at h
      obtain ⟨p, hp, hr⟩ := (reaches_readConjuncts ls _).2 ⟨c, hd.1, h, nofun⟩
      refine ⟨p, hp, ?_⟩
      obtain ⟨o', rest', hrest', hr'⟩ := exists_of_symbolsOf_eq_cons hr
      split
      · next o rest hrest =>
        have hlt : rest.length < ls.length := p.rest_lt hrest
        cases hrest.symm.trans hrest'
        obtain ⟨q, hq, hr⟩ := (reaches_readDisjuncts rest' r).2 ⟨d, hd.2.2, hr', hamp, hpipe⟩
        exact Reaches.bind_iff.2 ⟨q, hq, Reaches.pure_iff.2 hr⟩
      · next hne => exact absurd hrest' (hne o' rest')
termination_by (ls.length, 2)

end

/-! ## ElementTest tests -/

theorem reaches_readBracketed {close : Symbol} {what : String}
    (hc : close = .rbracket ∨ close = .rbrace) : Reaches (s.readBracketed close what ls) r ↔
      ∃ d, Meant s.env (contentSymbols d) ∧ symbolsOf ls = contentSymbols d ++ close :: r := by
  rw [readBracketed]
  split
  · next hpeek =>
    -- nothing stands between the brackets: no disjunction starts with the closing one
    obtain ⟨offset, rest, rfl⟩ : ∃ offset rest, ls = ⟨close, offset⟩ :: rest := by
      cases ls with
      | nil => rcases hc with rfl | rfl <;> cases hpeek
      | cons l rest => exact ⟨l.offset, rest, by rw [← hpeek]; rfl⟩
    rw [Reaches.ok_iff]
    constructor
    · rintro rfl
      exact ⟨none, meant_nil, rfl⟩
    · rintro ⟨d, -, h⟩
      exact (content_append_inj (d := none) hc h).2
  · next hpeek =>
    rw [reaches_closed fun _ _ => rfl, reaches_readDisjuncts]
    constructor
    · rintro ⟨d, hd, h, -⟩
      exact ⟨some d, hd, h⟩
    · rintro ⟨d, hd, h⟩
      cases d with
      | none => exact absurd (by rw [peek_eq_first, h]; rfl) hpeek
      | some d =>
        have hfollow : close ≠ .amp ∧ close ≠ .pipe := by
          rcases hc with rfl | rfl <;> exact ⟨nofun, nofun⟩
        exact ⟨d, hd, h, hfollow⟩

theorem reaches_readElement (ls : List Lexeme) (r : List Symbol) : Reaches (s.readElement ls) r ↔
    ∃ e : ElementTest, Meant s.env e.symbols ∧ symbolsOf ls = e.symbols ++ r := by
  constructor
  · intro h
    rw [readElement.eq_def] at h
    split at h
    · exact absurd h Reaches.not_error
    · obtain ⟨d, hd, h⟩ := (reaches_readBracketed (.inl rfl)).1 h
      refine ⟨.brackets d, by simp [ElementTest.symbols, Symbol.Meant, hd], ?_⟩
      simp [ElementTest.symbols, h]
    · obtain ⟨d, hd, h⟩ := (reaches_readBracketed (.inr rfl)).1 h
      refine ⟨.braces d, by simp [ElementTest.symbols, Symbol.Meant, hd], ?_⟩
      simp [ElementTest.symbols, h]
    · obtain ⟨p, hp, h⟩ := Reaches.bind_iff.1 h
      have hr := Reaches.pure_iff.1 h
      obtain ⟨e, he, h⟩ := (reaches_readElement _ _).1 ⟨p, hp, hr⟩
      refine ⟨.negation e, by simp [ElementTest.symbols, Symbol.Meant, he], ?_⟩
      simp [ElementTest.symbols, h]
    · next text _ _ =>
      cases Reaches.ok_iff.1 h
      exact ⟨.leaf (.literal text), by simp [ElementTest.symbols, Leaf.symbol, Symbol.Meant], rfl⟩
    · next source _ _ =>
      obtain ⟨x, hx, h⟩ := Reaches.bind_iff.1 h
      cases Reaches.pure_iff.1 h
      refine ⟨.leaf (.regex source), ?_, rfl⟩
      simp [ElementTest.symbols, Leaf.symbol, Symbol.Meant, exists_regexTest_eq_ok.1 ⟨x, hx⟩]
    · next name _ _ =>
      obtain ⟨x, hx, h⟩ := Reaches.bind_iff.1 h
      cases Reaches.pure_iff.1 h
      refine ⟨.leaf (.func name), ?_, rfl⟩
      simp [ElementTest.symbols, Leaf.symbol, Symbol.Meant, exists_functionTest_eq_ok.1 ⟨x, hx⟩]
    · exact absurd h Reaches.not_error
  · rintro ⟨e, he, h⟩
    cases e with
    | brackets d =>
      obtain ⟨o, rest, rfl, h'⟩ := exists_of_symbolsOf_eq_cons h
      rw [List.append_eq, List.append_assoc] at h'
      rw [ElementTest.symbols, meant_cons, meant_append] at he
      exact (reaches_readBracketed (.inl rfl)).2 ⟨d, he.2.1, h'⟩
    | braces d =>
      obtain ⟨o, rest, rfl, h'⟩ := exists_of_symbolsOf_eq_cons h
      rw [List.append_eq, List.append_assoc] at h'
      rw [ElementTest.symbols, meant_cons, meant_append] at he
      exact (reaches_readBracketed (.inr rfl)).2 ⟨d, he.2.1, h'⟩
    | negation e =>
      obtain ⟨o, rest, rfl, h'⟩ := exists_of_symbolsOf_eq_cons h
      obtain ⟨p, hp, hr⟩ := (reaches_readElement rest r).2 ⟨e, (meant_cons.1 he).2, h'⟩
      exact Reaches.bind_iff.2 ⟨p, hp, Reaches.pure_iff.2 hr⟩
    | leaf l =>
      obtain ⟨o, rest, rfl, hr⟩ := exists_of_symbolsOf_eq_cons h
      cases l with
      | literal text => exact Reaches.ok_iff.2 hr
      | regex source =>
        obtain ⟨x, hx⟩ := exists_regexTest_eq_ok.2 (he _ List.mem_cons_self)
        exact Reaches.bind_iff.2 ⟨x, hx, Reaches.pure_iff.2 hr⟩
      | func name =>
        obtain ⟨x, hx⟩ := exists_functionTest_eq_ok.2 (he _ List.mem_cons_self)
        exact Reaches.bind_iff.2 ⟨x, hx, Reaches.pure_iff.2 hr⟩
termination_by ls.length

end Scope

end Motif
