import Motif.Proofs.ElementAcceptance

/-!
# Which patterns are accepted

Readers of expressions accept what the grammar derives. Texts of variables are not part of the
grammar, so all symbols are without variables here.

* `Scope.reaches_readBounds`, `Scope.reaches_readQuantifier`, `Scope.reaches_readMulti`: the readers
  of quantifiers and of runs of elements.
* `Scope.reaches_readAtom`, `Scope.reaches_readItems`, `Scope.reaches_readBranches`: the readers of
  expressions.
* **`Scope.readsAll_iff_derivable`**: a text is read to its end exactly if it has a derivation, and
  it never has two.
-/

namespace Motif

namespace Scope

open Motif.Derivation

variable {s : Scope} {ls : List Lexeme} {r : List Symbol}

/-! ## Quantifiers -/

theorem exists_of_readCount {p : Parsed Lexeme Nat ls.length} (h : s.readCount ls = .ok p) :
    ∃ n : Count, n.value = p.value ∧ symbolsOf ls = n.symbol :: symbolsOf p.rest := by
  rw [readCount.eq_def] at h
  split at h
  · next digits offset rest =>
    split at h
    · next n hn =>
      cases h
      exact ⟨⟨digits, n, hn⟩, rfl, rfl⟩
    · cases h
  · cases h

theorem readCount_of_symbolsOf {n : Count} (h : symbolsOf ls = n.symbol :: r) :
    ∃ p, s.readCount ls = .ok p ∧ p.value = n.value ∧ symbolsOf p.rest = r := by
  obtain ⟨o, rest, rfl, hr⟩ := exists_of_symbolsOf_eq_cons h
  obtain ⟨digits, n, hn⟩ := n
  simp only [readCount, Count.symbol, hn]
  exact ⟨_, rfl, rfl, hr⟩

theorem reaches_readBounds_iff : Reaches (s.readBounds ls) r ↔
    ∃ (b : Parsed Lexeme Unit ls.length) (p : Parsed Lexeme Nat b.rest.length)
      (q : Parsed Lexeme (Option Nat) (p.rest.length + 1)),
      s.expect .lbrace "`\x7b`" ls = .ok b ∧ s.readCount b.rest = .ok p ∧
        s.readMaximum p.value p.rest = .ok q ∧ symbolsOf q.rest = .rbrace :: r ∧
        Bounds.Ordered p.value q.value := by
  rw [readBounds, Reaches.bind_iff]
  constructor
  · rintro ⟨b, hb, h⟩
    obtain ⟨p, hp, h⟩ := Reaches.bind_iff.1 h
    obtain ⟨q, hq, h⟩ := Reaches.bind_iff.1 h
    obtain ⟨e, he, h⟩ := Reaches.bind_iff.1 h
    refine ⟨b, p, q, hb, hp, hq, ?_⟩
    split at h
    · next max hmax =>
      split at h
      · exact absurd h Reaches.not_error
      · next hle =>
        have hr := Reaches.pure_iff.1 h
        rw [hmax]
        exact ⟨reaches_expect.1 ⟨e, he, hr⟩, Nat.le_of_not_lt hle⟩
    · next hmax =>
      have hr := Reaches.pure_iff.1 h
      rw [hmax]
      exact ⟨reaches_expect.1 ⟨e, he, hr⟩, trivial⟩
  · rintro ⟨b, p, q, hb, hp, hq, hr, hle⟩
    obtain ⟨e, he, hr⟩ := reaches_expect.2 hr
    refine ⟨b, hb, Reaches.bind_iff.2 ⟨p, hp, Reaches.bind_iff.2 ⟨q, hq, ?_⟩⟩⟩
    refine Reaches.bind_iff.2 ⟨e, he, ?_⟩
    split
    · next max hmax =>
      rw [hmax] at hle
      rw [if_neg (Nat.not_lt.2 hle)]
      exact Reaches.pure_iff.2 hr
    · exact Reaches.pure_iff.2 hr

theorem of_readMaximum {min : Nat} {q : Parsed Lexeme (Option Nat) (ls.length + 1)}
    (h : s.readMaximum min ls = .ok q) :
    (q.value = some min ∧ symbolsOf ls = symbolsOf q.rest) ∨
      (q.value = none ∧ symbolsOf ls = .comma :: symbolsOf q.rest) ∨
        ∃ m : Count, q.value = some m.value ∧
          symbolsOf ls = .comma :: m.symbol :: symbolsOf q.rest := by
  rw [readMaximum.eq_def] at h
  split at h
  · split at h
    · obtain ⟨p, hp, h⟩ := exists_of_bind_eq_ok h
      cases h
      obtain ⟨m, hm, hrest⟩ := exists_of_readCount hp
      exact .inr (.inr ⟨m, congrArg some hm.symm, congrArg (Symbol.comma :: ·) hrest⟩)
    · cases h
      exact .inr (.inl ⟨rfl, rfl⟩)
  · cases h
    exact .inl ⟨rfl, rfl⟩

theorem readMaximum_of_symbolsOf {b : Bounds} (h : symbolsOf ls = b.upper ++ .rbrace :: r) :
    ∃ q, s.readMaximum b.min.value ls = .ok q ∧ q.value = b.max ∧
      symbolsOf q.rest = .rbrace :: r := by
  cases b with
  | exactly n =>
    obtain ⟨o, rest, rfl, -⟩ := exists_of_symbolsOf_eq_cons h
    exact ⟨_, rfl, rfl, h⟩
  | atLeast n =>
    obtain ⟨o, rest, rfl, h₁⟩ := exists_of_symbolsOf_eq_cons h
    obtain ⟨o', rest', rfl, -⟩ := exists_of_symbolsOf_eq_cons h₁
    exact ⟨_, rfl, rfl, h₁⟩
  | between n m hle =>
    obtain ⟨o, rest, rfl, h₁⟩ := exists_of_symbolsOf_eq_cons h
    obtain ⟨p, hp, hm, hrest⟩ := readCount_of_symbolsOf (s := s) h₁
    obtain ⟨o', rest', rfl, -⟩ := exists_of_symbolsOf_eq_cons h₁
    refine ⟨(p.map some).weaken length_le_next_next, ?_, congrArg some hm, hrest⟩
    simp only [readMaximum, Count.symbol, startsNumber, if_true]
    rw [← Count.symbol, hp]
    rfl

theorem reaches_readBounds :
    Reaches (s.readBounds ls) r ↔ ∃ b : Bounds, symbolsOf ls = b.symbols ++ r := by
  rw [reaches_readBounds_iff]
  constructor
  · rintro ⟨b, p, q, hb, hp, hq, hr, hle⟩
    obtain ⟨n, hn, hcount⟩ := exists_of_readCount hp
    rw [reaches_expect.1 ⟨b, hb, rfl⟩, hcount]
    rcases of_readMaximum hq with ⟨-, hrest⟩ | ⟨-, hrest⟩ | ⟨m, hm, hrest⟩ <;> rw [hrest, hr]
    · exact ⟨.exactly n, rfl⟩
    · exact ⟨.atLeast n, rfl⟩
    · rw [hm, ← hn] at hle
      exact ⟨.between n m hle, rfl⟩
  · rintro ⟨b, h⟩
    rw [b.symbols_eq] at h
    simp only [List.cons_append, List.append_assoc, List.nil_append] at h
    obtain ⟨u, hu, h₁⟩ := reaches_expect.2 h
    obtain ⟨p, hp, hn, h₂⟩ := readCount_of_symbolsOf h₁
    obtain ⟨q, hq, hmax, hr⟩ := readMaximum_of_symbolsOf h₂
    rw [← hn] at hq
    exact ⟨u, p, q, hu, hp, hq, hr, by rw [hn, hmax]; exact b.ordered⟩

theorem exists_of_readGreed (ls : List Lexeme) :
    ∃ l, symbolsOf ls = greedSymbols l ++ symbolsOf (readGreed ls).rest := by
  rw [readGreed.eq_def]
  split
  · exact ⟨true, rfl⟩
  · exact ⟨false, rfl⟩

theorem readGreed_of_symbolsOf {l : Bool} (h : symbolsOf ls = greedSymbols l ++ r)
    (hr : first r ≠ .question) : symbolsOf (readGreed ls).rest = r := by
  cases l with
  | true =>
    obtain ⟨o, rest, rfl, hrest⟩ := exists_of_symbolsOf_eq_cons h
    exact hrest
  | false =>
    rw [readGreed.eq_def]
    split
    · cases h
      exact absurd rfl hr
    · exact h

theorem exists_of_reaches_readQuantifier (h : Reaches (s.readQuantifier ls) r) :
    ∃ q, symbolsOf ls = repetitionSymbols q ++ r := by
  rw [readQuantifier.eq_def] at h
  split at h
  · next rest =>
    obtain ⟨l, hl⟩ := exists_of_readGreed rest
    exact ⟨some ⟨.star, l⟩, by rw [← Reaches.ok_iff.1 h, symbolsOf_cons, hl]; rfl⟩
  · next rest =>
    obtain ⟨l, hl⟩ := exists_of_readGreed rest
    exact ⟨some ⟨.plus, l⟩, by rw [← Reaches.ok_iff.1 h, symbolsOf_cons, hl]; rfl⟩
  · next rest =>
    obtain ⟨l, hl⟩ := exists_of_readGreed rest
    exact ⟨some ⟨.question, l⟩, by rw [← Reaches.ok_iff.1 h, symbolsOf_cons, hl]; rfl⟩
  · split at h
    · obtain ⟨p, hp, h⟩ := Reaches.bind_iff.1 h
      obtain ⟨b, hb⟩ := reaches_readBounds.1 ⟨p, hp, rfl⟩
      obtain ⟨l, hl⟩ := exists_of_readGreed p.rest
      refine ⟨some ⟨.bounds b, l⟩, ?_⟩
      rw [hb, hl, ← Reaches.pure_iff.1 h, repetitionSymbols, List.append_assoc]
      rfl
    · exact ⟨none, Reaches.ok_iff.1 h⟩
  · exact ⟨none, Reaches.ok_iff.1 h⟩

theorem reaches_readQuantifier {q : Option Repetition} (h : symbolsOf ls = repetitionSymbols q ++ r)
    (hr : Symbol.startsQuantifier r = false) : Reaches (s.readQuantifier ls) r := by
  match q with
  | none =>
    cases h
    rw [readQuantifier.eq_def]
    split
    case h_4 =>
      split
      · next rest hnumber =>
        rw [startsNumber.eq_def] at hnumber
        split at hnumber <;> first | cases hr | cases hnumber
      · exact Reaches.ok_iff.2 rfl
    case h_5 => exact Reaches.ok_iff.2 rfl
    all_goals cases hr
  | some ⟨times, l⟩ =>
    rw [repetitionSymbols, List.append_assoc] at h
    have hgreed {rest : List Lexeme} (h : symbolsOf rest = greedSymbols l ++ r) :
        symbolsOf (readGreed rest).rest = r := readGreed_of_symbolsOf h (first_ne_question hr)
    cases times with
    | star =>
      obtain ⟨o, rest, rfl, h'⟩ := exists_of_symbolsOf_eq_cons h
      exact Reaches.ok_iff.2 (hgreed h')
    | plus =>
      obtain ⟨o, rest, rfl, h'⟩ := exists_of_symbolsOf_eq_cons h
      exact Reaches.ok_iff.2 (hgreed h')
    | question =>
      obtain ⟨o, rest, rfl, h'⟩ := exists_of_symbolsOf_eq_cons h
      exact Reaches.ok_iff.2 (hgreed h')
    | bounds b =>
      obtain ⟨p, hp, hrest⟩ := (reaches_readBounds (s := s)).2 ⟨b, h⟩
      rw [Times.symbols, b.symbols_eq] at h
      obtain ⟨o, rest, rfl, h₁⟩ := exists_of_symbolsOf_eq_cons h
      obtain ⟨o', rest', rfl, -⟩ := exists_of_symbolsOf_eq_cons h₁
      exact Reaches.bind_iff.2 ⟨p, hp, Reaches.pure_iff.2 (hgreed hrest)⟩

/-! ## Runs of elements -/

theorem exists_of_front (c : Option Bounds) (mid : List Lexeme)
    (h : symbolsOf ls = boundsSymbols c ++ symbolsOf mid) :
    ∃ c l, symbolsOf ls =
      boundsSymbols c ++ (greedSymbols l ++ symbolsOf (readGreed mid).rest) := by
  obtain ⟨l, hl⟩ := exists_of_readGreed mid
  exact ⟨c, l, by rw [h, ← hl]⟩

theorem exists_of_reaches_readMulti (h : Reaches (s.readMulti ls) r) :
    ∃ c l t, RunText.Meant s.env t ∧
      symbolsOf ls = boundsSymbols c ++ (greedSymbols l ++ t.symbol :: r) := by
  rw [readMulti] at h
  split at h
  case' isTrue =>
    obtain ⟨q, hq, h⟩ := Reaches.bind_iff.1 h
    obtain ⟨c, hc⟩ := reaches_readBounds.1 ⟨q, hq, rfl⟩
    obtain ⟨c, l, hfront⟩ := exists_of_front (some c) _ hc
  case' isFalse =>
    obtain ⟨c, l, hfront⟩ := exists_of_front none ls rfl
  all_goals
    obtain ⟨b, hb, h⟩ := Reaches.bind_iff.1 h
    cases hb
    dsimp only at h
    split at h
    · next source offset rest hrest =>
      obtain ⟨x, hx, h⟩ := Reaches.bind_iff.1 h
      cases Reaches.pure_iff.1 h
      exact ⟨c, l, .regex source, exists_regex_eq_ok.1 ⟨x, hx⟩, hfront.trans
        (congrArg (fun ls => boundsSymbols c ++ (greedSymbols l ++ symbolsOf ls)) hrest)⟩
    · next text offset rest hrest =>
      obtain ⟨x, hx, h⟩ := Reaches.bind_iff.1 h
      cases Reaches.pure_iff.1 h
      exact ⟨c, l, .literal text, exists_regex_eq_ok.1 ⟨x, hx⟩, hfront.trans
        (congrArg (fun ls => boundsSymbols c ++ (greedSymbols l ++ symbolsOf ls)) hrest)⟩
    · exact absurd h Reaches.not_error

theorem reaches_readMulti {c : Option Bounds} {l : Bool} {t : RunText} (ht : t.Meant s.env)
    (h : symbolsOf ls = boundsSymbols c ++ (greedSymbols l ++ t.symbol :: r)) :
    Reaches (s.readMulti ls) r := by
  have hquestion : first (t.symbol :: r) ≠ .question := by cases t <;> nofun
  rw [readMulti]
  split
  case' isTrue hbrace =>
    obtain ⟨c, rfl⟩ : ∃ c', c = some c' := by
      rw [peek_eq_first, h] at hbrace
      cases c with
      | some c => exact ⟨c, rfl⟩
      | none => cases l <;> cases t <;> cases hbrace
    obtain ⟨q, hq, hrest⟩ := (reaches_readBounds (s := s)).2 ⟨c, h⟩
    refine Reaches.bind_iff.2 ⟨q, hq, ?_⟩
  case' isFalse hbrace =>
    obtain rfl : c = none := by
      cases c with
      | some c => exact absurd (by rw [peek_eq_first, h, boundsSymbols, c.symbols_eq]; rfl) hbrace
      | none => rfl
    have hrest : symbolsOf ls = greedSymbols l ++ t.symbol :: r := h
  all_goals
    obtain ⟨o', rest', hrest', hr⟩ :=
      exists_of_symbolsOf_eq_cons (readGreed_of_symbolsOf hrest hquestion)
    refine Reaches.bind_iff.2 ⟨_, rfl, ?_⟩
    dsimp only
    -- the text decides which case of the reader applies
    cases t with
    | regex source =>
      split
      · next heq =>
        cases heq.symm.trans hrest'
        obtain ⟨x, hx⟩ := exists_regex_eq_ok.2 ht
        exact Reaches.bind_iff.2 ⟨x, hx, Reaches.pure_iff.2 hr⟩
      · next heq => cases heq.symm.trans hrest'
      · next hne _ => exact absurd hrest' (hne source o' rest')
    | literal text =>
      split
      · next heq => cases heq.symm.trans hrest'
      · next heq =>
        cases heq.symm.trans hrest'
        obtain ⟨x, hx⟩ := exists_regex_eq_ok.2 ht
        exact Reaches.bind_iff.2 ⟨x, hx, Reaches.pure_iff.2 hr⟩
      · next hne => exact absurd hrest' (hne text o' rest')

/-! ## Expressions -/

/-- No variable is named. -/
def VarFree (xs : List Symbol) : Prop := ∀ name, .var name ∉ xs

theorem VarFree.of_append {xs ys : List Symbol} (h : VarFree (xs ++ ys)) : VarFree ys :=
  fun name hy => h name (List.mem_append_right xs hy)

theorem VarFree.of_cons {x : Symbol} {xs : List Symbol} (h : VarFree (x :: xs)) : VarFree xs :=
  fun name hx => h name (List.mem_cons_of_mem x hx)

theorem readAtom_of_startsElement {st : Numbering} {l : Lexeme} {rest : List Lexeme}
    (h : l.symbol.startsElement = true) : s.readAtom st (l :: rest) = (do
      let p ← s.readElement (l :: rest)
      return p.map fun p => (.node p, st)) := by
  obtain ⟨x, o⟩ := l
  cases x <;> first | exact Bool.noConfusion h | rw [readAtom.eq_def]

mutual

theorem reaches_readAtom (st : Numbering) (ls : List Lexeme) (r : List Symbol)
    (hv : VarFree (symbolsOf ls)) : Reaches (s.readAtom st ls) r ↔
      ∃ a : Atom, a.Meant s.env ∧ symbolsOf ls = a.symbols ++ r := by
  constructor
  · intro h
    rw [readAtom.eq_def] at h
    split at h
    · -- groups
      obtain ⟨b, hb, h, -⟩ :=
        (reaches_readBranches _ _ _ hv.of_cons).1 ((reaches_closed fun _ _ => rfl).1 h)
      exact ⟨.group b, hb, by simp [Atom.symbols, h]⟩
    · obtain ⟨b, hb, h, -⟩ :=
        (reaches_readBranches _ _ _ hv.of_cons).1 ((reaches_closed fun _ _ => rfl).1 h)
      exact ⟨.nonCapture b, hb, by simp [Atom.symbols, h]⟩
    · next name _ _ =>
      obtain ⟨b, hb, h, -⟩ :=
        (reaches_readBranches _ _ _ hv.of_cons).1 ((reaches_closed fun _ _ => rfl).1 h)
      exact ⟨.named name b, hb, by simp [Atom.symbols, h]⟩
    · obtain ⟨p, hp, h⟩ := Reaches.bind_iff.1 h
      have hr := Reaches.pure_iff.1 h
      obtain ⟨c, l, t, ht, h⟩ := exists_of_reaches_readMulti ⟨p, hp, hr⟩
      exact ⟨.run c l t, ht, by simp [Atom.symbols, h]⟩
    · cases Reaches.ok_iff.1 h
      exact ⟨.backref _, trivial, rfl⟩
    · exact absurd List.mem_cons_self (hv _)
    · cases Reaches.ok_iff.1 h
      exact ⟨.caret, trivial, rfl⟩
    · cases Reaches.ok_iff.1 h
      exact ⟨.dollar, trivial, rfl⟩
    · split at h
      case h_7 => exact absurd h Reaches.not_error
      all_goals
        obtain ⟨p, hp, h⟩ := Reaches.bind_iff.1 h
        have hr := Reaches.pure_iff.1 h
        obtain ⟨e, he, h⟩ := (reaches_readElement _ _).1 ⟨p, hp, hr⟩
        exact ⟨.element e, he, h⟩
    · exact absurd h Reaches.not_error
  · rintro ⟨a, ha, h⟩
    cases a with
    | element e =>
      obtain ⟨p, hp, hr⟩ := (reaches_readElement ls r).2 ⟨e, ha, h⟩
      obtain ⟨x, xs, he, hx⟩ := e.exists_first
      obtain ⟨o, rest, rfl, -⟩ := exists_of_symbolsOf_eq_cons (h.trans (congrArg (· ++ r) he))
      rw [readAtom_of_startsElement hx]
      exact Reaches.bind_iff.2 ⟨p, hp, Reaches.pure_iff.2 hr⟩
    | group b =>
      obtain ⟨o, rest, rfl, h'⟩ := exists_of_symbolsOf_eq_cons h
      rw [List.append_eq, List.append_assoc] at h'
      rw [readAtom, reaches_closed fun _ _ => rfl]
      exact (reaches_readBranches _ rest _ hv.of_cons).2 ⟨b, ha, h', rfl, nofun⟩
    | nonCapture b =>
      obtain ⟨o, rest, rfl, h'⟩ := exists_of_symbolsOf_eq_cons h
      rw [List.append_eq, List.append_assoc] at h'
      rw [readAtom, reaches_closed fun _ _ => rfl]
      exact (reaches_readBranches _ rest _ hv.of_cons).2 ⟨b, ha, h', rfl, nofun⟩
    | named name b =>
      obtain ⟨o, rest, rfl, h'⟩ := exists_of_symbolsOf_eq_cons h
      rw [List.append_eq, List.append_assoc] at h'
      rw [readAtom, reaches_closed fun _ _ => rfl]
      exact (reaches_readBranches _ rest _ hv.of_cons).2 ⟨b, ha, h', rfl, nofun⟩
    | run c l t =>
      obtain ⟨o, rest, rfl, h'⟩ := exists_of_symbolsOf_eq_cons h
      simp only [List.append_eq, List.append_assoc, List.cons_append, List.nil_append] at h'
      obtain ⟨p, hp, hr⟩ := reaches_readMulti ha h'
      rw [readAtom]
      exact Reaches.bind_iff.2 ⟨p, hp, Reaches.pure_iff.2 hr⟩
    | backref id =>
      obtain ⟨o, rest, rfl, h'⟩ := exists_of_symbolsOf_eq_cons h
      rw [readAtom]
      exact Reaches.ok_iff.2 h'
    | caret =>
      obtain ⟨o, rest, rfl, h'⟩ := exists_of_symbolsOf_eq_cons h
      rw [readAtom]
      exact Reaches.ok_iff.2 h'
    | dollar =>
      obtain ⟨o, rest, rfl, h'⟩ := exists_of_symbolsOf_eq_cons h
      rw [readAtom]
      exact Reaches.ok_iff.2 h'
termination_by (ls.length, 0)

theorem reaches_readItems (st : Numbering) (ls : List Lexeme) (r : List Symbol)
    (hv : VarFree (symbolsOf ls)) : Reaches (s.readItems st ls) r ↔
      ∃ i : Items, i.Meant s.env ∧ symbolsOf ls = i.symbols ++ r ∧ endsItems (first r) = true := by
  rw [readItems]
  split
  · next hend =>
    rw [peek_eq_first] at hend
    rw [Reaches.ok_iff]
    constructor
    · rintro rfl
      exact ⟨.nil, trivial, rfl, hend⟩
    · rintro ⟨i, -, h, hr⟩
      exact (Items.append_inj (i := .nil) h hend hr).2
  · next hend =>
    rw [Reaches.bind_iff]
    constructor
    · rintro ⟨p, hp, h⟩
      obtain ⟨q, hq, h⟩ := Reaches.bind_iff.1 h
      have hlt : q.rest.length < ls.length := p.next_rest_lt q
      obtain ⟨m, hm, h⟩ := Reaches.bind_iff.1 h
      have hr := Reaches.pure_iff.1 h
      obtain ⟨a, ha, hls⟩ := (reaches_readAtom st ls _ hv).1 ⟨p, hp, rfl⟩
      obtain ⟨k, hk⟩ := exists_of_reaches_readQuantifier ⟨q, hq, rfl⟩
      rw [hls, hk] at hv
      obtain ⟨i, hi, hrest, hfollow⟩ :=
        (reaches_readItems _ q.rest _ hv.of_append.of_append).1 ⟨m, hm, hr⟩
      refine ⟨.cons a k i, ⟨ha, hi⟩, ?_, hfollow⟩
      rw [hls, hk, hrest, Items.symbols, List.append_assoc, List.append_assoc]
    · rintro ⟨i, hi, h, hr⟩
      cases i with
      | nil =>
        rw [peek_eq_first, h] at hend
        exact absurd hr hend
      | cons a k more =>
        rw [Items.symbols, List.append_assoc, List.append_assoc] at h
        have hv' := hv
        rw [h] at hv'
        obtain ⟨p, hp, hrest⟩ := (reaches_readAtom st ls _ hv).2 ⟨a, hi.1, h⟩
        obtain ⟨q, hq, hrest'⟩ :=
          reaches_readQuantifier (s := s) hrest (more.startsQuantifier_append hr)
        have hlt : q.rest.length < ls.length := p.next_rest_lt q
        obtain ⟨m, hm, hr'⟩ := (reaches_readItems p.value.2 q.rest r
          (by rw [hrest']; exact hv'.of_append.of_append)).2 ⟨more, hi.2, hrest', hr⟩
        refine ⟨p, hp, Reaches.bind_iff.2 ⟨q, hq, ?_⟩⟩
        exact Reaches.bind_iff.2 ⟨m, hm, Reaches.pure_iff.2 hr'⟩
termination_by (ls.length, 1)

theorem reaches_readBranches (st : Numbering) (ls : List Lexeme) (r : List Symbol)
    (hv : VarFree (symbolsOf ls)) : Reaches (s.readBranches st ls) r ↔
      ∃ b : Branches, b.Meant s.env ∧ symbolsOf ls = b.symbols ++ r ∧
        endsItems (first r) = true ∧ first r ≠ .pipe := by
  rw [readBranches, Reaches.bind_iff]
  constructor
  · rintro ⟨p, hp, h⟩
    obtain ⟨i, hi, hls, hend⟩ := (reaches_readItems st ls _ hv).1 ⟨p, hp, rfl⟩
    split at h
    · next o rest hrest =>
      have hlt : rest.length < ls.length := p.next_lt hrest
      obtain ⟨q, hq, h⟩ := Reaches.bind_iff.1 h
      have hr := Reaches.pure_iff.1 h
      rw [hls, hrest, symbolsOf_cons, List.append_cons] at hv
      obtain ⟨b, hb, h, hfollow⟩ := (reaches_readBranches _ rest _ hv.of_append).1 ⟨q, hq, hr⟩
      refine ⟨.cons i b, ⟨hi, hb⟩, ?_, hfollow⟩
      rw [hls, hrest, symbolsOf_cons, h, Branches.symbols, List.append_assoc, List.cons_append]
    · next hne =>
      cases Reaches.pure_iff.1 h
      exact ⟨.one i, hi, hls, hend, first_symbolsOf_ne nofun hne⟩
  · rintro ⟨b, hb, h, hend, hpipe⟩
    cases b with
    | one i =>
      obtain ⟨p, hp, hr⟩ := (reaches_readItems st ls r hv).2 ⟨i, hb, h, hend⟩
      refine ⟨p, hp, ?_⟩
      split
      · next o rest hrest =>
        rw [← hr, hrest] at hpipe
        exact absurd rfl hpipe
      · exact Reaches.pure_iff.2 hr
    | cons i b =>
      rw [Branches.symbols, List.append_assoc] at h
      have hv' := hv
      rw [h, List.cons_append, List.append_cons] at hv'
      obtain ⟨p, hp, hr⟩ := (reaches_readItems st ls _ hv).2 ⟨i, hb.1, h, rfl⟩
      refine ⟨p, hp, ?_⟩
      obtain ⟨o', rest', hrest', hr'⟩ := exists_of_symbolsOf_eq_cons hr
      split
      · next o rest hrest =>
        have hlt : rest.length < ls.length := p.next_lt hrest
        cases hrest.symm.trans hrest'
        obtain ⟨q, hq, hr⟩ := (reaches_readBranches p.value.2 rest' r
          (by rw [hr']; exact hv'.of_append)).2 ⟨b, hb.2, hr', hend, hpipe⟩
        exact Reaches.bind_iff.2 ⟨q, hq, Reaches.pure_iff.2 hr⟩
      · next hne => exact absurd hrest' (hne o' rest')
termination_by (ls.length, 2)

end

/-! ## Texts -/

theorem expectEnd_eq_ok : s.expectEnd ls = .ok () ↔ first (symbolsOf ls) = .eof := by
  rw [expectEnd, peek_eq_first]
  split
  · next h => exact ⟨fun _ => h, fun _ => rfl⟩
  · next h => exact ⟨nofun, fun he => absurd (h.symm.trans he) nofun⟩
  · next h _ => exact ⟨nofun, fun he => absurd he h⟩

/-- A text is read to its end. -/
def ReadsAll (s : Scope) (st : Numbering) (ls : List Lexeme) : Prop :=
  ∃ p, s.readBranches st ls = .ok p ∧ s.expectEnd p.rest = .ok ()

theorem readsAll_iff {st : Numbering} {syms : List Symbol} (hls : symbolsOf ls = syms ++ [.eof])
    (hvar : VarFree syms) (heof : .eof ∉ syms) :
    s.ReadsAll st ls ↔ ∃ b : Branches, b.Meant s.env ∧ b.symbols = syms := by
  have hv : VarFree (symbolsOf ls) := by
    intro name hname
    rw [hls, List.mem_append, List.mem_singleton] at hname
    exact hname.elim (hvar name) nofun
  constructor
  · rintro ⟨p, hp, hend⟩
    obtain ⟨b, hb, h, -⟩ := (reaches_readBranches st ls _ hv).1 ⟨p, hp, rfl⟩
    rw [hls] at h
    exact ⟨b, hb, Branches.symbols_eq_of_append heof (expectEnd_eq_ok.1 hend) h⟩
  · rintro ⟨b, hb, rfl⟩
    obtain ⟨p, hp, hr⟩ := (reaches_readBranches st ls _ hv).2 ⟨b, hb, hls, rfl, nofun⟩
    exact ⟨p, hp, expectEnd_eq_ok.2 (by rw [hr]; rfl)⟩

/-- **A text is read to its end exactly if the grammar derives it, and then in one way.** -/
theorem readsAll_iff_derivable {s : Scope} {st : Numbering} {ls : List Lexeme} {syms : List Symbol}
    (hls : symbolsOf ls = syms ++ [.eof]) (hvar : VarFree syms) (heof : .eof ∉ syms) :
    (s.ReadsAll st ls ↔ ∃ b : Branches, b.Meant s.env ∧ b.symbols = syms) ∧
      (Derivation.Meant s.env syms → TextsMeant s.env syms →
        (s.ReadsAll st ls ↔ ∃ b : Branches, b.symbols = syms)) ∧
      ∀ b b' : Branches, b.symbols = syms → b'.symbols = syms → b = b' := by
  refine ⟨readsAll_iff hls hvar heof, fun hm ht => ?_, fun b b' hb hb' =>
    Branches.symbols_injective (hb.trans hb'.symm)⟩
  rw [readsAll_iff hls hvar heof]
  constructor
  · rintro ⟨b, -, hb⟩
    exact ⟨b, hb⟩
  · rintro ⟨b, rfl⟩
    exact ⟨b, Branches.meant hm ht, rfl⟩

/-- The symbols of `({}{2,}?)|(?m)/a/ #f` are derived by a tree and read to their end. -/
theorem readsAll_of_group_or_run :
    let s : Scope := { env := { functions := [("f", .any)] }, source := "" }
    let syms : List Symbol := [.lparen, .lbrace, .rbrace, .lbrace, .number "2", .comma, .rbrace,
      .question, .rparen, .pipe, .multiNode, .regex "a", .func "f"]
    let ls : List Lexeme := (syms ++ [Symbol.eof]).map (⟨·, 0⟩)
    symbolsOf ls = syms ++ [.eof] ∧ VarFree syms ∧ .eof ∉ syms ∧ Derivation.Meant s.env syms ∧
      TextsMeant s.env syms ∧ s.ReadsAll {} ls := by
  intro s syms ls
  have hls : symbolsOf ls = syms ++ [.eof] := rfl
  have hvar : VarFree syms := by simp [syms, VarFree]
  have heof : .eof ∉ syms := by simp [syms]
  have hregex : (s.env.regex? "a").isSome = true := by decide +kernel
  have hm : Derivation.Meant s.env syms := by
    simp only [syms, meant_cons, meant_nil, Symbol.Meant, hregex, and_true, true_and]
    rfl
  have ht : TextsMeant s.env syms := by simp [syms, TextsMeant]
  -- a group with a quantified test in it, or a run and a function
  let twice : Count := ⟨"2", 2, by decide⟩
  let group : Branches :=
    .one (.cons (.element (.braces none)) (some ⟨.bounds (.atLeast twice), true⟩) .nil)
  let run : Items :=
    .cons (.run none false (.regex "a")) none (.cons (.element (.leaf (.func "f"))) none .nil)
  let b : Branches := .cons (.cons (.group group) none .nil) (.one run)
  exact ⟨hls, hvar, heof, hm, ht, ((readsAll_iff_derivable hls hvar heof).2.1 hm ht).2 ⟨b, rfl⟩⟩

end Scope

end Motif
