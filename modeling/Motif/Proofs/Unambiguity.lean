import Motif.Proofs.Derivation

/-!
# Derivations are determined by their symbols

No list of symbols has two derivations, and more is true: what is derived by a part of the grammar,
and where it ends, is determined by the symbols, if only what may not go on follows. A part is
recognised by its first symbol, a brace by the symbol after it.

* `Unary.append_inj`, `Disjunction.append_inj`, `ElementTest.append_inj`: tests of elements.
* `repetition_append_inj`: quantifiers.
* `Atom.append_inj`, `Items.append_inj`, `Branches.append_inj`: expressions.
* **`Branches.symbols_injective`**: the grammar is unambiguous.
* `ElementTest.plain`, `repetition_plain`, `run_plain`: symbols that tests, quantifiers and runs do
  not have.
-/

namespace Motif

namespace Symbol

/-- A leaf starts so, and is at its end. -/
def isLeaf : Symbol → Bool
  | str _ | regex _ | func _ => true
  | _ => false

/-- The parts of a conjunction start so. -/
def startsUnary : Symbol → Bool
  | bang | lparen | ident _ => true
  | x => x.isLeaf

/-- Element tests start so. -/
def startsElement : Symbol → Bool
  | lbracket | lbrace | bang => true
  | x => x.isLeaf

/-- Quantifiers start so. -/
def startsQuantifier : List Symbol → Bool
  | star :: _ | plus :: _ | question :: _ | lbrace :: number _ :: _ => true
  | _ => false

/-- Symbols that stand for themselves: reading neither stops at them, nor starts an atom that may be
exchanged. -/
def isPlain : Symbol → Bool
  | eof | arrow | var _ | nonCapture => false
  | _ => true

end Symbol

theorem Presence.keyword_inj {p p' : Presence} (h : p.keyword = p'.keyword) : p = p' := by
  cases p <;> cases p' <;> first | rfl | exact absurd h (by decide)

namespace Derivation

/-! ## First symbols -/

theorem Term.exists_first (t : Term) :
    ∃ x xs, t.symbols = x :: xs ∧ x.startsUnary = true ∧ x ≠ .bang ∧ x ≠ .lparen := by
  rcases t with _ | _ | _ | (_ | _ | _) <;>
    exact ⟨_, _, rfl, rfl, nofun, nofun⟩

theorem Term.append_ne_cons (t : Term) {x : Symbol} {xs r : List Symbol}
    (hx : x = .bang ∨ x = .lparen) : t.symbols ++ r ≠ x :: xs := by
  obtain ⟨y, ys, ht, -, hb, hp⟩ := t.exists_first
  rw [ht, List.cons_append]
  intro h
  rcases hx with rfl | rfl
  · exact hb (List.cons.inj h).1
  · exact hp (List.cons.inj h).1

theorem Unary.exists_first (u : Unary) :
    ∃ x xs, u.symbols = x :: xs ∧ x.startsUnary = true := by
  cases u with
  | term t =>
    obtain ⟨x, xs, h, hx, -⟩ := t.exists_first
    exact ⟨x, xs, by rw [symbols, h], hx⟩
  | negation u => exact ⟨_, _, by rw [symbols], rfl⟩
  | parens d => exact ⟨_, _, by rw [symbols], rfl⟩

theorem Conjunction.exists_first (c : Conjunction) :
    ∃ x xs, c.symbols = x :: xs ∧ x.startsUnary = true := by
  rcases c with u | ⟨u, c⟩ <;> obtain ⟨x, xs, h, hx⟩ := u.exists_first
  · exact ⟨x, xs, by rw [symbols, h], hx⟩
  · exact ⟨x, xs ++ .amp :: c.symbols, by rw [symbols, h, List.cons_append], hx⟩

theorem Disjunction.exists_first (d : Disjunction) :
    ∃ x xs, d.symbols = x :: xs ∧ x.startsUnary = true := by
  rcases d with c | ⟨c, d⟩ <;> obtain ⟨x, xs, h, hx⟩ := c.exists_first
  · exact ⟨x, xs, by rw [symbols, h], hx⟩
  · exact ⟨x, xs ++ .pipe :: d.symbols, by rw [symbols, h, List.cons_append], hx⟩

theorem ElementTest.exists_first (e : ElementTest) :
    ∃ x xs, e.symbols = x :: xs ∧ x.startsElement = true := by
  rcases e with _ | _ | _ | (_ | _ | _) <;> exact ⟨_, _, rfl, rfl⟩

/-! ## ElementTest tests are unambiguous -/

theorem Leaf.symbol_inj {l l' : Leaf} (h : l.symbol = l'.symbol) : l = l' := by
  cases l <;> cases l' <;> cases h <;> rfl

theorem Comparand.symbol_inj {c c' : Comparand} (h : c.symbol = c'.symbol) : c = c' := by
  cases c <;> cases c' <;> cases h <;> rfl

theorem Term.append_inj {t t' : Term} {r r' : List Symbol}
    (h : t.symbols ++ r = t'.symbols ++ r') : t = t' ∧ r = r' := by
  cases t <;> cases t' <;>
    simp only [symbols, List.cons_append, List.nil_append, List.cons.injEq, Symbol.ident.injEq,
      Symbol.rel.injEq, Symbol.number.injEq, reduceCtorEq, true_and, false_and, and_false] at h
  case value.value =>
    obtain ⟨rfl, hc, rfl⟩ := h
    exact ⟨by rw [Comparand.symbol_inj hc], rfl⟩
  case presence.presence =>
    obtain ⟨rfl, hp, rfl⟩ := h
    exact ⟨by rw [Presence.keyword_inj hp], rfl⟩
  case compare.compare =>
    obtain ⟨rfl, rfl, rfl, rfl⟩ := h
    exact ⟨rfl, rfl⟩
  case leaf.leaf =>
    obtain ⟨hl, rfl⟩ := h
    exact ⟨by rw [Leaf.symbol_inj hl], rfl⟩
  all_goals exact absurd h.1 (by cases ‹Leaf› <;> nofun)

/-- The first symbol of a list; at its end the text ends. -/
def first (r : List Symbol) : Symbol := r.headD .eof

mutual

theorem Unary.append_inj {u u' : Unary} {r r' : List Symbol}
    (h : u.symbols ++ r = u'.symbols ++ r') : u = u' ∧ r = r' := by
  match u, u' with
  | .term t, .term t' =>
    obtain ⟨rfl, rfl⟩ := Term.append_inj h
    exact ⟨rfl, rfl⟩
  | .negation u, .negation u' =>
    obtain ⟨rfl, rfl⟩ := u.append_inj (List.cons.inj h).2
    exact ⟨rfl, rfl⟩
  | .parens d, .parens d' =>
    simp only [Unary.symbols, List.cons_append, List.append_assoc, List.cons.injEq, true_and,
      List.nil_append] at h
    obtain ⟨rfl, hr⟩ := d.append_inj h nofun nofun nofun nofun
    exact ⟨rfl, (List.cons.inj hr).2⟩
  | .term t, .negation _ => exact absurd h (t.append_ne_cons (.inl rfl))
  | .term t, .parens _ => exact absurd h (t.append_ne_cons (.inr rfl))
  | .negation _, .term t => exact absurd h.symm (t.append_ne_cons (.inl rfl))
  | .parens _, .term t => exact absurd h.symm (t.append_ne_cons (.inr rfl))
  | .negation _, .parens _ | .parens _, .negation _ => exact absurd (List.cons.inj h).1 nofun

theorem Conjunction.append_inj {c c' : Conjunction} {r r' : List Symbol}
    (h : c.symbols ++ r = c'.symbols ++ r') (hr : first r ≠ .amp) (hr' : first r' ≠ .amp) :
    c = c' ∧ r = r' := by
  match c, c' with
  | .one u, .one u' =>
    obtain ⟨rfl, rfl⟩ := u.append_inj h
    exact ⟨rfl, rfl⟩
  | .one u, .cons u' c' =>
    simp only [Conjunction.symbols, List.append_assoc] at h
    obtain ⟨rfl, rfl⟩ := u.append_inj h
    exact absurd rfl hr
  | .cons u c, .one u' =>
    simp only [Conjunction.symbols, List.append_assoc] at h
    obtain ⟨rfl, rfl⟩ := u.append_inj h
    exact absurd rfl hr'
  | .cons u c, .cons u' c' =>
    simp only [Conjunction.symbols, List.append_assoc] at h
    obtain ⟨rfl, h'⟩ := u.append_inj h
    obtain ⟨rfl, rfl⟩ := c.append_inj (List.cons.inj h').2 hr hr'
    exact ⟨rfl, rfl⟩

theorem Disjunction.append_inj {d d' : Disjunction} {r r' : List Symbol}
    (h : d.symbols ++ r = d'.symbols ++ r') (hr : first r ≠ .amp) (hp : first r ≠ .pipe)
    (hr' : first r' ≠ .amp) (hp' : first r' ≠ .pipe) : d = d' ∧ r = r' := by
  match d, d' with
  | .one c, .one c' =>
    obtain ⟨rfl, rfl⟩ := c.append_inj h hr hr'
    exact ⟨rfl, rfl⟩
  | .one c, .cons c' d' =>
    simp only [Disjunction.symbols, List.append_assoc] at h
    obtain ⟨rfl, rfl⟩ := c.append_inj h hr nofun
    exact absurd rfl hp
  | .cons c d, .one c' =>
    simp only [Disjunction.symbols, List.append_assoc] at h
    obtain ⟨rfl, rfl⟩ := c.append_inj h nofun hr'
    exact absurd rfl hp'
  | .cons c d, .cons c' d' =>
    simp only [Disjunction.symbols, List.append_assoc] at h
    obtain ⟨rfl, h'⟩ := c.append_inj h nofun nofun
    obtain ⟨rfl, rfl⟩ := d.append_inj (List.cons.inj h').2 hr hp hr' hp'
    exact ⟨rfl, rfl⟩

end

theorem content_append_inj {d d' : Option Disjunction} {close : Symbol} {r r' : List Symbol}
    (hc : close = .rbracket ∨ close = .rbrace)
    (h : contentSymbols d ++ close :: r = contentSymbols d' ++ close :: r') :
    d = d' ∧ r = r' := by
  have hclose : close ≠ .amp ∧ close ≠ .pipe ∧ close.startsUnary = false := by
    rcases hc with rfl | rfl <;> exact ⟨nofun, nofun, rfl⟩
  obtain ⟨hamp, hpipe, hstart⟩ := hclose
  have hne (d : Disjunction) (xs ys : List Symbol) : d.symbols ++ xs ≠ close :: ys := by
    obtain ⟨x, xs, hd, hx⟩ := d.exists_first
    rw [hd, List.cons_append]
    intro h
    rw [(List.cons.inj h).1, hstart] at hx
    cases hx
  match d, d' with
  | none, none => exact ⟨rfl, (List.cons.inj h).2⟩
  | some d, none => exact absurd h (hne d _ _)
  | none, some d' => exact absurd h.symm (hne d' _ _)
  | some d, some d' =>
    obtain ⟨rfl, h'⟩ := d.append_inj h hamp hpipe hamp hpipe
    exact ⟨rfl, (List.cons.inj h').2⟩

theorem ElementTest.append_inj {e e' : ElementTest} {r r' : List Symbol}
    (h : e.symbols ++ r = e'.symbols ++ r') : e = e' ∧ r = r' := by
  match e, e' with
  | .brackets d, .brackets d' =>
    simp only [symbols, List.cons_append, List.append_assoc, List.cons.injEq, true_and,
      List.nil_append] at h
    obtain ⟨rfl, rfl⟩ := content_append_inj (.inl rfl) h
    exact ⟨rfl, rfl⟩
  | .braces d, .braces d' =>
    simp only [symbols, List.cons_append, List.append_assoc, List.cons.injEq, true_and,
      List.nil_append] at h
    obtain ⟨rfl, rfl⟩ := content_append_inj (.inr rfl) h
    exact ⟨rfl, rfl⟩
  | .negation e, .negation e' =>
    obtain ⟨rfl, rfl⟩ := e.append_inj (List.cons.inj h).2
    exact ⟨rfl, rfl⟩
  | .leaf l, .leaf l' =>
    obtain ⟨hl, hr⟩ := List.cons.inj h
    exact ⟨by rw [Leaf.symbol_inj hl], hr⟩
  | .brackets _, .braces _ | .brackets _, .negation _ | .braces _, .brackets _
  | .braces _, .negation _ | .negation _, .brackets _ | .negation _, .braces _ =>
    exact absurd (List.cons.inj h).1 nofun
  | .leaf l, .brackets _ | .leaf l, .braces _ | .leaf l, .negation _ | .brackets _, .leaf l
  | .braces _, .leaf l | .negation _, .leaf l =>
    exact absurd (List.cons.inj h).1 (by cases l <;> nofun)

theorem ElementTest.append_ne_cons (e : ElementTest) {x : Symbol} {xs r : List Symbol}
    (hx : x.startsElement = false) : e.symbols ++ r ≠ x :: xs := by
  obtain ⟨y, ys, he, hy⟩ := e.exists_first
  rw [he, List.cons_append]
  intro h
  rw [(List.cons.inj h).1, hx] at hy
  cases hy

/-! ## Quantifiers are unambiguous -/

theorem Count.symbol_inj {n m : Count} (h : n.symbol = m.symbol) : n = m := by
  obtain ⟨digits, k, hk⟩ := n
  obtain ⟨digits', l, hl⟩ := m
  cases h
  cases hk.symm.trans hl
  rfl

theorem Bounds.append_inj {b b' : Bounds} {r r' : List Symbol}
    (h : b.symbols ++ r = b'.symbols ++ r') : b = b' ∧ r = r' := by
  cases b <;> cases b' <;>
    simp only [symbols, List.cons_append, List.nil_append, List.cons.injEq, reduceCtorEq, true_and,
      false_and, and_false] at h
  case exactly.exactly =>
    obtain ⟨hn, rfl⟩ := h
    exact ⟨by rw [Count.symbol_inj hn], rfl⟩
  case atLeast.atLeast =>
    obtain ⟨hn, rfl⟩ := h
    exact ⟨by rw [Count.symbol_inj hn], rfl⟩
  case atLeast.between => exact absurd h.2.1 nofun
  case between.atLeast => exact absurd h.2.1 nofun
  case between.between =>
    obtain ⟨hn, hm, rfl⟩ := h
    cases Count.symbol_inj hn
    cases Count.symbol_inj hm
    exact ⟨rfl, rfl⟩

theorem Times.append_inj {k k' : Times} {r r' : List Symbol}
    (h : k.symbols ++ r = k'.symbols ++ r') : k = k' ∧ r = r' := by
  match k, k' with
  | .star, .star | .plus, .plus | .question, .question => exact ⟨rfl, (List.cons.inj h).2⟩
  | .bounds b, .bounds b' =>
    obtain ⟨rfl, rfl⟩ := b.append_inj h
    exact ⟨rfl, rfl⟩
  | .star, .plus | .star, .question | .plus, .star | .plus, .question | .question, .star
  | .question, .plus => exact absurd (List.cons.inj h).1 nofun
  | .bounds b, .star | .bounds b, .plus | .bounds b, .question | .star, .bounds b
  | .plus, .bounds b | .question, .bounds b =>
    cases b <;> exact absurd (List.cons.inj h).1 nofun

theorem Times.startsQuantifier_append (k : Times) (r : List Symbol) :
    Symbol.startsQuantifier (k.symbols ++ r) = true := by
  rcases k with _ | _ | _ | (_ | _ | _) <;> rfl

theorem greed_append_inj {l l' : Bool} {r r' : List Symbol}
    (h : greedSymbols l ++ r = greedSymbols l' ++ r') (hr : first r ≠ .question)
    (hr' : first r' ≠ .question) : l = l' ∧ r = r' := by
  match l, l' with
  | true, true => exact ⟨rfl, (List.cons.inj h).2⟩
  | false, false => exact ⟨rfl, h⟩
  | true, false => exact absurd (congrArg first h).symm hr'
  | false, true => exact absurd (congrArg first h) hr

theorem first_ne_question {r : List Symbol} (hr : Symbol.startsQuantifier r = false) :
    first r ≠ .question := by
  rcases r with _ | ⟨x, r⟩
  · nofun
  · rintro rfl
    cases hr

theorem repetition_append_inj {q q' : Option Repetition} {r r' : List Symbol}
    (h : repetitionSymbols q ++ r = repetitionSymbols q' ++ r')
    (hr : Symbol.startsQuantifier r = false) (hr' : Symbol.startsQuantifier r' = false) :
    q = q' ∧ r = r' := by
  match q, q' with
  | none, none => exact ⟨rfl, h⟩
  | some ⟨k, l⟩, none =>
    simp only [repetitionSymbols, List.append_assoc, List.nil_append] at h
    rw [← h, k.startsQuantifier_append] at hr'
    cases hr'
  | none, some ⟨k, l⟩ =>
    simp only [repetitionSymbols, List.append_assoc, List.nil_append] at h
    rw [h, k.startsQuantifier_append] at hr
    cases hr
  | some ⟨k, l⟩, some ⟨k', l'⟩ =>
    simp only [repetitionSymbols, List.append_assoc] at h
    obtain ⟨rfl, h'⟩ := k.append_inj h
    obtain ⟨rfl, rfl⟩ := greed_append_inj h' (first_ne_question hr) (first_ne_question hr')
    exact ⟨rfl, rfl⟩

/-! ## Expressions are unambiguous -/

theorem content_first (d : Option Disjunction) (r : List Symbol) :
    Symbol.startsQuantifier (.lbrace :: (contentSymbols d ++ .rbrace :: r)) = false := by
  cases d with
  | none => rfl
  | some d =>
    obtain ⟨x, xs, hd, hx⟩ := d.exists_first
    rw [contentSymbols, hd, List.cons_append]
    cases x <;> first | rfl | cases hx

theorem ElementTest.startsQuantifier_append (e : ElementTest) (r : List Symbol) :
    Symbol.startsQuantifier (e.symbols ++ r) = false := by
  cases e with
  | braces d =>
    rw [symbols, List.cons_append, List.append_assoc]
    exact content_first d r
  | brackets d => rfl
  | negation e => rfl
  | leaf l => cases l <;> rfl

theorem Atom.startsQuantifier_append (a : Atom) (r : List Symbol) :
    Symbol.startsQuantifier (a.symbols ++ r) = false := by
  cases a with
  | element e => exact e.startsQuantifier_append r
  | _ => rfl

theorem ElementTest.endsItems_first (e : ElementTest) (r : List Symbol) :
    Scope.endsItems (first (e.symbols ++ r)) = false := by
  rcases e with _ | _ | _ | (_ | _ | _) <;> rfl

theorem Atom.endsItems_first (a : Atom) (r : List Symbol) :
    Scope.endsItems (first (a.symbols ++ r)) = false := by
  cases a with
  | element e => exact e.endsItems_first r
  | _ => rfl

theorem startsQuantifier_of_endsItems {r : List Symbol} (hr : Scope.endsItems (first r) = true) :
    Symbol.startsQuantifier r = false := by
  rcases r with _ | ⟨x, r⟩
  · rfl
  · cases x <;> first | rfl | cases hr

theorem Items.startsQuantifier_append (i : Items) {r : List Symbol}
    (hr : Scope.endsItems (first r) = true) :
    Symbol.startsQuantifier (i.symbols ++ r) = false := by
  cases i with
  | nil => exact startsQuantifier_of_endsItems hr
  | cons a q more =>
    rw [symbols, List.append_assoc]
    exact a.startsQuantifier_append _

theorem RunText.symbol_inj {t t' : RunText} (h : t.symbol = t'.symbol) : t = t' := by
  cases t <;> cases t' <;> cases h <;> rfl

theorem bounds_append_inj {b b' : Option Bounds} {r r' : List Symbol}
    (h : boundsSymbols b ++ r = boundsSymbols b' ++ r') (hr : first r ≠ .lbrace)
    (hr' : first r' ≠ .lbrace) : b = b' ∧ r = r' := by
  match b, b' with
  | none, none => exact ⟨rfl, h⟩
  | some b, some b' =>
    obtain ⟨rfl, rfl⟩ := b.append_inj h
    exact ⟨rfl, rfl⟩
  | some b, none => exact absurd (congrArg first h).symm (by cases b <;> exact hr')
  | none, some b => exact absurd (congrArg first h) (by cases b <;> exact hr)

theorem run_append_inj {b b' : Option Bounds} {l l' : Bool} {t t' : RunText} {r r' : List Symbol}
    (h : boundsSymbols b ++ (greedSymbols l ++ t.symbol :: r) =
      boundsSymbols b' ++ (greedSymbols l' ++ t'.symbol :: r')) :
    b = b' ∧ l = l' ∧ t = t' ∧ r = r' := by
  have hbrace (l : Bool) (t : RunText) (r : List Symbol) :
      first (greedSymbols l ++ t.symbol :: r) ≠ .lbrace := by
    cases l <;> cases t <;> nofun
  have hquestion (t : RunText) (r : List Symbol) : first (t.symbol :: r) ≠ .question := by
    cases t <;> nofun
  obtain ⟨rfl, h₁⟩ := bounds_append_inj h (hbrace l t r) (hbrace l' t' r')
  obtain ⟨rfl, h₂⟩ := greed_append_inj h₁ (hquestion t r) (hquestion t' r')
  obtain ⟨ht, hr⟩ := List.cons.inj h₂
  exact ⟨rfl, rfl, RunText.symbol_inj ht, hr⟩

mutual

theorem Atom.append_inj {a a' : Atom} {r r' : List Symbol}
    (h : a.symbols ++ r = a'.symbols ++ r') : a = a' ∧ r = r' := by
  match a with
  | .element e =>
    cases a' with
    | element e' =>
      obtain ⟨rfl, rfl⟩ := e.append_inj h
      exact ⟨rfl, rfl⟩
    | _ => exact absurd h (e.append_ne_cons (by rfl))
  | .group b =>
    cases a' with
    | group b' =>
      simp only [Atom.symbols, List.cons_append, List.append_assoc, List.cons.injEq, true_and,
        List.nil_append] at h
      obtain ⟨rfl, h'⟩ := b.append_inj h rfl nofun rfl nofun
      exact ⟨rfl, (List.cons.inj h').2⟩
    | element e' => exact absurd h.symm (e'.append_ne_cons (by rfl))
    | _ => exact absurd (List.cons.inj h).1 nofun
  | .nonCapture b =>
    cases a' with
    | nonCapture b' =>
      simp only [Atom.symbols, List.cons_append, List.append_assoc, List.cons.injEq, true_and,
        List.nil_append] at h
      obtain ⟨rfl, h'⟩ := b.append_inj h rfl nofun rfl nofun
      exact ⟨rfl, (List.cons.inj h').2⟩
    | element e' => exact absurd h.symm (e'.append_ne_cons (by rfl))
    | _ => exact absurd (List.cons.inj h).1 nofun
  | .named name b =>
    cases a' with
    | named name' b' =>
      simp only [Atom.symbols, List.cons_append, List.append_assoc, List.cons.injEq,
        Symbol.namedGroup.injEq, List.nil_append] at h
      obtain ⟨rfl, h'⟩ := h
      obtain ⟨rfl, h''⟩ := b.append_inj h' rfl nofun rfl nofun
      exact ⟨rfl, (List.cons.inj h'').2⟩
    | element e' => exact absurd h.symm (e'.append_ne_cons (by rfl))
    | _ => exact absurd (List.cons.inj h).1 nofun
  | .run b l t =>
    cases a' with
    | run b' l' t' =>
      simp only [Atom.symbols, List.cons_append, List.append_assoc, List.cons.injEq, true_and,
        List.nil_append] at h
      obtain ⟨rfl, rfl, rfl, rfl⟩ := run_append_inj h
      exact ⟨rfl, rfl⟩
    | element e' => exact absurd h.symm (e'.append_ne_cons (by rfl))
    | _ => exact absurd (List.cons.inj h).1 nofun
  | .backref id =>
    cases a' with
    | backref id' =>
      cases h
      exact ⟨rfl, rfl⟩
    | element e' => exact absurd h.symm (e'.append_ne_cons (by rfl))
    | _ => exact absurd (List.cons.inj h).1 nofun
  | .caret =>
    cases a' with
    | caret => exact ⟨rfl, (List.cons.inj h).2⟩
    | element e' => exact absurd h.symm (e'.append_ne_cons (by rfl))
    | _ => exact absurd (List.cons.inj h).1 nofun
  | .dollar =>
    cases a' with
    | dollar => exact ⟨rfl, (List.cons.inj h).2⟩
    | element e' => exact absurd h.symm (e'.append_ne_cons (by rfl))
    | _ => exact absurd (List.cons.inj h).1 nofun

theorem Items.append_inj {i i' : Items} {r r' : List Symbol}
    (h : i.symbols ++ r = i'.symbols ++ r') (hr : Scope.endsItems (first r) = true)
    (hr' : Scope.endsItems (first r') = true) : i = i' ∧ r = r' := by
  match i, i' with
  | .nil, .nil => exact ⟨rfl, h⟩
  | .cons a q more, .nil =>
    simp only [Items.symbols, List.append_assoc, List.nil_append] at h
    rw [← h, a.endsItems_first] at hr'
    cases hr'
  | .nil, .cons a q more =>
    simp only [Items.symbols, List.append_assoc, List.nil_append] at h
    rw [h, a.endsItems_first] at hr
    cases hr
  | .cons a q more, .cons a' q' more' =>
    simp only [Items.symbols, List.append_assoc] at h
    obtain ⟨rfl, h₁⟩ := a.append_inj h
    obtain ⟨rfl, h₂⟩ := repetition_append_inj h₁ (more.startsQuantifier_append hr)
      (more'.startsQuantifier_append hr')
    obtain ⟨rfl, rfl⟩ := more.append_inj h₂ hr hr'
    exact ⟨rfl, rfl⟩

theorem Branches.append_inj {b b' : Branches} {r r' : List Symbol}
    (h : b.symbols ++ r = b'.symbols ++ r') (hr : Scope.endsItems (first r) = true)
    (hp : first r ≠ .pipe) (hr' : Scope.endsItems (first r') = true) (hp' : first r' ≠ .pipe) :
    b = b' ∧ r = r' := by
  match b, b' with
  | .one i, .one i' =>
    obtain ⟨rfl, rfl⟩ := i.append_inj h hr hr'
    exact ⟨rfl, rfl⟩
  | .one i, .cons i' b' =>
    simp only [Branches.symbols, List.append_assoc] at h
    obtain ⟨rfl, rfl⟩ := i.append_inj h hr rfl
    exact absurd rfl hp
  | .cons i b, .one i' =>
    simp only [Branches.symbols, List.append_assoc] at h
    obtain ⟨rfl, rfl⟩ := i.append_inj h rfl hr'
    exact absurd rfl hp'
  | .cons i b, .cons i' b' =>
    simp only [Branches.symbols, List.append_assoc] at h
    obtain ⟨rfl, h'⟩ := i.append_inj h rfl rfl
    obtain ⟨rfl, rfl⟩ := b.append_inj (List.cons.inj h').2 hr hp hr' hp'
    exact ⟨rfl, rfl⟩

end

/-- **The grammar is unambiguous**: no list of symbols has two derivations. -/
theorem Branches.symbols_injective {b b' : Branches} (h : b.symbols = b'.symbols) : b = b' := by
  have happend : b.symbols ++ [] = b'.symbols ++ [] := by rw [h]
  exact (Branches.append_inj happend rfl nofun rfl nofun).1

/-! ## Symbols that are not derived -/

/-- All symbols stand for themselves. -/
def Plain (xs : List Symbol) : Prop := ∀ x ∈ xs, x.isPlain = true

@[simp] theorem plain_nil : Plain [] := nofun

@[simp] theorem plain_cons {x : Symbol} {xs : List Symbol} :
    Plain (x :: xs) ↔ x.isPlain = true ∧ Plain xs := List.forall_mem_cons

@[simp] theorem plain_append {xs ys : List Symbol} :
    Plain (xs ++ ys) ↔ Plain xs ∧ Plain ys := List.forall_mem_append

theorem Plain.eof_notMem {xs : List Symbol} (h : Plain xs) : .eof ∉ xs := fun hx => nomatch h _ hx

theorem Term.plain (t : Term) : Plain t.symbols := by
  rcases t with ⟨_, _ | _ | _ | _⟩ | _ | _ | (_ | _ | _) <;>
    simp [symbols, Comparand.symbol, Leaf.symbol, Symbol.isPlain]

mutual

theorem Unary.plain (u : Unary) : Plain u.symbols := by
  match u with
  | .term t => exact t.plain
  | .negation u => simp [Unary.symbols, u.plain, Symbol.isPlain]
  | .parens d => simp [Unary.symbols, d.plain, Symbol.isPlain]

theorem Conjunction.plain (c : Conjunction) : Plain c.symbols := by
  match c with
  | .one u => exact u.plain
  | .cons u c => simp [Conjunction.symbols, u.plain, c.plain, Symbol.isPlain]

theorem Disjunction.plain (d : Disjunction) : Plain d.symbols := by
  match d with
  | .one c => exact c.plain
  | .cons c d => simp [Disjunction.symbols, c.plain, d.plain, Symbol.isPlain]

end

theorem content_plain (d : Option Disjunction) : Plain (contentSymbols d) := by
  cases d with
  | none => simp [contentSymbols]
  | some d => exact d.plain

theorem ElementTest.plain (e : ElementTest) : Plain e.symbols := by
  match e with
  | .brackets d | .braces d => simp [symbols, content_plain d, Symbol.isPlain]
  | .negation e => simp [symbols, e.plain, Symbol.isPlain]
  | .leaf l => cases l <;> simp [symbols, Leaf.symbol, Symbol.isPlain]

theorem Bounds.plain (b : Bounds) : Plain b.symbols := by
  cases b <;> simp [symbols, Count.symbol, Symbol.isPlain]

theorem bounds_plain (b : Option Bounds) : Plain (boundsSymbols b) := by
  cases b with
  | none => simp [boundsSymbols]
  | some b => exact b.plain

theorem greed_plain (l : Bool) : Plain (greedSymbols l) := by
  cases l <;> simp [greedSymbols, Symbol.isPlain]

theorem repetition_plain (q : Option Repetition) : Plain (repetitionSymbols q) := by
  rcases q with _ | ⟨_ | _ | _ | b, l⟩ <;>
    simp [repetitionSymbols, Times.symbols, greed_plain, Bounds.plain, Symbol.isPlain]

theorem run_plain (b : Option Bounds) (l : Bool) (t : RunText) :
    Plain (boundsSymbols b ++ (greedSymbols l ++ [t.symbol])) := by
  cases t <;> simp [bounds_plain, greed_plain, RunText.symbol, Symbol.isPlain]

mutual

theorem Atom.eof_notMem (a : Atom) : .eof ∉ a.symbols := by
  match a with
  | .element e => exact e.plain.eof_notMem
  | .group b | .nonCapture b | .named _ b => simp [Atom.symbols, b.eof_notMem]
  | .run b l t => exact List.not_mem_cons_of_ne_of_not_mem nofun (run_plain b l t).eof_notMem
  | .backref _ | .caret | .dollar => simp [Atom.symbols]

theorem Items.eof_notMem (i : Items) : .eof ∉ i.symbols := by
  match i with
  | .nil => simp [Items.symbols]
  | .cons a q more =>
    simp [Items.symbols, a.eof_notMem, (repetition_plain q).eof_notMem, more.eof_notMem]

theorem Branches.eof_notMem (b : Branches) : .eof ∉ b.symbols := by
  match b with
  | .one i => exact i.eof_notMem
  | .cons i b => simp [Branches.symbols, i.eof_notMem, b.eof_notMem]

end

theorem Branches.symbols_eq_of_append {b : Branches} {syms r : List Symbol} (hs : .eof ∉ syms)
    (hr : first r = .eof) (h : syms ++ [.eof] = b.symbols ++ r) : b.symbols = syms := by
  rcases List.append_eq_append_iff.1 h with ⟨xs, hb, hxs⟩ | ⟨xs, hsyms, hxs⟩
  · cases xs with
    | nil => rw [hb, List.append_nil]
    | cons x xs =>
      refine absurd ?_ b.eof_notMem
      rw [hb, (List.cons.inj hxs).1]
      simp
  · cases xs with
    | nil => rw [hsyms, List.append_nil]
    | cons x xs =>
      refine absurd ?_ hs
      rw [hxs] at hr
      rw [hsyms, ← show x = .eof from hr]
      simp

end Derivation

end Motif
