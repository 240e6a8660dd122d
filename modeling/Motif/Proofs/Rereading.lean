import Motif.Proofs.Acceptance

/-!
# Reading other lexemes

Two lists of lexemes have the same symbols up to where reading ends, but for atoms that one of them
has in place of those of the other. What is read of the second list follows what is read of the
first: element tests, quantifiers and runs are the same, and what is left of both is alike again.
Offsets only matter to errors.

* `Keeps`: a computation succeeds where another one does, with a related result.
* `AlikeUpTo`: lists with the same symbols, but for some atoms.
* `Parsed.Agree`: values and rests of two readers are related.
* `Scope.keeps_readElement`, `Scope.keeps_readQuantifier`, `Scope.keeps_readMulti`: readers on alike
  lists.
-/

namespace Motif

/-! ## Computations that follow others -/

/-- Unless `E` holds, the second computation succeeds where the first one does, with a related
result. -/
def Keeps {α β : Type} (E : Prop) (R : α → β → Prop) (x : Except CompileError α)
    (y : Except CompileError β) : Prop :=
  ∀ a, x = .ok a → E ∨ ∃ b, y = .ok b ∧ R a b

namespace Keeps

variable {α β γ δ : Type} {E : Prop} {R : α → β → Prop} {S : γ → δ → Prop}
  {x : Except CompileError α} {y : Except CompileError β}

theorem ok {a : α} {b : β} (h : R a b) : Keeps E R (.ok a) (.ok b) := fun _ ha => by
  cases ha
  exact .inr ⟨b, rfl, h⟩

theorem error {e : CompileError} : Keeps E R (.error e) y := nofun

theorem bind {f : α → Except CompileError γ} {g : β → Except CompileError δ} (h : Keeps E R x y)
    (hf : ∀ a b, R a b → Keeps E S (f a) (g b)) : Keeps E S (x >>= f) (y >>= g) := by
  intro c hc
  obtain ⟨a, ha, hc⟩ := exists_of_bind_eq_ok hc
  obtain he | ⟨b, rfl, hab⟩ := h a ha
  · exact .inl he
  · exact hf a b hab c hc

theorem map {f : α → γ} {g : β → δ} (h : Keeps E R x y) (hf : ∀ a b, R a b → S (f a) (g b)) :
    Keeps E S (x.map f) (y.map g) := by
  cases x with
  | error e => exact .error
  | ok a =>
    intro c hc
    cases hc
    obtain he | ⟨b, rfl, hab⟩ := h a rfl
    · exact .inl he
    · exact .inr ⟨g b, rfl, hf a b hab⟩

end Keeps

theorem ite_bind_eq {ε α β γ : Type} {c : Prop} [Decidable c] (x : Except ε α) (w : α → β) (y : β)
    (f : β → Except ε γ) : (if c then do f (← pure (w (← x))) else do f (← pure y)) =
      (if c then do pure (w (← x)) else pure y) >>= f := by
  split
  · cases x <;> rfl
  · rfl

/-! ## Lexemes -/

/-- What a variable or a group that does not capture starts with. -/
def opensAtom : List Lexeme → Prop
  | ⟨.var _, _⟩ :: _ | ⟨.nonCapture, _⟩ :: _ => True
  | _ => False

/-- Lexemes at which reading stops. On the right this may be the end of a group. -/
structure Ends (e e' : List Lexeme) : Prop where
  /-- The text ends on the left, or an action clause begins. -/
  left : peek e = .eof ∨ peek e = .arrow
  /-- The text or a group ends on the right, or an action clause begins. -/
  right : peek e' = .eof ∨ peek e' = .arrow ∨ peek e' = .rparen

/-- The symbols are the same up to an end, but for atoms that may be exchanged. -/
inductive AlikeUpTo (X : List Lexeme → List Lexeme → Prop) (e e' : List Lexeme) :
    List Lexeme → List Lexeme → Prop where
  | stop (he : Ends e e') : AlikeUpTo X e e' e e'
  | next {x : Symbol} (o o' : Nat) {ls ls' : List Lexeme} (heof : x ≠ .eof) (harrow : x ≠ .arrow)
    (h : AlikeUpTo X e e' ls ls') : AlikeUpTo X e e' (⟨x, o⟩ :: ls) (⟨x, o'⟩ :: ls')
  | atom {a a' ls ls' : List Lexeme} (ha : opensAtom a) (ha' : opensAtom a') (hX : X a a')
    (h : AlikeUpTo X e e' ls ls') : AlikeUpTo X e e' (a ++ ls) (a' ++ ls')

/-- Reading never stops at these symbols. -/
def Symbol.isInner (x : Symbol) : Bool := x.isPlain && x != .rparen

theorem Symbol.isPlain_of_isInner {x : Symbol} (h : x.isInner = true) : x.isPlain = true :=
  (Bool.and_eq_true_iff.1 h).1

theorem exists_of_opensAtom {a : List Lexeme} (h : opensAtom a) :
    ∃ l as, a = l :: as ∧ l.symbol.isPlain = false := by
  unfold opensAtom at h
  split at h
  · exact ⟨_, _, rfl, rfl⟩
  · exact ⟨_, _, rfl, rfl⟩
  · exact h.elim

theorem peek_of_opensAtom {a : List Lexeme} (h : opensAtom a) (ls : List Lexeme) :
    (∃ name, peek (a ++ ls) = .var name) ∨ peek (a ++ ls) = .nonCapture := by
  unfold opensAtom at h
  split at h
  · exact .inl ⟨_, rfl⟩
  · exact .inr rfl
  · exact h.elim

namespace AlikeUpTo

variable {X : List Lexeme → List Lexeme → Prop} {e e' ls ls' : List Lexeme} {x : Symbol} {o : Nat}

/-- Behind a plain symbol on the left, which is on the right as well, lists are alike. -/
theorem tail (h : AlikeUpTo X e e' (⟨x, o⟩ :: ls) ls') (hx : x.isPlain = true) :
    ∃ o' rest, ls' = ⟨x, o'⟩ :: rest ∧ AlikeUpTo X e e' ls rest := by
  generalize hl : ⟨x, o⟩ :: ls = l at h
  cases h with
  | stop he =>
    have := he.left
    rw [← hl] at this
    obtain rfl | rfl := this <;> cases hx
  | next o₁ o' _ _ h =>
    cases hl
    exact ⟨o', _, rfl, h⟩
  | atom ha _ _ h =>
    obtain ⟨l, as, rfl, hl'⟩ := exists_of_opensAtom ha
    cases hl
    rw [hx] at hl'
    cases hl'

/-- Behind an inner symbol on the right, which is on the left as well, lists are alike. -/
theorem tail' (h : AlikeUpTo X e e' ls (⟨x, o⟩ :: ls')) (hx : x.isInner = true) :
    ∃ o' rest, ls = ⟨x, o'⟩ :: rest ∧ AlikeUpTo X e e' rest ls' := by
  generalize hl : ⟨x, o⟩ :: ls' = l at h
  cases h with
  | stop he =>
    have := he.right
    rw [← hl] at this
    obtain rfl | rfl | rfl := this <;> cases hx
  | next o' o₁ _ _ h =>
    cases hl
    exact ⟨o', _, rfl, h⟩
  | atom _ ha' _ h =>
    obtain ⟨l, as, rfl, hl'⟩ := exists_of_opensAtom ha'
    cases hl
    rw [Symbol.isPlain_of_isInner hx] at hl'
    cases hl'

theorem endsItems_peek (h : AlikeUpTo X e e' ls ls') :
    Scope.endsItems (peek ls') = Scope.endsItems (peek ls) := by
  cases h with
  | stop he =>
    have hl : Scope.endsItems (peek e) = true := by
      obtain h | h := he.left <;> rw [h] <;> rfl
    have hr : Scope.endsItems (peek e') = true := by
      obtain h | h | h := he.right <;> rw [h] <;> rfl
    rw [hl, hr]
  | next => rfl
  | atom ha ha' _ _ =>
    have hopens {a : List Lexeme} (ha : opensAtom a) (ls : List Lexeme) :
        Scope.endsItems (peek (a ++ ls)) = false := by
      obtain ⟨_, h⟩ | h := peek_of_opensAtom ha ls <;> rw [h] <;> rfl
    rw [hopens ha, hopens ha']

theorem peek_eq_iff (h : AlikeUpTo X e e' ls ls') (hx : x.isInner = true) :
    peek ls' = x ↔ peek ls = x := by
  constructor
  · rintro rfl
    cases ls' with
    | nil => cases hx
    | cons l rest =>
      obtain ⟨o', rest', rfl, -⟩ := h.tail' hx
      rfl
  · rintro rfl
    cases ls with
    | nil => cases hx
    | cons l rest =>
      obtain ⟨o', rest', rfl, -⟩ := h.tail (Symbol.isPlain_of_isInner hx)
      rfl

theorem exists_of_symbolsOf (X : List Lexeme → List Lexeme → Prop) (ls ls' : List Lexeme)
    (h : symbolsOf ls' = symbolsOf ls) :
    ∃ e e', symbolsOf e' = symbolsOf e ∧ AlikeUpTo X e e' ls ls' := by
  match ls with
  | [] =>
    obtain rfl := List.map_eq_nil_iff.1 h
    exact ⟨[], [], rfl, .stop ⟨.inl rfl, .inl rfl⟩⟩
  | ⟨x, o⟩ :: ls =>
    obtain ⟨o', ls', rfl, hrest⟩ := exists_of_symbolsOf_eq_cons h
    by_cases hx : x = .eof ∨ x = .arrow
    · exact ⟨_, _, h, .stop ⟨hx, hx.imp_right .inl⟩⟩
    · obtain ⟨e, e', he, halike⟩ := exists_of_symbolsOf X ls ls' hrest
      rw [not_or] at hx
      exact ⟨e, e', he, .next o o' hx.1 hx.2 halike⟩

theorem append {as as' : List Lexeme} (has : symbolsOf as' = symbolsOf as)
    (hinner : ∀ x ∈ symbolsOf as, x ≠ .eof ∧ x ≠ .arrow) (h : AlikeUpTo X e e' ls ls') :
    AlikeUpTo X e e' (as ++ ls) (as' ++ ls') := by
  induction as generalizing as' with
  | nil =>
    obtain rfl := List.map_eq_nil_iff.1 has
    exact h
  | cons l as ih =>
    obtain ⟨o', as', rfl, hrest⟩ := exists_of_symbolsOf_eq_cons has
    obtain ⟨hl, has⟩ := List.forall_mem_cons.1 hinner
    exact .next l.offset o' hl.1 hl.2 (ih hrest has)

/-- A text that ends, and the same text in front of the end of a group, are alike up to there,
unless an arrow comes before. -/
theorem exists_of_symbolsOf_inner (X : List Lexeme → List Lexeme → Prop) {inner : List Lexeme}
    (hls : symbolsOf ls = symbolsOf inner ++ [.eof]) (heof : ∀ l ∈ inner, l.symbol ≠ .eof)
    (o : Nat) (rest : List Lexeme) :
    ∃ e e', (peek e = .eof → e' = ⟨.rparen, o⟩ :: rest) ∧
      AlikeUpTo X e e' ls (inner ++ ⟨.rparen, o⟩ :: rest) := by
  induction inner generalizing ls with
  | nil =>
    refine ⟨ls, _, fun _ => rfl, .stop ⟨.inl ?_, .inr (.inr rfl)⟩⟩
    rw [peek_eq_first, hls]
    rfl
  | cons l inner ih =>
    obtain ⟨o', ls, rfl, hrest⟩ := exists_of_symbolsOf_eq_cons hls
    obtain ⟨hl, hinner⟩ := List.forall_mem_cons.1 heof
    by_cases harrow : l.symbol = .arrow
    · refine ⟨⟨l.symbol, o'⟩ :: ls, l :: _, fun hend => absurd hend hl, .stop ⟨?_, ?_⟩⟩
      · exact .inr harrow
      · exact .inr (.inl harrow)
    · obtain ⟨e, e', he, halike⟩ := ih hrest hinner
      exact ⟨e, e', he, .next o' l.offset hl harrow halike⟩

theorem eq_of_peek (h : AlikeUpTo X e e' ls ls') (hls : peek ls = .eof ∨ peek ls = .arrow) :
    ls = e ∧ ls' = e' := by
  cases h with
  | stop => exact ⟨rfl, rfl⟩
  | next _ _ heof harrow => exact absurd hls (not_or.2 ⟨heof, harrow⟩)
  | atom ha =>
    obtain ⟨_, h⟩ | h := peek_of_opensAtom ha _ <;> rw [h] at hls <;>
      obtain hls | hls := hls <;> cases hls

end AlikeUpTo

/-- Values and rests of what is read are related. -/
structure Parsed.Agree {α β : Type} {m n : Nat} (A : List Lexeme → List Lexeme → Prop)
    (V : α → β → Prop) (p : Parsed Lexeme α m) (q : Parsed Lexeme β n) : Prop where
  value : V p.value q.value
  rest : A p.rest q.rest

theorem Parsed.Agree.weaken {α β : Type} {m n k l : Nat} {A : List Lexeme → List Lexeme → Prop}
    {V : α → β → Prop} {p : Parsed Lexeme α m} {q : Parsed Lexeme β n} (h : Parsed.Agree A V p q)
    (hm : m ≤ k) (hn : n ≤ l) : Parsed.Agree A V (p.weaken hm) (q.weaken hn) := ⟨h.value, h.rest⟩

namespace Scope

section Elements

open Parsed (Agree)

variable {E : Prop} {X : List Lexeme → List Lexeme → Prop} {e e' ls ls' : List Lexeme}
  {s s' : Scope}

theorem keeps_expect {x : Symbol} {what : String} (hx : x.isPlain = true)
    (h : AlikeUpTo X e e' ls ls') :
    Keeps E (Agree (AlikeUpTo X e e') Eq) (s.expect x what ls) (s'.expect x what ls') := by
  intro p hp
  rw [expect.eq_def] at hp
  split at hp
  · cases hp
  · next l rest =>
    split at hp
    · next hl =>
      cases hp
      subst hl
      obtain ⟨o', rest', rfl, hrest⟩ := h.tail hx
      exact .inr ⟨_, if_pos rfl, rfl, hrest⟩
    · cases hp

theorem keeps_regex (henv : s'.env = s.env) (source : String) (o o' : Nat) :
    Keeps E Eq (s.regex source o) (s'.regex source o') := by
  rw [regex, regex, henv]
  cases s.env.regex? source with
  | none => exact .error
  | some r => exact .ok rfl

theorem keeps_regexTest (henv : s'.env = s.env) (source : String) (o o' : Nat) :
    Keeps E Eq (s.regexTest source o) (s'.regexTest source o') := by
  rw [regexTest, regexTest, henv]
  exact (keeps_regex henv source o o').map fun r r' hr => by rw [hr]

theorem keeps_functionTest (henv : s'.env = s.env) (name : String) (o o' : Nat) :
    Keeps E Eq (s.functionTest name o) (s'.functionTest name o') := by
  rw [functionTest, functionTest, henv]
  cases s.env.function? name with
  | none => exact .error
  | some p => exact .ok rfl

theorem keeps_readAttribute (henv : s'.env = s.env) (name : String)
    (h : AlikeUpTo X e e' ls ls') :
    Keeps E (Agree (AlikeUpTo X e e') Eq) (s.readAttribute name ls)
      (s'.readAttribute name ls') := by
  rw [readAttribute.eq_def]
  dsimp only
  split
  · exact .error
  · obtain ⟨o₁, rest₁, rfl, h₁⟩ := h.tail rfl
    split
    case h_1 | h_2 | h_3 =>
      obtain ⟨o₂, rest₂, rfl, h₂⟩ := h₁.tail rfl
      rw [← henv]
      exact .ok ⟨rfl, h₂⟩
    · obtain ⟨o₂, rest₂, rfl, h₂⟩ := h₁.tail rfl
      rw [← henv]
      refine (keeps_regex henv _ _ _).bind ?_
      rintro r _ rfl
      exact .ok ⟨rfl, h₂⟩
    · exact .error
  · obtain ⟨o₁, rest₁, rfl, h₁⟩ := h.tail rfl
    split
    · obtain ⟨o₂, rest₂, rfl, h₂⟩ := h₁.tail rfl
      split
      · next htest =>
        rw [← henv]
        simp only [readAttribute, htest]
        exact .ok ⟨rfl, h₂⟩
      · exact .error
    · exact .error
  · obtain ⟨o₁, rest₁, rfl, h₁⟩ := h.tail rfl
    split
    · obtain ⟨o₂, rest₂, rfl, h₂⟩ := h₁.tail rfl
      rw [← henv]
      exact .ok ⟨rfl, h₂⟩
    · exact .error
  · exact .error

theorem keeps_readTerm (henv : s'.env = s.env) (h : AlikeUpTo X e e' ls ls') :
    Keeps E (Agree (AlikeUpTo X e e') Eq) (s.readTerm ls) (s'.readTerm ls') := by
  rw [readTerm.eq_def]
  split
  · exact .error
  · obtain ⟨o, rest, rfl, hrest⟩ := h.tail rfl
    exact (keeps_readAttribute henv _ hrest).bind fun p q hpq => .ok ⟨hpq.value, hpq.rest⟩
  · obtain ⟨o, rest, rfl, hrest⟩ := h.tail rfl
    refine .ok ⟨?_, hrest⟩
    rw [literalTest, literalTest, henv]
  · obtain ⟨o, rest, rfl, hrest⟩ := h.tail rfl
    exact (keeps_regexTest henv _ _ _).bind fun p q hpq => .ok ⟨hpq, hrest⟩
  · obtain ⟨o, rest, rfl, hrest⟩ := h.tail rfl
    exact (keeps_functionTest henv _ _ _).bind fun p q hpq => .ok ⟨hpq, hrest⟩
  · exact .error

mutual

theorem keeps_readUnary (henv : s'.env = s.env) (ls ls' : List Lexeme)
    (h : AlikeUpTo X e e' ls ls') :
    Keeps E (Agree (AlikeUpTo X e e') Eq) (s.readUnary ls) (s'.readUnary ls') := by
  rw [readUnary.eq_def]
  split
  · obtain ⟨o, rest, rfl, hrest⟩ := h.tail rfl
    rw [readUnary]
    exact (keeps_readUnary henv _ _ hrest).bind fun p q hpq => .ok ⟨congrArg _ hpq.value, hpq.rest⟩
  · obtain ⟨o, rest, rfl, hrest⟩ := h.tail rfl
    rw [readUnary]
    refine (keeps_readDisjuncts henv _ _ hrest).bind fun p q hpq => ?_
    refine (keeps_expect rfl hpq.rest).bind fun b b' hb => .ok ⟨?_, hb.rest⟩
    rw [hpq.value]
  · next hbang hparen =>
    rw [readUnary]
    · exact keeps_readTerm henv h
    · rintro o rest rfl
      obtain ⟨o', rest', rfl, -⟩ := h.tail' rfl
      exact hbang _ _ rfl
    · rintro o rest rfl
      obtain ⟨o', rest', rfl, -⟩ := h.tail' rfl
      exact hparen _ _ rfl
termination_by (ls.length, 0)

theorem keeps_readConjuncts (henv : s'.env = s.env) (ls ls' : List Lexeme)
    (h : AlikeUpTo X e e' ls ls') :
    Keeps E (Agree (AlikeUpTo X e e') Eq) (s.readConjuncts ls) (s'.readConjuncts ls') := by
  rw [readConjuncts, readConjuncts]
  refine (keeps_readUnary henv ls ls' h).bind fun p q hpq => ?_
  split
  · next o rest hrest =>
    have hlt : rest.length < ls.length := p.rest_lt hrest
    obtain ⟨o', rest', hrest', h'⟩ := (hrest ▸ hpq.rest).tail rfl
    split
    · next heq =>
      cases heq.symm.trans hrest'
      refine (keeps_readConjuncts henv _ _ h').bind fun r t hrt => .ok ⟨?_, hrt.rest⟩
      rw [hpq.value, hrt.value]
    · next hne => exact absurd hrest' (hne o' rest')
  · next hne =>
    split
    · next heq =>
      obtain ⟨o', rest', hrest', -⟩ := (heq ▸ hpq.rest).tail' rfl
      exact absurd hrest' (hne o' rest')
    · refine .ok ⟨?_, hpq.rest⟩
      rw [hpq.value]
termination_by (ls.length, 1)

theorem keeps_readDisjuncts (henv : s'.env = s.env) (ls ls' : List Lexeme)
    (h : AlikeUpTo X e e' ls ls') :
    Keeps E (Agree (AlikeUpTo X e e') Eq) (s.readDisjuncts ls) (s'.readDisjuncts ls') := by
  rw [readDisjuncts, readDisjuncts]
  refine (keeps_readConjuncts henv ls ls' h).bind fun p q hpq => ?_
  split
  · next o rest hrest =>
    have hlt : rest.length < ls.length := p.rest_lt hrest
    obtain ⟨o', rest', hrest', h'⟩ := (hrest ▸ hpq.rest).tail rfl
    split
    · next heq =>
      cases heq.symm.trans hrest'
      refine (keeps_readDisjuncts henv _ _ h').bind fun r t hrt => .ok ⟨?_, hrt.rest⟩
      rw [hpq.value, hrt.value]
    · next hne => exact absurd hrest' (hne o' rest')
  · next hne =>
    split
    · next heq =>
      obtain ⟨o', rest', hrest', -⟩ := (heq ▸ hpq.rest).tail' rfl
      exact absurd hrest' (hne o' rest')
    · refine .ok ⟨?_, hpq.rest⟩
      rw [hpq.value]
termination_by (ls.length, 2)

end

theorem keeps_readBracketed (henv : s'.env = s.env) {close : Symbol} (what : String)
    (hclose : close.isInner = true) (h : AlikeUpTo X e e' ls ls') :
    Keeps E (Agree (AlikeUpTo X e e') Eq) (s.readBracketed close what ls)
      (s'.readBracketed close what ls') := by
  rw [readBracketed, readBracketed]
  by_cases hpeek : peek ls = close
  · rw [if_pos hpeek, if_pos ((h.peek_eq_iff hclose).2 hpeek)]
    refine .ok ⟨rfl, ?_⟩
    subst hpeek
    cases ls with
    | nil => cases hclose
    | cons l rest =>
      obtain ⟨o', rest', rfl, hrest⟩ := h.tail (Symbol.isPlain_of_isInner hclose)
      exact hrest
  · rw [if_neg hpeek, if_neg fun hpeek' => hpeek ((h.peek_eq_iff hclose).1 hpeek')]
    refine (keeps_readDisjuncts henv ls ls' h).bind fun p q hpq => ?_
    refine (keeps_expect (Symbol.isPlain_of_isInner hclose) hpq.rest).bind fun b b' hb =>
      .ok ⟨?_, hb.rest⟩
    rw [hpq.value]

theorem keeps_readElement (henv : s'.env = s.env) (ls ls' : List Lexeme)
    (h : AlikeUpTo X e e' ls ls') :
    Keeps E (Agree (AlikeUpTo X e e') Eq) (s.readElement ls) (s'.readElement ls') := by
  rw [readElement.eq_def]
  split
  · exact .error
  · obtain ⟨o, rest, rfl, hrest⟩ := h.tail rfl
    exact keeps_readBracketed henv _ rfl hrest
  · obtain ⟨o, rest, rfl, hrest⟩ := h.tail rfl
    exact keeps_readBracketed henv _ rfl hrest
  · obtain ⟨o, rest, rfl, hrest⟩ := h.tail rfl
    rw [readElement]
    exact (keeps_readElement henv _ _ hrest).bind fun p q hpq =>
      .ok ⟨congrArg _ hpq.value, hpq.rest⟩
  · obtain ⟨o, rest, rfl, hrest⟩ := h.tail rfl
    refine .ok ⟨?_, hrest⟩
    rw [literalTest, literalTest, henv]
  · obtain ⟨o, rest, rfl, hrest⟩ := h.tail rfl
    exact (keeps_regexTest henv _ _ _).bind fun p q hpq => .ok ⟨hpq, hrest⟩
  · obtain ⟨o, rest, rfl, hrest⟩ := h.tail rfl
    exact (keeps_functionTest henv _ _ _).bind fun p q hpq => .ok ⟨hpq, hrest⟩
  · exact .error
termination_by ls.length

/-! ## Quantifiers -/

theorem keeps_readCount (h : AlikeUpTo X e e' ls ls') :
    Keeps E (Agree (AlikeUpTo X e e') Eq) (s.readCount ls) (s'.readCount ls') := by
  rw [readCount.eq_def]
  split
  · obtain ⟨o, rest, rfl, hrest⟩ := h.tail rfl
    split
    · next hn =>
      simp only [readCount, hn]
      exact .ok ⟨rfl, hrest⟩
    · exact .error
  · exact .error

theorem startsNumber_eq (h : AlikeUpTo X e e' ls ls') : startsNumber ls' = startsNumber ls := by
  rw [startsNumber.eq_def ls]
  split
  · obtain ⟨o, rest, rfl, -⟩ := h.tail rfl
    rfl
  · next hno =>
    rw [startsNumber.eq_def]
    split
    · obtain ⟨o, rest, rfl, -⟩ := h.tail' rfl
      exact absurd rfl (hno _ _ _)
    · rfl

theorem keeps_readMaximum (min : Nat) (h : AlikeUpTo X e e' ls ls') :
    Keeps E (Agree (AlikeUpTo X e e') Eq) (s.readMaximum min ls) (s'.readMaximum min ls') := by
  rw [readMaximum.eq_def]
  split
  · obtain ⟨o, rest, rfl, hrest⟩ := h.tail rfl
    rw [readMaximum, startsNumber_eq hrest]
    split
    · exact (keeps_readCount hrest).bind fun p q hpq => .ok ⟨congrArg _ hpq.value, hpq.rest⟩
    · exact .ok ⟨rfl, hrest⟩
  · next hno =>
    rw [readMaximum]
    · exact .ok ⟨rfl, h⟩
    · rintro o rest rfl
      obtain ⟨o', rest', rfl, -⟩ := h.tail' rfl
      exact hno _ _ rfl

theorem keeps_readBounds (h : AlikeUpTo X e e' ls ls') :
    Keeps E (Agree (AlikeUpTo X e e') Eq) (s.readBounds ls) (s'.readBounds ls') := by
  rw [readBounds, readBounds]
  refine (keeps_expect rfl h).bind fun b b' hb => ?_
  refine (keeps_readCount hb.rest).bind fun p p' hp => ?_
  rw [← hp.value]
  refine (keeps_readMaximum _ hp.rest).bind fun q q' hq => ?_
  refine (keeps_expect rfl hq.rest).bind fun c c' hc => ?_
  rw [← hq.value]
  split
  · split
    · exact .error
    · exact .ok ⟨rfl, hc.rest⟩
  · exact .ok ⟨rfl, hc.rest⟩

theorem agree_readGreed (h : AlikeUpTo X e e' ls ls') :
    Agree (AlikeUpTo X e e') Eq (readGreed ls) (readGreed ls') := by
  rw [readGreed.eq_def ls]
  split
  · obtain ⟨o, rest, rfl, hrest⟩ := h.tail rfl
    exact ⟨rfl, hrest⟩
  · next hno =>
    rw [readGreed]
    · exact ⟨rfl, h⟩
    · rintro o rest rfl
      obtain ⟨o', rest', rfl, -⟩ := h.tail' rfl
      exact hno _ _ rfl

theorem agree_readQuantifierGreed (min : Nat) (max : Option Nat) (h : AlikeUpTo X e e' ls ls') :
    Agree (AlikeUpTo X e e') Eq (readQuantifierGreed min max ls)
      (readQuantifierGreed min max ls') :=
  ⟨congrArg (fun greedy => some (min, max, greedy)) (agree_readGreed h).value,
    (agree_readGreed h).rest⟩

theorem keeps_readQuantifier (h : AlikeUpTo X e e' ls ls') :
    Keeps E (Agree (AlikeUpTo X e e') Eq) (s.readQuantifier ls) (s'.readQuantifier ls') := by
  rw [readQuantifier.eq_def]
  split
  case h_1 | h_2 | h_3 =>
    obtain ⟨o, rest, rfl, hrest⟩ := h.tail rfl
    exact .ok ((agree_readQuantifierGreed _ _ hrest).weaken _ _)
  · obtain ⟨o, rest, rfl, hrest⟩ := h.tail rfl
    rw [readQuantifier, startsNumber_eq hrest]
    split
    · refine (keeps_readBounds h).bind fun p q hpq => ?_
      rw [← hpq.value]
      exact .ok ((agree_readQuantifierGreed _ _ hpq.rest).weaken _ _)
    · exact .ok ⟨rfl, h⟩
  · next hstar hplus hquestion hbrace =>
    rw [readQuantifier]
    · exact .ok ⟨rfl, h⟩
    all_goals
      rintro o rest rfl
      obtain ⟨o', rest', rfl, -⟩ := h.tail' rfl
    · exact hstar _ _ rfl
    · exact hplus _ _ rfl
    · exact hquestion _ _ rfl
    · exact hbrace _ _ rfl

/-! ## Runs of elements -/

theorem keeps_readMulti (henv : s'.env = s.env) (h : AlikeUpTo X e e' ls ls') :
    Keeps E (Agree (AlikeUpTo X e e') Eq) (s.readMulti ls) (s'.readMulti ls') := by
  have hpeek := h.peek_eq_iff (x := .lbrace) rfl
  rw [readMulti, readMulti, ite_bind_eq, ite_bind_eq]
  refine Keeps.bind (R := Agree (AlikeUpTo X e e') Eq) ?_ fun b b' hb => ?_
  · split
    · next hbrace =>
      rw [if_pos (hpeek.2 hbrace)]
      exact (keeps_readBounds h).bind fun p q hpq => .ok (hpq.weaken _ _)
    · next hbrace =>
      rw [if_neg fun hbrace' => hbrace (hpeek.1 hbrace')]
      exact .ok ⟨rfl, h⟩
  have hgreed := agree_readGreed hb.rest
  dsimp only
  split
  · next source offset rest hrest =>
    obtain ⟨o', rest', hrest', h'⟩ := (hrest ▸ hgreed.rest).tail rfl
    split
    · next heq =>
      cases heq.symm.trans hrest'
      refine (keeps_regex henv _ _ _).bind fun r r' hr => .ok ⟨?_, h'⟩
      rw [hb.value, hgreed.value, hr]
    · next heq => cases heq.symm.trans hrest'
    · next hno _ => exact absurd hrest' (hno _ _ _)
  · next text offset rest hrest =>
    obtain ⟨o', rest', hrest', h'⟩ := (hrest ▸ hgreed.rest).tail rfl
    split
    · next heq => cases heq.symm.trans hrest'
    · next heq =>
      cases heq.symm.trans hrest'
      refine (keeps_regex henv _ _ _).bind fun r r' hr => .ok ⟨?_, h'⟩
      rw [hb.value, hgreed.value, hr]
    · next hno => exact absurd hrest' (hno _ _ _)
  · exact .error

end Elements

end Scope

end Motif
