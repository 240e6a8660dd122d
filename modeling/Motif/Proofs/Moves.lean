import Motif.Search
import Mathlib.Logic.Relation

/-!
# Moves along a path

A path goes on by one move after the other: behind some elements, into a group or out of it, past
an action of the tree. What every move keeps is therefore kept along all paths through an
expression.

* `Expr.targets`: the groups that actions are fired on.
* `Path.Move`: the moves.
* `Trial.chain_of_mem_iterations`: a path through a repetition is a chain of paths through its body.
* **`Expr.moves_of_mem_paths`**: a path through an expression consists of moves.
* `Path.Within`: what a path has captured and noted lies behind a position.
* `Path.Move.within`, **`Expr.within_of_mem_paths`**: it stays so along a path.
* `Path.Move.captured`, **`Expr.captured_of_mem_paths`**: groups of other expressions keep what they
  captured.
-/

open Relation (ReflTransGen)

namespace Motif

namespace Expr

mutual

/-- The groups that the actions in a tree are fired on. -/
def targets : Expr → List Nat
  | node _ | backref _ | multi .. | anchor _ => []
  | sequence es | choice es => targetsOfAll es
  | iterate e _ _ _ | group e _ _ => e.targets
  | action e _ target => e.targets ++ [target]

/-- The groups that the actions in several trees are fired on. -/
def targetsOfAll : List Expr → List Nat
  | [] => []
  | e :: es => e.targets ++ targetsOfAll es

end

end Expr

/-- One move along a path through a tree that has the groups `gs` and whose actions are fired on
the groups `ts`. -/
inductive Path.Move (gs ts : List Nat) : Path → Path → Prop where
  /-- Behind some elements. -/
  | advance (q : Path) (k : Nat) : Move gs ts q (q.advance k)
  /-- Behind an element with a payload. -/
  | attach (q : Path) (v : Value) : Move gs ts q ((q.note (.payload q.pos v)).advance 1)
  /-- Into a group. -/
  | openGroup (q : Path) {id : Nat} (h : id ∈ gs) : Move gs ts q (q.openGroup id)
  /-- Out of a group. -/
  | closeGroup (q : Path) {id : Nat} (h : id ∈ gs) : Move gs ts q (q.closeGroup id)
  /-- Past an action. -/
  | fire (q : Path) (action : String) {target : Nat} (h : target ∈ ts) :
    Move gs ts q (q.note (.fire action target))

theorem Path.Move.mono {gs gs' ts ts' : List Nat} (hgs : gs ⊆ gs') (hts : ts ⊆ ts') {q r : Path}
    (h : q.Move gs ts r) : q.Move gs' ts' r := by
  cases h with
  | advance k => exact .advance q k
  | attach v => exact .attach q v
  | openGroup h => exact .openGroup q (hgs h)
  | closeGroup h => exact .closeGroup q (hgs h)
  | fire action h => exact .fire q action (hts h)

theorem Path.moves_mono {gs gs' ts ts' : List Nat} (hgs : gs ⊆ gs') (hts : ts ⊆ ts') {q r : Path}
    (h : ReflTransGen (Path.Move gs ts) q r) : ReflTransGen (Path.Move gs' ts') q r :=
  h.lift id fun _ _ => Path.Move.mono hgs hts

/-! ## Paths consist of moves -/

section Moves

variable {elements : Array Element} {render : List Element → String}
  {gs ts : List Nat}

namespace Trial

theorem moves_ofNode {p : NodePattern} {q r : Path} (h : .ok r ∈ ofNode elements p q) :
    ReflTransGen (Path.Move gs ts) q r := by
  unfold ofNode at h
  split at h
  · cases h
  · split at h
    · cases List.mem_singleton.1 h
    · cases h
    · cases List.mem_singleton.1 h
      exact .single (.advance q 1)
    · cases List.mem_singleton.1 h
      exact .single (.attach q _)

theorem moves_ofBackref {id : Nat} {q r : Path} (h : .ok r ∈ ofBackref elements id q) :
    ReflTransGen (Path.Move gs ts) q r := by
  unfold ofBackref at h
  split at h
  · cases h
  · split at h
    · cases List.mem_singleton.1 h
      exact .single (.advance q _)
    · cases h

theorem moves_ofMulti {min : Nat} {max : Option Nat} {text : Regex} {greedy : Bool} {q r : Path}
    (h : .ok r ∈ ofMulti elements render min max text greedy q) :
    ReflTransGen (Path.Move gs ts) q r := by
  obtain ⟨len, -, hr⟩ := List.mem_map.1 h
  cases hr
  exact .single (.advance q len)

theorem moves_ofAnchor {a : Anchor} {q r : Path} (h : .ok r ∈ ofAnchor elements a q) :
    ReflTransGen (Path.Move gs ts) q r := by
  obtain rfl : r = q := by cases a <;> simp [ofAnchor] at h <;> exact h.2
  exact .refl

theorem chain_of_mem_iterations {body : Path → List Trial} {min : Nat} {max : Option Nat}
    {greedy : Bool} {count : Nat} {q s : Path}
    (h : .ok s ∈ iterations elements body min max greedy count q) :
    ReflTransGen (fun q r => .ok r ∈ body q) q s := by
  induction count, q using iterations_induction elements min with
  | step count q ih =>
    obtain ⟨-, rfl⟩ | ⟨-, h⟩ := ok_mem_iterations.1 h
    · exact .refl
    · obtain ⟨r, hr, hgo, hs⟩ := ok_mem_iteration.1 h
      exact .head hr (ih r hgo hs)

end Trial

namespace Expr

theorem moves_cons_left {e : Expr} (es : List Expr) {q r : Path}
    (h : ReflTransGen (Path.Move (e.groups.map (·.1)) e.targets) q r) :
    ReflTransGen (Path.Move ((groupsOfAll (e :: es)).map (·.1)) (targetsOfAll (e :: es))) q r :=
  Path.moves_mono (List.map_subset _ (List.subset_append_left _ _)) (List.subset_append_left _ _) h

theorem moves_cons_right (e : Expr) {es : List Expr} {q r : Path}
    (h : ReflTransGen (Path.Move ((groupsOfAll es).map (·.1)) (targetsOfAll es)) q r) :
    ReflTransGen (Path.Move ((groupsOfAll (e :: es)).map (·.1)) (targetsOfAll (e :: es))) q r :=
  Path.moves_mono (List.map_subset _ (List.subset_append_right _ _))
    (List.subset_append_right _ _) h

mutual

/-- **A path through an expression consists of moves.** -/
theorem moves_of_mem_paths (greedy : Bool) (e : Expr) {q r : Path}
    (h : .ok r ∈ e.paths elements render greedy q) :
    ReflTransGen (Path.Move (e.groups.map (·.1)) e.targets) q r := by
  match e with
  | node p => exact Trial.moves_ofNode h
  | sequence es => exact moves_of_mem_pathsOfAll greedy es h
  | choice [] =>
    cases List.mem_singleton.1 h
    exact .refl
  | choice (e :: es) => exact moves_of_mem_pathsOfSome greedy (e :: es) h
  | iterate e min max own =>
    rw [paths] at h
    split at h
    · cases List.mem_singleton.1 h
      exact .refl
    · exact (Trial.chain_of_mem_iterations h).lift' id fun _ _ => moves_of_mem_paths _ e
  | group e none _ => exact moves_of_mem_paths greedy e h
  | group e (some id) _ =>
    obtain ⟨r', hr', hr⟩ := Trial.ok_mem_onward.1 h
    cases List.mem_singleton.1 hr
    have hinner := Path.moves_mono (List.subset_cons_self id _) (List.Subset.refl _)
      (moves_of_mem_paths greedy e hr')
    exact (hinner.head (.openGroup q List.mem_cons_self)).tail
      (.closeGroup r' List.mem_cons_self)
  | backref id => exact Trial.moves_ofBackref h
  | multi min max text own => exact Trial.moves_ofMulti h
  | action e name target =>
    obtain ⟨r', hr', hr⟩ := Trial.ok_mem_onward.1 h
    cases List.mem_singleton.1 hr
    exact (Path.moves_mono (List.Subset.refl _) (List.subset_append_left _ _)
      (moves_of_mem_paths greedy e hr')).tail
        (.fire r' name (List.mem_append_right _ List.mem_cons_self))
  | anchor a => exact Trial.moves_ofAnchor h

theorem moves_of_mem_pathsOfAll (greedy : Bool) (es : List Expr) {q r : Path}
    (h : .ok r ∈ pathsOfAll elements render greedy es q) :
    ReflTransGen (Path.Move ((groupsOfAll es).map (·.1)) (targetsOfAll es)) q r := by
  match es with
  | [] =>
    cases List.mem_singleton.1 h
    exact .refl
  | e :: es =>
    obtain ⟨r', hr', hr⟩ := Trial.ok_mem_onward.1 h
    exact (moves_cons_left es (moves_of_mem_paths greedy e hr')).trans
      (moves_cons_right e (moves_of_mem_pathsOfAll greedy es hr))

theorem moves_of_mem_pathsOfSome (greedy : Bool) (es : List Expr) {q r : Path}
    (h : .ok r ∈ pathsOfSome elements render greedy es q) :
    ReflTransGen (Path.Move ((groupsOfAll es).map (·.1)) (targetsOfAll es)) q r := by
  match es with
  | [] => cases h
  | e :: es =>
    obtain h | h := List.mem_append.1 h
    · exact moves_cons_left es (moves_of_mem_paths greedy e h)
    · exact moves_cons_right e (moves_of_mem_pathsOfSome greedy es h)

end

end Expr

end Moves

/-! ## What a path captures and notes -/

namespace Note

theorem payloads_push_payload (notes : Array Note) (i : Nat) (v : Value) :
    payloads (notes.push (.payload i v)).toList = payloads notes.toList ++ [(i, v)] := by
  rw [Array.toList_push, payloads, List.filterMap_append]
  rfl

theorem payloads_push_fire (notes : Array Note) (action : String) (target : Nat) :
    payloads (notes.push (.fire action target)).toList = payloads notes.toList := by
  rw [Array.toList_push, payloads, List.filterMap_append]
  exact List.append_nil _

end Note

namespace Path

/-- What a path has captured and noted lies between a position and its own position, in the order of
the elements. -/
structure Within (start : Nat) (q : Path) : Prop where
  start_le : start ≤ q.pos
  slots : ∀ i v : Nat, q.slots[i]? = some (some v) → start ≤ v ∧ v ≤ q.pos
  payloads : ∀ x ∈ Note.payloads q.notes.toList, start ≤ x.1 ∧ x.1 < q.pos
  ascending : (Note.payloads q.notes.toList).Pairwise fun x y => x.1 < y.1

variable {start : Nat} {q r : Path} {gs ts : List Nat}

theorem within_entry (groups start : Nat) : (entry groups start).Within start where
  start_le := Nat.le_refl _
  slots i v h := by
    change (Array.replicate (2 * groups) none)[i]? = some (some v) at h
    rw [Array.getElem?_replicate] at h
    split at h <;> cases h
  payloads x h := by cases h
  ascending := .nil

namespace Within

theorem advance (h : q.Within start) (k : Nat) : (q.advance k).Within start where
  start_le := Nat.le_add_right_of_le h.start_le
  slots i v hv := ⟨(h.slots i v hv).1, Nat.le_add_right_of_le (h.slots i v hv).2⟩
  payloads x hx := ⟨(h.payloads x hx).1, Nat.lt_add_right k (h.payloads x hx).2⟩
  ascending := h.ascending

theorem attach (h : q.Within start) (v : Value) :
    ((q.note (.payload q.pos v)).advance 1).Within start where
  start_le := Nat.le_add_right_of_le h.start_le
  slots i v hv := ⟨(h.slots i v hv).1, Nat.le_add_right_of_le (h.slots i v hv).2⟩
  payloads x hx := by
    change x ∈ Note.payloads (q.notes.push (.payload q.pos v)).toList at hx
    rw [Note.payloads_push_payload, List.mem_append, List.mem_singleton] at hx
    obtain hx | rfl := hx
    · exact ⟨(h.payloads x hx).1, Nat.lt_succ_of_lt (h.payloads x hx).2⟩
    · exact ⟨h.start_le, Nat.lt_succ_self _⟩
  ascending := by
    change (Note.payloads (q.notes.push (.payload q.pos v)).toList).Pairwise _
    rw [Note.payloads_push_payload, List.pairwise_append]
    refine ⟨h.ascending, List.pairwise_singleton _ _, fun x hx y hy => ?_⟩
    rw [List.mem_singleton.1 hy]
    exact (h.payloads x hx).2

theorem set (h : q.Within start) (i : Nat) {x : Option Nat} (hx : x = none ∨ x = some q.pos) :
    ({ q with slots := q.slots.setIfInBounds i x } : Path).Within start where
  start_le := h.start_le
  slots j v hv := by
    rw [Array.getElem?_setIfInBounds] at hv
    split at hv
    · split at hv
      · obtain rfl | rfl := hx
        · cases hv
        · cases hv
          exact ⟨h.start_le, Nat.le_refl _⟩
      · cases hv
    · exact h.slots j v hv
  payloads := h.payloads
  ascending := h.ascending

theorem fire (h : q.Within start) (action : String) (target : Nat) :
    (q.note (.fire action target)).Within start := by
  have heq : Note.payloads (q.note (.fire action target)).notes.toList =
      Note.payloads q.notes.toList := Note.payloads_push_fire _ _ _
  exact ⟨h.start_le, h.slots, heq ▸ h.payloads, heq ▸ h.ascending⟩

theorem openGroup (h : q.Within start) (id : Nat) : (q.openGroup id).Within start :=
  (h.set (2 * id) (.inr rfl)).set (2 * id + 1) (.inl rfl)

theorem closeGroup (h : q.Within start) (id : Nat) : (q.closeGroup id).Within start :=
  h.set (2 * id + 1) (.inr rfl)

theorem captured (h : q.Within start) {id : Nat} {s : Span} (hs : q.captured? id = some s) :
    start ≤ s.start ∧ s.start ≤ s.stop ∧ s.stop ≤ q.pos := by
  unfold captured? at hs
  split at hs
  · next b e hb he =>
    have slot {i v : Nat} (hv : q.slots[i]?.getD none = some v) : start ≤ v ∧ v ≤ q.pos :=
      h.slots i v (by cases hi : q.slots[i]? with
        | none => rw [hi] at hv; cases hv
        | some x => rw [hi] at hv; exact congrArg some hv)
    split at hs
    · next hbe =>
      cases hs
      exact ⟨(slot hb).1, hbe, (slot he).2⟩
    · cases hs
  · cases hs

end Within

/-- **A move leaves what a path has captured and noted within its bounds.** -/
theorem Move.within (hm : q.Move gs ts r) (h : q.Within start) : r.Within start := by
  cases hm with
  | advance k => exact h.advance k
  | attach v => exact h.attach v
  | openGroup _ => exact h.openGroup _
  | closeGroup _ => exact h.closeGroup _
  | fire action _ => exact h.fire action _

theorem within_of_moves (hm : ReflTransGen (Move gs ts) q r) (h : q.Within start) :
    r.Within start := by
  induction hm with
  | refl => exact h
  | tail _ hm ih => exact hm.within ih

/-! ## Groups that a path does not enter -/

@[simp] theorem captured_openGroup_of_ne {id id' : Nat} (h : id' ≠ id) :
    (q.openGroup id).captured? id' = q.captured? id' := by
  have h₁ : 2 * id' ≠ 2 * id := by omega
  have h₂ : 2 * id' ≠ 2 * id + 1 := by omega
  have h₃ : 2 * id' + 1 ≠ 2 * id := by omega
  have h₄ : 2 * id' + 1 ≠ 2 * id + 1 := by omega
  simp only [openGroup, captured?, Array.getElem?_setIfInBounds, h₁.symm, h₂.symm, h₃.symm,
    h₄.symm, if_false]

@[simp] theorem captured_closeGroup_of_ne {id id' : Nat} (h : id' ≠ id) :
    (q.closeGroup id).captured? id' = q.captured? id' := by
  have h₁ : 2 * id' ≠ 2 * id + 1 := by omega
  have h₂ : 2 * id' + 1 ≠ 2 * id + 1 := by omega
  simp only [closeGroup, captured?, Array.getElem?_setIfInBounds, h₁.symm, h₂.symm, if_false]

/-- **A move leaves the groups alone that it does not enter.** -/
theorem Move.captured (hm : q.Move gs ts r) {id : Nat} (hid : id ∉ gs) :
    r.captured? id = q.captured? id := by
  cases hm with
  | advance | attach | fire => rfl
  | openGroup h => exact captured_openGroup_of_ne (ne_of_mem_of_not_mem h hid).symm
  | closeGroup h => exact captured_closeGroup_of_ne (ne_of_mem_of_not_mem h hid).symm

theorem captured_of_moves (hm : ReflTransGen (Move gs ts) q r) {id : Nat} (hid : id ∉ gs) :
    r.captured? id = q.captured? id := by
  induction hm with
  | refl => rfl
  | tail _ hm ih => exact (hm.captured hid).trans ih

end Path

/-- **What a path through an expression has captured and noted lies between its ends.** -/
theorem Expr.within_of_mem_paths {elements : Array Element} {render : List Element → String}
    {greedy : Bool} {e : Expr} {start : Nat} {q r : Path}
    (hr : .ok r ∈ e.paths elements render greedy q) (h : q.Within start) : r.Within start :=
  Path.within_of_moves (e.moves_of_mem_paths greedy hr) h

/-- **A path through an expression leaves the groups of other expressions alone.** -/
theorem Expr.captured_of_mem_paths {elements : Array Element} {render : List Element → String}
    {greedy : Bool} {e : Expr} {q r : Path} (hr : .ok r ∈ e.paths elements render greedy q)
    {id : Nat} (hid : id ∉ e.groups.map (·.1)) : r.captured? id = q.captured? id :=
  Path.captured_of_moves (e.moves_of_mem_paths greedy hr) hid

end Motif
