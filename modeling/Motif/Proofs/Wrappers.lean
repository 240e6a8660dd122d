import Motif.Proofs.Declarations
import Motif.Proofs.Numbering

/-!
# Groups that do not capture

A group that does not capture only marks where its content begins and ends. Without such groups an
expression declares the same groups and names and makes the same references.

* `Expr.bare`: an expression without the groups that do not capture.
* `Expr.groups_bare`, `Expr.backrefs_bare`: its groups and references are the same.
* `Expr.lower_bare`: its program is the same.
* `Expr.recurs_bare`: its names recur along a path if those of the expression do.
-/

namespace Motif

namespace Expr

mutual

/-- An expression without the groups that do not capture. -/
def bare : Expr → Expr
  | node p => node p
  | sequence es => sequence (bareAll es)
  | choice es => choice (bareAll es)
  | iterate e min max greedy => iterate e.bare min max greedy
  | group e none none => e.bare
  | group e id name => group e.bare id name
  | backref id => backref id
  | multi min max text greedy => multi min max text greedy
  | action e name target => action e.bare name target
  | anchor a => anchor a

/-- Expressions without the groups that do not capture. -/
def bareAll : List Expr → List Expr
  | [] => []
  | e :: es => e.bare :: bareAll es

end

theorem bare_ofItems (es : List Expr) : (ofItems es).bare = ofItems (bareAll es) := by
  rcases es with _ | ⟨e, _ | ⟨e', es⟩⟩ <;> rfl

theorem bare_ofBranches (es : List Expr) : (ofBranches es).bare = ofBranches (bareAll es) := by
  rcases es with _ | ⟨e, _ | ⟨e', es⟩⟩ <;> rfl

theorem bare_group {e e' : Expr} (h : e'.bare = e.bare) (id : Option Nat)
    (name : Option String) : (group e' id name).bare = (group e id name).bare := by
  cases id with
  | some id => exact congrArg (group · (some id) name) h
  | none =>
    cases name with
    | some name => exact congrArg (group · none (some name)) h
    | none => exact h

theorem bare_quantified (e : Expr) (q : Option Scope.Quantifier) :
    (Scope.quantified e q).bare = Scope.quantified e.bare q := by
  cases q <;> rfl

/-! ## Groups and references -/

mutual

theorem groups_bare (e : Expr) : e.bare.groups = e.groups := by
  match e with
  | node _ | backref _ | multi .. | anchor _ => rfl
  | sequence es | choice es => exact groupsOfAll_bare es
  | iterate e _ _ _ | action e _ _ | group e none none => exact groups_bare e
  | group e (some id) name =>
    exact congrArg ((id, name) :: ·) (groups_bare e)
  | group e none (some name) => exact groups_bare e

theorem groupsOfAll_bare (es : List Expr) : groupsOfAll (bareAll es) = groupsOfAll es := by
  match es with
  | [] => rfl
  | e :: es => rw [bareAll, groupsOfAll, groupsOfAll, groups_bare e, groupsOfAll_bare es]

end

mutual

theorem backrefs_bare (e : Expr) : e.bare.backrefs = e.backrefs := by
  match e with
  | node _ | backref _ | multi .. | anchor _ => rfl
  | sequence es | choice es => exact backrefsOfAll_bare es
  | iterate e _ _ _ | action e _ _ | group e none none => exact backrefs_bare e
  | group e (some id) name => exact backrefs_bare e
  | group e none (some name) => exact backrefs_bare e

theorem backrefsOfAll_bare (es : List Expr) : backrefsOfAll (bareAll es) = backrefsOfAll es := by
  match es with
  | [] => rfl
  | e :: es => rw [bareAll, backrefsOfAll, backrefsOfAll, backrefs_bare e, backrefsOfAll_bare es]

end

/-! ## Code -/

mutual

theorem width_bare (e : Expr) : e.bare.width = e.width := by
  match e with
  | node _ | backref _ | multi .. | anchor _ => rfl
  | sequence es => exact widthOfAll_bare es
  | choice es => exact widthOfChoice_bare es
  | iterate e _ _ _ | group e (some id) name | action e _ _ =>
    rw [bare, width, width, width_bare e]
    all_goals nofun
  | group e none none => exact width_bare e
  | group e none (some name) => exact width_bare e

theorem widthOfAll_bare (es : List Expr) : widthOfAll (bareAll es) = widthOfAll es := by
  match es with
  | [] => rfl
  | e :: es => rw [bareAll, widthOfAll, widthOfAll, width_bare e, widthOfAll_bare es]

theorem widthOfChoice_bare (es : List Expr) : widthOfChoice (bareAll es) = widthOfChoice es := by
  match es with
  | [] => rfl
  | [e] => exact width_bare e
  | e :: e' :: es =>
    rw [bareAll, bareAll, widthOfChoice, widthOfChoice, ← bareAll, width_bare e,
      widthOfChoice_bare (e' :: es)]

end

mutual

theorem registers_bare (e : Expr) : e.bare.registers = e.registers := by
  match e with
  | node _ | backref _ | multi .. | anchor _ => rfl
  | sequence es | choice es => exact registersOfAll_bare es
  | iterate e _ _ _ => rw [bare, registers, registers, registers_bare e]
  | group e none none | group e (some id) name | group e none (some name) | action e _ _ =>
    exact registers_bare e

theorem registersOfAll_bare (es : List Expr) : registersOfAll (bareAll es) = registersOfAll es := by
  match es with
  | [] => rfl
  | e :: es =>
    rw [bareAll, registersOfAll, registersOfAll, registers_bare e, registersOfAll_bare es]

end

mutual

theorem code_bare (e : Expr) (greedy : Bool) (pc reg : Nat) :
    e.bare.code greedy pc reg = e.code greedy pc reg := by
  match e with
  | node _ | backref _ | multi .. | anchor _ => rfl
  | sequence es => exact codeOfAll_bare es greedy pc reg
  | choice es =>
    rw [bare, code, code, widthOfChoice_bare es, codeOfChoice_bare es]
  | iterate e min max own => rw [bare, code, code, code_bare e, code_bare e, width_bare e]
  | group e none none => exact code_bare e greedy pc reg
  | group e none (some name) => exact code_bare e greedy pc reg
  | group e (some id) name =>
    rw [bare, code, code, code_bare e]
    nofun
  | action e name target => rw [bare, code, code, code_bare e]

theorem codeOfAll_bare (es : List Expr) (greedy : Bool) (pc reg : Nat) :
    codeOfAll greedy pc reg (bareAll es) = codeOfAll greedy pc reg es := by
  match es with
  | [] => rfl
  | e :: es =>
    rw [bareAll, codeOfAll, codeOfAll, code_bare e, width_bare e, registers_bare e,
      codeOfAll_bare es]

theorem codeOfChoice_bare (es : List Expr) (greedy : Bool) (pc reg exit : Nat) :
    codeOfChoice greedy pc reg exit (bareAll es) = codeOfChoice greedy pc reg exit es := by
  match es with
  | [] => rfl
  | [e] => exact code_bare e greedy pc reg
  | e :: e' :: es =>
    rw [bareAll, bareAll, codeOfChoice, codeOfChoice, ← bareAll, code_bare e, width_bare e,
      registers_bare e, codeOfChoice_bare (e' :: es)]

end

theorem lower_bare (e : Expr) : Program.lower e.bare = Program.lower e := by
  rw [Program.lower, Program.lower, code_bare, registers_bare]

/-! ## Names along paths -/

variable {name : String}

section Singletons

variable {e e' c c' : Expr} (hc : e.children = [c]) (hc' : e'.children = [c'])
  (hn : e.ownName = e'.ownName)

include hc hc' hn

theorem declares_congr (h : c.Declares name ↔ c'.Declares name) :
    e.Declares name ↔ e'.Declares name := by
  rw [declares_of_children_eq_singleton hc, declares_of_children_eq_singleton hc', hn, h]

theorem recurs_congr (h : c.Recurs name ↔ c'.Recurs name)
    (hd : c.Declares name ↔ c'.Declares name) : e.Recurs name ↔ e'.Recurs name := by
  rw [recurs_of_children_eq_singleton hc, recurs_of_children_eq_singleton hc', hn, h, hd]

end Singletons

mutual

theorem declares_bare (e : Expr) : e.bare.Declares name ↔ e.Declares name := by
  match e with
  | node _ | backref _ | multi .. | anchor _ => rfl
  | sequence es => rw [bare, declares_sequence, declares_sequence, exists_declares_bareAll es]
  | choice es => rw [bare, declares_choice, declares_choice, exists_declares_bareAll es]
  | group e none none =>
    rw [bare, declares_bare e, declares_of_children_eq_singleton (e := group e none none) rfl]
    exact (or_iff_right nofun).symm
  | iterate e _ _ _ | action e _ _ | group e (some id) name | group e none (some name) =>
    exact declares_congr rfl rfl rfl (declares_bare e)

theorem exists_declares_bareAll (es : List Expr) :
    (∃ c ∈ bareAll es, c.Declares name) ↔ ∃ c ∈ es, c.Declares name := by
  match es with
  | [] => rfl
  | e :: es =>
    rw [bareAll, List.exists_mem_cons_iff, List.exists_mem_cons_iff, declares_bare e,
      exists_declares_bareAll es]

end

theorem separate_bareAll (es : List Expr) : Separate name (bareAll es) ↔ Separate name es := by
  induction es with
  | nil => rfl
  | cons e es ih =>
    have hrest : (∀ c ∈ bareAll es, ¬ (e.bare.Declares name ∧ c.Declares name)) ↔
        ∀ c ∈ es, ¬ (e.Declares name ∧ c.Declares name) := by
      have hexists : (∃ c ∈ bareAll es, c.Declares name) ↔ ∃ c ∈ es, c.Declares name :=
        exists_declares_bareAll es
      rw [declares_bare]
      grind
    rw [bareAll, Separate, Separate, List.pairwise_cons, List.pairwise_cons]
    exact and_congr hrest ih

mutual

/-- **Whether names recur along a path does not depend on groups that do not capture.** -/
theorem recurs_bare (e : Expr) : e.bare.Recurs name ↔ e.Recurs name := by
  match e with
  | node _ | backref _ | multi .. | anchor _ => rfl
  | sequence es =>
    rw [bare, recurs_sequence, recurs_sequence, exists_recurs_bareAll es, separate_bareAll]
  | choice es => rw [bare, recurs_choice, recurs_choice, exists_recurs_bareAll es]
  | group e none none =>
    rw [bare, recurs_bare e, recurs_of_children_eq_singleton (e := group e none none) rfl]
    exact (or_iff_left fun h => nomatch h.1).symm
  | iterate e _ _ _ | action e _ _ | group e (some id) name | group e none (some name) =>
    exact recurs_congr rfl rfl rfl (recurs_bare e) (declares_bare e)

theorem exists_recurs_bareAll (es : List Expr) :
    (∃ c ∈ bareAll es, c.Recurs name) ↔ ∃ c ∈ es, c.Recurs name := by
  match es with
  | [] => rfl
  | e :: es =>
    rw [bareAll, List.exists_mem_cons_iff, List.exists_mem_cons_iff, recurs_bare e,
      exists_recurs_bareAll es]

end

end Expr

end Motif
