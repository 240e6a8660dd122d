import Motif.Machine.Step

/-!
# Where the code of an expression stands

* `Expr.length_code`: the code of an expression is as long as its width says.
* `Task.CodeAt`: the instructions at an address, taken apart along concatenations.
* `Task.codeAt_lower`: where the code of a lowered expression stands.
-/

namespace Motif

/-! ## The code of an expression -/

namespace Expr

mutual

theorem length_code (greedy : Bool) (pc reg : Nat) (e : Expr) :
    (e.code greedy pc reg).length = e.width := by
  match e with
  | node _ | backref _ | multi .. | anchor _ => simp [code, width]
  | sequence es => simpa only [code, width] using length_codeOfAll greedy pc reg es
  | choice es => simpa only [code, width] using length_codeOfChoice greedy pc reg _ es
  | iterate e min max own =>
    unfold code width
    split
    · rfl
    · split
      · exact length_code greedy pc reg e
      · simp [length_code (own && greedy) _ _ e]
  | group e none _ => simpa [code, width] using length_code greedy pc reg e
  | group e (some id) _ => simp [code, width, length_code greedy _ _ e]
  | action e _ _ => simp [code, width, length_code greedy _ _ e]

theorem length_codeOfAll (greedy : Bool) (pc reg : Nat) (es : List Expr) :
    (codeOfAll greedy pc reg es).length = widthOfAll es := by
  match es with
  | [] => rfl
  | e :: es =>
    simp [codeOfAll, widthOfAll, length_code greedy _ _ e, length_codeOfAll greedy _ _ es]

theorem length_codeOfChoice (greedy : Bool) (pc reg exit : Nat) (es : List Expr) :
    (codeOfChoice greedy pc reg exit es).length = widthOfChoice es := by
  match es with
  | [] => rfl
  | [e] => simpa [codeOfChoice, widthOfChoice] using length_code greedy _ _ e
  | e :: e' :: es =>
    simp [codeOfChoice, widthOfChoice, length_code greedy _ _ e,
      length_codeOfChoice greedy _ _ _ (e' :: es)]
    omega

end

end Expr

namespace Task

/-! ## Instructions at an address -/

variable (t : Task)

/-- The instructions at an address. -/
def CodeAt (pc : Nat) (is : List Instruction) : Prop :=
  ∀ i x, is[i]? = some x → t.program.code[pc + i]? = some x

variable {t} {pc : Nat} {x : Instruction} {is js : List Instruction}

theorem CodeAt.head (h : t.CodeAt pc (x :: is)) : t.program.code[pc]? = some x := h 0 x rfl

theorem CodeAt.tail (h : t.CodeAt pc (x :: is)) : t.CodeAt (pc + 1) is := fun i y hy => by
  have := h (i + 1) y (by simpa using hy)
  rwa [Nat.add_assoc, Nat.add_comm 1 i]

theorem CodeAt.left (h : t.CodeAt pc (is ++ js)) : t.CodeAt pc is := fun i y hy => h i y (by
  have := (List.getElem?_eq_some_iff.1 hy).1
  rwa [List.getElem?_append_left this])

theorem CodeAt.right (h : t.CodeAt pc (is ++ js)) : t.CodeAt (pc + is.length) js := fun i y hy => by
  have := h (is.length + i) y (by
    rwa [List.getElem?_append_right (by omega), Nat.add_sub_cancel_left])
  rwa [Nat.add_assoc]

theorem step_eq {c : Config} {i : Instruction} (h : t.program.code[c.pc]? = some i) :
    t.step c = t.execute c i := by simp [step, h]

theorem codeAt_lower (e : Expr) (h : t.program = .lower e) :
    t.CodeAt 0 (e.code true 0 0 ++ [.accept]) := fun i x hx => by
  simpa [h, Program.lower] using hx

end Task

end Motif
