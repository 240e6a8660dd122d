import Motif.Expr

/-!
# Programs

An expression is lowered once into a flat list of instructions, so that every point to which a
search may return is a place in the list:

    a | b          split       a{m,n}       enter r
                   ⟨a⟩                head: loop r m n
                   jump end                 ⟨a⟩
                   ⟨b⟩                      next r m head
              end:                    exit:

Each repetition counts in a register of its own. The code of a part is given by the address at
which it starts and the first register it may use; its length and the number of its registers
depend on neither.

* `Instruction`, `Program`: instructions and programs.
* `Expr.width`, `Expr.registers`: the size of the code of an expression.
* `Expr.code`: the code of an expression.
* `Program.lower`: the program of an expression.
-/

namespace Motif

/-- One instruction. Addresses and registers are numbers. -/
inductive Instruction where
  /-- Consume one element that satisfies the predicate. -/
  | node (p : NodePattern)
  /-- Continue at `primary`; after a failure, at `alternate`. -/
  | split (primary alternate : Nat)
  | jump (target : Nat)
  | openGroup (id : Nat)
  | closeGroup (id : Nat)
  | backref (id : Nat)
  /-- Begin counting in a register. -/
  | enter (reg : Nat)
  /-- The head of a repetition: its body follows, and `exit` comes after it. -/
  | loop (reg min : Nat) (max : Option Nat) (greedy : Bool) (exit : Nat)
  /-- The end of a repetition's body. -/
  | next (reg min head : Nat)
  /-- Consume between `min` and `max` elements whose joined text matches. -/
  | multi (min : Nat) (max : Option Nat) (text : Regex) (greedy : Bool)
  /-- Note an action, to be fired if the match is accepted. -/
  | mark (action : String) (target : Nat)
  | assert (a : Anchor)
  | accept

/-- A program: instructions, and the number of registers they use. -/
structure Program where
  /-- The instructions, by address. -/
  code : Array Instruction
  /-- The number of registers. -/
  registers : Nat

namespace Expr

/-- A repetition that is left out: it allows no iteration. -/
def isVoid (max : Option Nat) : Bool := max == some 0

/-- A repetition that is its body: it requires and allows one iteration. -/
def isOnce (min : Nat) (max : Option Nat) : Bool := min == 1 && max == some 1

mutual

/-- The number of instructions of an expression. -/
def width : Expr → Nat
  | node _ | backref _ | multi .. | anchor _ => 1
  | sequence es => widthOfAll es
  | choice es => widthOfChoice es
  | iterate e min max _ =>
    if isVoid max then 0 else if isOnce min max then e.width else e.width + 3
  | group e id _ => if id.isSome then e.width + 2 else e.width
  | action e _ _ => e.width + 1

/-- The number of instructions of several expressions in a row. -/
def widthOfAll : List Expr → Nat
  | [] => 0
  | e :: es => e.width + widthOfAll es

/-- The number of instructions of several alternatives; all but the last need two more. -/
def widthOfChoice : List Expr → Nat
  | [] => 0
  | [e] => e.width
  | e :: e' :: es => e.width + 2 + widthOfChoice (e' :: es)

end

mutual

/-- The number of registers of an expression. -/
def registers : Expr → Nat
  | node _ | backref _ | multi .. | anchor _ => 0
  | sequence es | choice es => registersOfAll es
  | iterate e min max _ =>
    if isVoid max then 0 else if isOnce min max then e.registers else e.registers + 1
  | group e _ _ | action e _ _ => e.registers

/-- The number of registers of several expressions. -/
def registersOfAll : List Expr → Nat
  | [] => 0
  | e :: es => e.registers + registersOfAll es

end

mutual

/-- The code of an expression at address `pc` with registers from `reg` on; `greedy` is the
preference of the enclosing repetitions. -/
def code (greedy : Bool) (pc reg : Nat) : Expr → List Instruction
  | node p => [.node p]
  | sequence es => codeOfAll greedy pc reg es
  | choice es => codeOfChoice greedy pc reg (pc + widthOfChoice es) es
  | iterate e min max own =>
    if isVoid max then []
    else if isOnce min max then e.code greedy pc reg
    else
      .enter reg :: .loop reg min max own (pc + e.width + 3) ::
        (e.code (own && greedy) (pc + 2) (reg + 1) ++ [.next reg min (pc + 1)])
  | group e none _ => e.code greedy pc reg
  | group e (some id) _ => .openGroup id :: (e.code greedy (pc + 1) reg ++ [.closeGroup id])
  | backref id => [.backref id]
  | multi min max text own => [.multi min max text (own && greedy)]
  | action e name target => e.code greedy pc reg ++ [.mark name target]
  | anchor a => [.assert a]

/-- The code of several expressions in a row. -/
def codeOfAll (greedy : Bool) (pc reg : Nat) : List Expr → List Instruction
  | [] => []
  | e :: es => e.code greedy pc reg ++ codeOfAll greedy (pc + e.width) (reg + e.registers) es

/-- The code of several alternatives, all of which continue at `exit`. -/
def codeOfChoice (greedy : Bool) (pc reg exit : Nat) : List Expr → List Instruction
  | [] => []
  | [e] => e.code greedy pc reg
  | e :: e' :: es =>
    .split (pc + 1) (pc + e.width + 2) :: (e.code greedy (pc + 1) reg ++ .jump exit ::
      codeOfChoice greedy (pc + e.width + 2) (reg + e.registers) exit (e' :: es))

end

end Expr

/-- The program of an expression. -/
def Program.lower (e : Expr) : Program where
  code := (e.code true 0 0 ++ [Instruction.accept]).toArray
  registers := e.registers

end Motif
