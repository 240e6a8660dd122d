import Motif.Session

/-!
# Groups in machine words

Numbers of groups are words, and so are the numbers of the slots in which the machine keeps them.
Trees that are made by hand may number their groups as they like. Where a number is too large for a
word the program stops, or goes on with what is left of it; it also stops where a table would be too
large, or does not have the slot of a group. No operation gives an answer if the program stops.

* `Arithmetic`, `Arithmetic.word?`: numbers that are too large for a word.
* `Expr.renumber?`, `Expr.shiftGroups?`, `Pattern.ofExpr?`: trees.
* `Task.run?`, `Pattern.attempt?`: runs.
* `Search.attempts?`, `Search.find?`, `Search.findFrom?`, `Search.matchWhole?`, `Search.matchAt?`,
  `Search.findAll?`, `Search.perform?`: operations.
* `Search.sessionInWords`: sessions.
-/

namespace Motif

/-- Words are below this number. -/
def wordBound : Nat := UInt64.size

/-- What becomes of numbers that are too large for a word. -/
inductive Arithmetic where
  /-- The program stops. -/
  | checked
  /-- Multiples of the bound are left out. -/
  | wrapping
deriving DecidableEq

namespace Arithmetic

/-- A number as a word. -/
def word? (a : Arithmetic) (n : Nat) : Option Nat :=
  if n < wordBound then some n
  else match a with
    | checked => none
    | wrapping => some (n % wordBound)

/-- The group in whose slots a group is kept. Slot `2 * id` is where group `id` begins. -/
def slotGroup? (a : Arithmetic) (id : Nat) : Option Nat := (a.word? (2 * id)).map (· / 2)

end Arithmetic

/-- The most bytes of a table. -/
def maxBytes : Nat := wordBound / 2 - 1

/-- The most slots of a table, each of which takes 16 bytes. -/
def maxSlots : Nat := maxBytes / 16

/-- The most groups of a match, each of which takes 24 bytes. -/
def maxSpans : Nat := maxBytes / 24

/-! ## Trees -/

namespace Expr

mutual

/-- Replaces the numbers of groups, where they are declared and in references to them, and the
targets of actions. -/
def renumber? (number? target? : Nat → Option Nat) : Expr → Option Expr
  | node p => some (node p)
  | sequence es => (renumberAll? number? target? es).map sequence
  | choice es => (renumberAll? number? target? es).map choice
  | iterate e min max greedy =>
    (e.renumber? number? target?).map (iterate · min max greedy)
  | group e none name => (e.renumber? number? target?).map (group · none name)
  | group e (some id) name => do
    return group (← e.renumber? number? target?) (some (← number? id)) name
  | backref id => (number? id).map backref
  | multi min max text greedy => some (multi min max text greedy)
  | action e name target => do
    return action (← e.renumber? number? target?) name (← target? target)
  | anchor a => some (anchor a)

/-- Replaces the numbers of groups in several expressions. -/
def renumberAll? (number? target? : Nat → Option Nat) : List Expr → Option (List Expr)
  | [] => some []
  | e :: es => do
    return (← e.renumber? number? target?) :: (← renumberAll? number? target? es)

end

/-- Adds `k` to the numbers of all groups and to all references to them, in words. -/
def shiftGroups? (a : Arithmetic) (k : Nat) (e : Expr) : Option Expr :=
  (e.shiftGroups k).renumber? a.word? a.word?

end Expr

/-- A pattern from an expression whose groups are already numbered. The number of groups is one
more than the largest of them, as a word. -/
def Pattern.ofExpr? (a : Arithmetic) (source : String) (root : Expr) :
    Option (Except CompileError Pattern) :=
  (a.word? (groupBound root.groups)).map (ofCounted source root)

/-! ## Runs -/

/-- An instruction uses a slot that is not among so many. -/
def Instruction.lacksSlot (slots : Nat) : Instruction → Bool
  | openGroup id | closeGroup id | backref id => slots ≤ 2 * id + 1
  | _ => false

/-- Runs the program, as long as there are slots for the groups of its instructions. -/
def Task.run? (t : Task) (limit : Option Nat) (account : Account) (c : { c : Config // t.Halts c }) :
    Option Ran :=
  if limit.any (· < account.steps + 1) then
    some ⟨none, { account with steps := account.steps + 1 }, c.1.buffers⟩
  else if t.program.code[c.1.pc]?.any (·.lacksSlot c.1.store.slots.size) then none
  else
    let st := t.step c.1
    match h : st.progress with
    | .running c' => run? t limit (account.add st) ⟨c', c.2.next h⟩
    | .finished o => some ⟨some o, account.add st, st.left⟩
termination_by c
decreasing_by exact h

namespace Pattern

variable (p : Pattern)

/-- The same pattern with its groups under other numbers. -/
def renumbered (root : Expr) (groupCount : Nat) : Pattern :=
  (build p.source root p.names groupCount).withScore p.score

variable (elements : Array Element) (render : List Element → String) (stop limit : Option Nat)
  (account : Account) (start : Nat) (b : Buffers)

/-- Matches a pattern from a position on, as long as its groups have slots. -/
def attemptInSlots? : Option Ran :=
  (p.task elements render stop).run? limit account
    ⟨p.entry start b, p.halts_entry elements render stop start b⟩

/-- Matches a pattern from a position on, if a table of its slots can be laid out. -/
def attempt? (a : Arithmetic) : Option Ran := do
  let slots ← (a.word? (2 * p.groupCount)).filter (· ≤ maxSlots)
  let root ← p.root.renumber? a.slotGroup? some
  (p.renumbered root (slots / 2)).attemptInSlots? elements render stop limit account start b

end Pattern

/-! ## Operations -/

namespace Search

variable (a : Arithmetic) (s : Search)

/-- Tries start positions. A match needs room for the spans of its groups. -/
def tryAll? (stop : Option Nat) (attempts : Nat) (account : Account) (b : Buffers) :
    List Nat → Option Tried
  | [] => some ⟨.ok none, attempts, account, b⟩
  | start :: more => do
    let r ← s.pattern.attempt? s.elements s.render stop s.options.maxSteps account start b a
    match r.outcome with
    | some (.accepted stop' store) =>
      if s.pattern.groupCount ≤ maxSpans then
        some ⟨.ok (some (⟨start, stop'⟩, store)), attempts + 1, r.account, r.buffers⟩
      else none
    | some .rejected => tryAll? stop (attempts + 1) r.account r.buffers more
    | some (.failed e) => some ⟨.error (.predicate e), attempts + 1, r.account, r.buffers⟩
    | none =>
      some ⟨.error (.stepLimit (s.options.maxSteps.getD 0)), attempts + 1, r.account, r.buffers⟩

/-- Tries start positions, and answers. -/
def attempts? (stop : Option Nat) (starts : List Nat) : Option Answer :=
  (s.tryAll? a stop 0 {} s.buffers starts).map s.conclude

/-- The next match at or after the cursor. -/
def find? : Option Answer :=
  if s.exhausted then some ⟨.error .exhausted, s, []⟩
  else (s.attempts? a none (List.range' s.cursor (s.length + 1 - s.cursor))).map s.settle

/-- The next match at or after a position. -/
def findFrom? (pos : Nat) : Option Answer :=
  if s.length < pos then some ⟨.error (.positionOutOfRange pos s.length), s, []⟩
  else { s with cursor := pos, exhausted := false }.find? a

/-- A match of the whole sequence. -/
def matchWhole? : Option Answer := s.attempts? a (some s.length) [0]

/-- A match that starts at a position. -/
def matchAt? (pos : Nat) : Option Answer :=
  if s.length < pos then some ⟨.error (.positionOutOfRange pos s.length), s, []⟩
  else s.attempts? a none [pos]

/-- The next matches, at most so many. -/
def take? : Nat → Search → Option Finds
  | 0, s => some { search := s }
  | k + 1, s => do
    let answer ← s.find? a
    match answer.result with
    | .error e => some { error := some e, search := answer.search, events := answer.events }
    | .ok none => some { search := answer.search, events := answer.events }
    | .ok (some m) => do
      let rest ← take? k answer.search
      some { rest with found := m :: rest.found, events := answer.events ++ rest.events }

/-- All matches from the start of the sequence on. -/
def findAll? : Option Finds := take? a (s.length + 2) s.reset

/-- The first matches from the start of the sequence on, at most so many. -/
def findFirst? (k : Nat) : Option Finds := take? a (min k (s.length + 2)) s.reset

/-- The answer to an operation. -/
def perform? : Operation → Option Finds
  | .find => (s.find? a).map .ofAnswer
  | .findFrom pos => (s.findFrom? a pos).map .ofAnswer
  | .matchWhole => (s.matchWhole? a).map .ofAnswer
  | .matchAt pos => (s.matchAt? a pos).map .ofAnswer
  | .findAll none => s.findAll? a
  | .findAll (some k) => s.findFirst? a k
  | .reset => some { search := s.reset }
  | .setOptions options => some { search := { s with options } }
  | .setRender render => some { search := { s with render } }

/-- The answers to operations, one after the other. The session ends where the program stops. -/
def sessionInWords (s : Search) : List Operation → List Finds
  | [] => []
  | op :: ops =>
    match s.perform? a op with
    | some f => f :: f.search.sessionInWords ops
    | none => []

end Search

end Motif
