import Motif.Machine.Store
import Motif.Program

/-!
# Steps of the machine

The machine executes the program of a pattern over a sequence of elements. Where there is a choice
it goes on with the preferred one and puts the other on a stack; after a failure it restores the
store that belongs to the choice on top of the stack and goes on there.

* `Choice`, `Config`: choices and configurations.
* `Buffers`: what one run leaves behind and the next one uses again.
* `Task`: all that stays the same during a run.
* `Task.backtrack`: goes on after a failure.
* `Task.step`: executes one instruction.
-/

namespace Motif

/-- How to go on at a choice. -/
inductive Resume where
  /-- At an address. -/
  | goto (pc : Nat)
  /-- With one more iteration of the repetition whose head is at an address. -/
  | iterate (head reg : Nat)
  /-- With the next length of the run of elements at an address, from a length on. -/
  | retry (pc len : Nat)
deriving DecidableEq

/-- A choice that is still open. -/
structure Choice where
  /-- How to go on. -/
  resume : Resume
  /-- The position to go on from. -/
  pos : Nat
  /-- The length of the undo log at the choice. -/
  undoLength : Nat
  /-- The length of the trail at the choice. -/
  trailLength : Nat
deriving DecidableEq

/-- The state of a run. -/
structure Config where
  /-- The address of the next instruction. -/
  pc : Nat
  /-- The position of the next element. -/
  pos : Nat
  /-- The store. -/
  store : Store
  /-- The open choices, the latest one first. -/
  stack : List Choice

/-- The buffers of the machine. Every run uses those that the last one left behind. -/
structure Buffers where
  /-- The store. -/
  store : Store := .initial 0 0
  /-- The open choices, the latest one first. -/
  stack : List Choice := []

/-- Clears the buffers, whatever they hold, for so many groups and registers. -/
def Buffers.reset (b : Buffers) (groups registers : Nat) : Buffers :=
  { store := b.store.reset groups registers, stack := [] }

/-- The buffers of a run. -/
def Config.buffers (c : Config) : Buffers := ⟨c.store, c.stack⟩

/-- All that stays the same during a run. -/
structure Task where
  /-- The program. -/
  program : Program
  /-- The searched sequence. -/
  elements : Array Element
  /-- How to join the texts of elements. -/
  render : List Element → String
  /-- Where the match has to end. -/
  stop : Option Nat := none

/-- How a run ends. -/
inductive Outcome where
  /-- There is a match, which ends at `stop`. -/
  | accepted (stop : Nat) (store : Store)
  | rejected
  /-- A function of the caller failed. -/
  | failed (e : PredicateError)

/-- Whether a run goes on. -/
inductive Progress where
  | running (c : Config)
  | finished (o : Outcome)

/-- The result of a step. -/
structure Step where
  /-- Whether the run goes on. -/
  progress : Progress
  /-- The number of choices taken from the stack. -/
  backtracks : Nat := 0
  /-- The calls of functions. -/
  calls : List Call := []
  /-- What a run that ends here leaves behind. -/
  left : Buffers := {}

/-- The lengths from `lo` to `hi`, the preferred ones first. -/
def spanLengths (lo hi : Nat) (greedy : Bool) : List Nat :=
  let lengths := List.range' lo (hi + 1 - lo)
  if greedy then lengths.reverse else lengths

namespace Config

variable (c : Config)

/-- A choice at this point. -/
@[inline] def choice (r : Resume) : Choice := ⟨r, c.pos, c.store.undo.size, c.store.trail.size⟩

/-- Leaves a choice behind. -/
@[inline] def push (r : Resume) : Config := { c with stack := c.choice r :: c.stack }

/-- Goes on behind an instruction that consumed `k` elements. -/
@[inline] def advance (k : Nat) : Config := { c with pc := c.pc + 1, pos := c.pos + k }

/-- Goes on behind a run of `len` elements, and leaves a choice of the lengths after it. -/
def takeSpan (min : Nat) (greedy : Bool) (len : Nat) : Config :=
  if greedy then
    if min < len then (c.push (.retry c.pc (len - 1))).advance len else c.advance len
  else (c.push (.retry c.pc (len + 1))).advance len

end Config

namespace Task

variable (t : Task)

/-- The elements of a run. -/
def slice (pos len : Nat) : List Element := (t.elements.extract pos (pos + len)).toList

/-- The most elements that a run can have. -/
def reach (pos : Nat) (max : Option Nat) : Nat :=
  let room := t.elements.size - pos
  max.elim room (min · room)

/-- The preferred length of a run whose text matches; `bound` is the first length to try. -/
def spanLength? (pos min : Nat) (max : Option Nat) (text : Regex) (greedy : Bool)
    (bound : Option Nat) : Option Nat :=
  let reach := t.reach pos max
  let lengths :=
    if greedy then spanLengths min (bound.elim reach (Min.min · reach)) true
    else spanLengths (bound.elim min (Max.max · min)) reach false
  lengths.find? fun len => text.matchesIn (t.render (t.slice pos len))

/-- What a choice that was made at a position has left to offer: a way to go on from the
configuration at the time of the choice. -/
def offer? (pos : Nat) : Resume → Option (Config → Config)
  | .goto pc => some fun c => { c with pc }
  | .iterate head reg =>
    some fun c => { c with pc := head + 1, store := c.store.beginIteration reg pos }
  | .retry pc len =>
    match t.program.code[pc]? with
    | some (.multi min max text greedy) =>
      (t.spanLength? pos min max text greedy (some len)).map fun l c =>
        { c with pc }.takeSpan min greedy l
    | _ => none

/-- Goes on after a failure, at the latest choice that has anything left to offer. -/
def backtrack (s : Store) : List Choice → Step
  | [] => { progress := .finished .rejected, left := ⟨s, []⟩ }
  | ch :: stack =>
    let s := s.rollback ch.undoLength ch.trailLength
    match t.offer? ch.pos ch.resume with
    | some go => { progress := .running (go ⟨0, ch.pos, s, stack⟩), backtracks := 1 }
    | none =>
      let st := backtrack s stack
      { st with backtracks := st.backtracks + 1 }

/-- The current instruction failed. -/
def fail (c : Config) : Step := t.backtrack c.store c.stack

/-- Goes on in a configuration if there is one. -/
def proceed (c : Config) : Option Config → Step
  | some c' => { progress := .running c' }
  | none => t.fail c

/-- Tests the element at the current position. -/
def testNode (c : Config) (p : NodePattern) : Step :=
  match t.elements[c.pos]? with
  | none => t.fail c
  | some e =>
    let r := p.test e
    match r.verdict with
    | .error err => { progress := .finished (.failed err), calls := r.calls, left := c.buffers }
    | .ok .reject => { t.fail c with calls := r.calls }
    | .ok .accept => { progress := .running (c.advance 1), calls := r.calls }
    | .ok (.acceptWith v) =>
      { progress := .running { c.advance 1 with store := c.store.note (.payload c.pos v) },
        calls := r.calls }

/-- The length of a back reference that the elements at a position repeat. -/
def repeated? (s : Store) (pos id : Nat) : Option Nat :=
  match s.slot (2 * id), s.slot (2 * id + 1) with
  | some b, some e =>
    let len := e - b
    if b ≤ e ∧ pos + len ≤ t.elements.size ∧
        (t.slice b len).map Element.text = (t.slice pos len).map Element.text
    then some len else none
  | _, _ => none

/-- The assertion holds at a position. -/
def asserts (pos : Nat) : Anchor → Bool
  | .start => pos == 0
  | .stop => pos == t.elements.size

/-- The head of a repetition. -/
def iteration (c : Config) (reg min : Nat) (max : Option Nat) (greedy : Bool) (exit : Nat) :
    Config :=
  let count := (c.store.counter reg).count
  let body (c : Config) : Config := { c.advance 0 with store := c.store.beginIteration reg c.pos }
  if count < min then body c
  else if max = some count then { c with pc := exit }
  else if greedy then body (c.push (.goto exit))
  else { c.push (.iterate c.pc reg) with pc := exit }

/-- The end of an iteration. Beyond the minimum an iteration must consume something. -/
def endIteration (c : Config) (reg min head : Nat) : Step :=
  let ⟨count, start⟩ := c.store.counter reg
  if c.pos = start ∧ min ≤ count then t.fail c
  else
    { progress :=
        .running { c with pc := head, store := c.store.setCounter reg ⟨count + 1, start⟩ } }

/-- Executes an instruction. -/
def execute (c : Config) : Instruction → Step
  | .node p => t.testNode c p
  | .split primary alternate =>
    { progress := .running { c.push (.goto alternate) with pc := primary } }
  | .jump target => { progress := .running { c with pc := target } }
  | .openGroup id =>
    let store := (c.store.setSlot (2 * id) (some c.pos)).setSlot (2 * id + 1) none
    { progress := .running { c.advance 0 with store } }
  | .closeGroup id =>
    { progress :=
        .running { c.advance 0 with store := c.store.setSlot (2 * id + 1) (some c.pos) } }
  | .backref id => t.proceed c ((t.repeated? c.store c.pos id).map fun k => c.advance k)
  | .enter reg =>
    { progress := .running { c.advance 0 with store := c.store.setCounter reg ⟨0, c.pos⟩ } }
  | .loop reg min max greedy exit =>
    { progress := .running (iteration c reg min max greedy exit) }
  | .next reg min head => t.endIteration c reg min head
  | .multi min max text greedy =>
    t.proceed c ((t.spanLength? c.pos min max text greedy none).map (c.takeSpan min greedy))
  | .mark action target =>
    { progress := .running { c.advance 0 with store := c.store.note (.fire action target) } }
  | .assert a => t.proceed c (if t.asserts c.pos a then some (c.advance 0) else none)
  | .accept =>
    if t.stop.all (· == c.pos) then
      { progress := .finished (.accepted c.pos c.store), left := c.buffers }
    else t.fail c

/-- Executes the next instruction. -/
def step (c : Config) : Step :=
  match t.program.code[c.pc]? with
  | some i => t.execute c i
  | none => t.fail c

end Task

end Motif
