import Motif.Program

/-!
# Listings

An expression is lowered in one walk, which appends one instruction after the other. Predicates,
texts and actions are kept in tables beside the instructions, which refer to them by number, and
registers are numbered by a counter. Where an instruction goes on at an address that is not known
yet, it is appended with address 0, and replaced once the code in between has been appended.

* `Entry`, `Listing`: instructions that refer to tables, and the tables.
* `Listing.emitExpr`: appends the code of an expression.
* `Listing.lower`: the listing of an expression.
* `Listing.link`: the program that a listing stands for, if its tables hold all that it refers to.
-/

namespace Motif

/-- One instruction. Addresses, registers and what is kept in tables are numbers. -/
inductive Entry where
  /-- Consume one element that satisfies a predicate of the table. -/
  | node (index : Nat)
  /-- Continue at `primary`; after a failure, at `alternate`. -/
  | split (primary alternate : Nat)
  | jump (target : Nat)
  | openGroup (id : Nat)
  | closeGroup (id : Nat)
  | backref (id : Nat)
  /-- Begin counting in a register. -/
  | enter (reg : Nat)
  /-- The head of a repetition: its body follows, and `exit` comes after it. -/
  | loop (reg min : Nat) (max : Option Nat) (greedy : Bool) (exit : Nat)
  /-- The end of a repetition's body. -/
  | next (reg min head : Nat)
  /-- Consume between `min` and `max` elements whose joined text matches a text of the table. -/
  | multi (min : Nat) (max : Option Nat) (text : Nat) (greedy : Bool)
  /-- Note an action of the table, to be fired if the match is accepted. -/
  | mark (action target : Nat)
  | assert (a : Anchor)
  | accept

/-- Instructions with the tables that they refer to. -/
structure Listing where
  /-- The instructions, by address. -/
  entries : Array Entry := #[]
  /-- The predicates. -/
  nodes : Array NodePattern := #[]
  /-- The texts of runs of elements. -/
  texts : Array Regex := #[]
  /-- The names of the actions. -/
  actions : Array String := #[]
  /-- The number of registers that have been handed out. -/
  registers : Nat := 0

namespace Listing

variable (l : Listing)

/-- The address of the instruction that is appended next. -/
def here : Nat := l.entries.size

/-- Appends an instruction. -/
def emit (x : Entry) : Listing := { l with entries := l.entries.push x }

/-- Replaces the instruction at an address. -/
def patch (pc : Nat) (x : Entry) : Listing :=
  { l with entries := l.entries.setIfInBounds pc x }

/-- Replaces the instructions at several addresses, all by the same one. -/
def patchAll (pcs : List Nat) (x : Entry) : Listing := pcs.foldl (fun l pc => l.patch pc x) l

mutual

/-- Appends the code of an expression. `greedy` is the preference of the enclosing repetitions. -/
def emitExpr (l : Listing) (greedy : Bool) : Expr → Listing
  | .node p => { l with nodes := l.nodes.push p }.emit (.node l.nodes.size)
  | .sequence es => l.emitAll greedy es
  | .choice es =>
    let (l, exits) := l.emitChoice greedy es
    l.patchAll exits (.jump l.here)
  | .iterate e min max own =>
    if Expr.isVoid max then l
    else if Expr.isOnce min max then l.emitExpr greedy e
    else
      let reg := l.registers
      let l := { l with registers := reg + 1 }.emit (.enter reg)
      let head := l.here
      let l := (l.emit (.loop reg min max own 0)).emitExpr (own && greedy) e
      let l := l.emit (.next reg min head)
      l.patch head (.loop reg min max own l.here)
  | .group e none _ => l.emitExpr greedy e
  | .group e (some id) _ => ((l.emit (.openGroup id)).emitExpr greedy e).emit (.closeGroup id)
  | .backref id => l.emit (.backref id)
  | .multi min max text own =>
    { l with texts := l.texts.push text }.emit (.multi min max l.texts.size (own && greedy))
  | .action e name target =>
    let l := l.emitExpr greedy e
    { l with actions := l.actions.push name }.emit (.mark l.actions.size target)
  | .anchor a => l.emit (.assert a)

/-- Appends the code of several expressions in a row. -/
def emitAll (l : Listing) (greedy : Bool) : List Expr → Listing
  | [] => l
  | e :: es => (l.emitExpr greedy e).emitAll greedy es

/-- Appends the code of several alternatives, with the addresses of the jumps behind all but the
last one, whose target is not known yet. -/
def emitChoice (l : Listing) (greedy : Bool) : List Expr → Listing × List Nat
  | [] => (l, [])
  | [e] => (l.emitExpr greedy e, [])
  | e :: e' :: es =>
    let split := l.here
    let l := l.emit (.split 0 0)
    let primary := l.here
    let l := l.emitExpr greedy e
    let exit := l.here
    let l := l.emit (.jump 0)
    let l := l.patch split (.split primary l.here)
    let (l, exits) := l.emitChoice greedy (e' :: es)
    (l, exit :: exits)

end

/-- The listing of an expression. -/
def lower (e : Expr) : Listing := (({} : Listing).emitExpr true e).emit .accept

/-- The instruction that an entry stands for, if the tables hold what it refers to. -/
def resolve : Entry → Option Instruction
  | .node index => l.nodes[index]?.map .node
  | .split primary alternate => some (.split primary alternate)
  | .jump target => some (.jump target)
  | .openGroup id => some (.openGroup id)
  | .closeGroup id => some (.closeGroup id)
  | .backref id => some (.backref id)
  | .enter reg => some (.enter reg)
  | .loop reg min max greedy exit => some (.loop reg min max greedy exit)
  | .next reg min head => some (.next reg min head)
  | .multi min max text greedy => l.texts[text]?.map fun text => .multi min max text greedy
  | .mark action target => l.actions[action]?.map fun action => .mark action target
  | .assert a => some (.assert a)
  | .accept => some .accept

/-- The program that a listing stands for, if the tables hold all that it refers to. -/
def link : Option Program :=
  (l.entries.toList.mapM l.resolve).map fun code => ⟨code.toArray, l.registers⟩

end Listing

end Motif
