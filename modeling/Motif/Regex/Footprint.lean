import Motif.Regex.Bytes
import Motif.Regex.Form
import Motif.Regex.Words
import Std.Data.HashMap

/-!
# How large the automata of an expression are

An expression is refused if one of two automata for it would take too much memory: the one that
reads a text forwards and keeps track of groups, and the one that reads it backwards. Nothing of
an automaton is built here but its size. States are numbered as they are added, because states for
bytes are shared by means of a table of fixed size, in which their numbers decide which of them
come to lie at one place and displace each other.

* `Footprint`: states, and bytes that are stored with them.
* `Direction`: reading forwards or backwards.
* `Layout`: what becomes of a step in an automaton.
* `Plan.lay?`: adds the states of an expression.
* `Form.fits`: both automata of a form keep within the limit.
-/

namespace Motif.Regex

/-! ## Sizes -/

/-- The size of an automaton. -/
structure Footprint where
  /-- The number of states. -/
  states : Nat := 0
  /-- The number of bytes stored besides the states. -/
  stored : Nat := 0

namespace Footprint

/-- The bytes of a state. -/
def stateBytes : Nat := 32

/-- The bytes of an edge over a range of bytes, where a state has several. -/
def edgeBytes : Nat := 8

/-- The bytes of an edge from a choosing state. -/
def choiceBytes : Nat := 4

/-- No automaton may take more bytes. -/
def limit : Nat := 0xA00000

/-- Adds states, and with them edges and choices, within the limit. -/
def add? (f : Footprint) (states edges choices : Nat) : Option Footprint :=
  let g : Footprint :=
    ⟨f.states + states, f.stored + edgeBytes * edges + choiceBytes * choices⟩
  if stateBytes * g.states + g.stored ≤ limit then some g else none

end Footprint

/-- An automaton after the states of a part were added. -/
structure Fragment where
  /-- Its size. -/
  size : Footprint
  /-- The part ends in a choosing state, which stores what it is followed by. -/
  choosing : Bool

/-- Lets something follow a part; `f` is the size after both were added. -/
def Fragment.link? (p : Fragment) (f : Footprint) : Option Footprint :=
  if p.choosing then f.add? 0 0 1 else some f

/-! ## Shared states -/

/-- An edge of a state over a range of bytes, with the number of the state that it leads to. -/
structure Edge where
  /-- The bytes. -/
  range : ByteRange
  /-- The state. -/
  target : Nat
deriving DecidableEq

/-- Mixes a number into a hash. -/
def mix (h n : UInt64) : UInt64 := (h ^^^ n) * 1099511628211

/-- The hash of nothing. -/
def mixStart : UInt64 := 14695981039346656037

/-- The place of a state in a table, by its edges. -/
def Edge.place (places : UInt64) (es : List Edge) : Nat :=
  (es.foldl (fun h e =>
    mix (mix (mix h e.range.lo.toUInt64) e.range.hi.toUInt64) (UInt64.ofNat e.target)) mixStart %
      places).toNat

/-- An automaton with a table of states that may be shared. Each place of the table holds the last
state that was put there. -/
structure Sharing where
  /-- The size of the automaton. -/
  size : Footprint
  /-- The table: the edges and the number of the state at a place. -/
  table : Std.HashMap Nat (List Edge × Nat) := {}

/-- A state with the given edges: the one in the table, or a new one that is put there. -/
def Sharing.fetch? (s : Sharing) (place : Nat) (es : List Edge)
    (add? : Footprint → Option Footprint) : Option (Nat × Sharing) :=
  let new? : Option (Nat × Sharing) :=
    match add? s.size with
    | some size => some (s.size.states, ⟨size, s.table.insert place (es, s.size.states)⟩)
    | none => none
  match s.table[place]? with
  | some (held, i) => if held = es then some (i, s) else new?
  | none => new?

/-- The number of places of the table that is used forwards. -/
def forwardPlaces : UInt64 := 10000

/-- The number of places of the table that is used backwards. -/
def backwardPlaces : UInt64 := 1000

/-- The edges from a place of a trie, after the states behind them were added from left to right.
Sequences end in the state `target`. -/
def ByteTrie.edges? (target : Nat) : ByteTrie → Sharing → Option (List Edge × Sharing)
  | done, s => some ([], s)
  | last r rest, s => do
    let (es, s) ← rest.edges? target s
    return (⟨r, target⟩ :: es, s)
  | next r child rest, s => do
    let (es, s) ← child.edges? target s
    let (i, s) ← s.fetch? (Edge.place forwardPlaces es) es (·.add? 1 es.length 0)
    let (es, s) ← rest.edges? target s
    return (⟨r, i⟩ :: es, s)

/-- The states of a class that is read forwards: the one behind it, those inside and its start. -/
def ByteTrie.lay? (t : ByteTrie) (f : Footprint) : Option Footprint := do
  let (es, s) ← t.edges? f.states ⟨← f.add? 1 0 0, {}⟩
  let (_, s) ← s.fetch? (Edge.place forwardPlaces es) es (·.add? 1 es.length 0)
  return s.size

/-- The states of a sequence of byte ranges that leads backwards to the state `target`, and the
number of its first state. -/
def laySequence? (target : Nat) : List ByteRange → Sharing → Option (Nat × Sharing)
  | [], s => some (target, s)
  | r :: rs, s =>
    let edge : Edge := ⟨r, target⟩
    let place := (mix (mix (mix mixStart (UInt64.ofNat target)) r.lo.toUInt64) r.hi.toUInt64 %
      backwardPlaces).toNat
    match s.fetch? place [edge] (·.add? 1 0 0) with
    | some (i, s) => laySequence? i rs s
    | none => none

/-- The states of several sequences, with a choice of them. -/
def laySequences? (target : Nat) : List (List ByteRange) → Sharing → Option Footprint
  | [], s => some s.size
  | seq :: seqs, s =>
    match laySequence? target seq s with
    | some (_, s) =>
      match s.size.add? 0 0 1 with
      | some size => laySequences? target seqs { s with size }
      | none => none
    | none => none

/-! ## Steps -/

/-- The two ways of reading a text. -/
inductive Direction where
  | forward
  | backward
deriving DecidableEq

/-- What becomes of a step in an automaton. -/
inductive Layout where
  /-- A literal text, as the bytes that are read. -/
  | word (bytes : List UInt8)
  /-- A class within ASCII, by the number of its intervals. -/
  | single (intervals : Nat)
  /-- A class that is read forwards. -/
  | trie (t : ByteTrie)
  /-- A class that is read backwards. -/
  | sequences (seqs : List (List ByteRange))

namespace Layout

/-- What becomes of a step of a normal form. -/
def ofLeaf (d : Direction) : Leaf → Layout
  | .literal cs =>
    let bytes := cs.flatMap String.utf8EncodeChar
    word (if d = .forward then bytes else bytes.reverse)
  | .chars s =>
    if s.isBelow 0x80 then single s.intervals.length
    else if d = .forward then trie (.ofSequences (byteSequences s))
    else sequences (byteSequences s)

/-- The least number of bytes that a step reads, if it can be taken at all. -/
def least? : Layout → Option Nat
  | word bytes => some bytes.length
  | single n => if n = 0 then none else some 1
  | trie t => some t.firstLength
  | sequences seqs => seqs.head?.map List.length

/-- The bytes of a literal text. -/
def word? : Layout → Option (List UInt8)
  | word bytes => some bytes
  | _ => none

/-- Adds the states of a step: a literal text has one for each byte, a class one at either end. -/
def lay? (l : Layout) (f : Footprint) : Option Footprint :=
  match l with
  | word bytes => f.add? bytes.length 0 0
  | single n => f.add? 2 n 0
  | trie t => t.lay? f
  | sequences seqs => do laySequences? (f.states + 1) seqs ⟨← f.add? 2 0 0, {}⟩

end Layout

/-! ## Choices between words -/

/-- Adds the states of the places of a tree of words. -/
def layPlaces? : List WordPlace → Footprint → Option Footprint
  | [], f => some f
  | p :: ps, f =>
    match f.add? p.states p.edges p.choices with
    | some f => layPlaces? ps f
    | none => none

/-- Adds the states of a choice between words: their common end, and the places of their tree. -/
def layWords? (ws : List (List UInt8)) (f : Footprint) : Option Footprint := do
  layPlaces? (WordTree.ofWords ws).inner (← f.add? 1 0 0)

/-! ## Repetitions -/

section Repetition

variable (lay? : Footprint → Option Fragment)

/-- Adds a part several times behind the fragment `p`. -/
def layCopies? : Nat → Fragment → Option Fragment
  | 0, p => some p
  | n + 1, p =>
    match lay? p.size with
    | none => none
    | some q =>
      match p.link? q.size with
      | none => none
      | some size => layCopies? n { q with size }

/-- Adds a part `n` times. -/
def layExactly? (n : Nat) (f : Footprint) : Option Fragment :=
  match n with
  | 0 => (f.add? 1 0 0).map (⟨·, false⟩)
  | n + 1 => do layCopies? lay? n (← lay? f)

/-- Adds a part that may be left out: a choice before it and an end behind it. -/
def layOptional? (f : Footprint) : Option Fragment := do
  let p ← lay? (← f.add? 1 0 0)
  return ⟨← p.link? (← p.size.add? 1 0 2), false⟩

/-- Adds a part at least `n` times. If the part may be empty, being left out is a choice apart from
being repeated. -/
def layAtLeast? (mayBeEmpty : Bool) (n : Nat) (f : Footprint) : Option Fragment :=
  match n with
  | 0 =>
    if mayBeEmpty then do
      let p ← lay? f
      return ⟨← p.link? (← p.size.add? 3 0 4), false⟩
    else do
      let p ← lay? (← f.add? 1 0 0)
      return ⟨← p.link? (← p.size.add? 0 0 1), true⟩
  | 1 => do
    let p ← lay? f
    return ⟨← p.link? (← p.size.add? 1 0 1), true⟩
  | n + 1 => do
    let p ← layExactly? lay? n f
    let q ← lay? p.size
    return ⟨← q.link? (← p.link? (← q.size.add? 1 0 1)), true⟩

/-- Adds a part up to `n` times behind the fragment `p`; each time it may be left out with all that
follows. -/
def layUpTo? : Nat → Fragment → Option Fragment
  | 0, p => (p.link? p.size).map (⟨·, false⟩)
  | n + 1, p =>
    match p.size.add? 1 0 2 with
    | none => none
    | some f =>
      match lay? f with
      | none => none
      | some q =>
        match p.link? q.size with
        | none => none
        | some size => layUpTo? n { q with size }

/-- Adds a part between `min` and `max` times. -/
def layBetween? (min max : Nat) (f : Footprint) : Option Fragment := do
  let p ← layExactly? lay? min f
  layUpTo? lay? (max - min) ⟨← p.size.add? 1 0 0, p.choosing⟩

/-- Adds a part that is repeated. -/
def layRepeated? (mayBeEmpty : Bool) (min : Nat) (max : Option Nat) (f : Footprint) :
    Option Fragment :=
  match max with
  | none => layAtLeast? lay? mayBeEmpty min f
  | some max =>
    if min = 0 ∧ max = 1 then layOptional? lay? f
    else if max ≤ min then layExactly? lay? min f
    else layBetween? lay? min max f

end Repetition

/-! ## Expressions -/

/-- An expression as it is laid out. -/
abbrev Plan := Tree Layout Look

namespace Plan

mutual

/-- The least number of bytes that a match has, if there can be one. -/
def least? : Plan → Option Nat
  | .step l => l.least?
  | .look _ => some 0
  | .seq ts => leastSum? ts
  | .alt ts => leastOf? ts
  | .iterate t min _ _ => (least? t).map (· * min)
  | .capture t => least? t

/-- The sum of the least numbers of bytes of several parts. -/
def leastSum? : List Plan → Option Nat
  | [] => some 0
  | t :: ts => do return (← least? t) + (← leastSum? ts)

/-- The smallest of the least numbers of bytes of several parts. -/
def leastOf? : List Plan → Option Nat
  | [] => none
  | [t] => least? t
  | t :: ts => do return Nat.min (← least? t) (← leastOf? ts)

end

/-- A step that is a literal text, as its bytes. -/
def word? : Plan → Option (List UInt8)
  | .step l => l.word?
  | _ => none

/-- The words of a choice between words alone. -/
def words? (ts : List Plan) : Option (List (List UInt8)) := ts.mapM word?

mutual

/-- Adds the states of an expression. Groups have two states of their own, forwards. -/
def lay? (d : Direction) : Plan → Footprint → Option Fragment
  | .step l, f => (l.lay? f).map (⟨·, false⟩)
  | .look _, f => (f.add? 1 0 0).map (⟨·, false⟩)
  | .seq ts, f => laySeq? d ts f
  | .alt ts, f =>
    match words? ts with
    | some ws => (layWords? ws f).map (⟨·, false⟩)
    | none => layAlt? d ts f
  | .iterate t min max _, f =>
    layRepeated? (lay? d t) ((least? t).all (· == 0)) min max f
  | .capture t, f =>
    if d = .backward then lay? d t f
    else do
      let p ← lay? d t (← f.add? 1 0 0)
      return ⟨← p.link? (← p.size.add? 1 0 0), false⟩

/-- Adds the states of parts that follow each other. -/
def laySeq? (d : Direction) : List Plan → Footprint → Option Fragment
  | [], f => (f.add? 1 0 0).map (⟨·, false⟩)
  | t :: ts, f => do laySeqFrom? d ts (← lay? d t f)

/-- Adds the states of parts that follow each other behind a fragment. -/
def laySeqFrom? (d : Direction) : List Plan → Fragment → Option Fragment
  | [], p => some p
  | t :: ts, p => do
    let q ← lay? d t p.size
    laySeqFrom? d ts { q with size := ← p.link? q.size }

/-- Adds the states of alternatives, of which there are several: the first two, a choice and a
common end, and the others. -/
def layAlt? (d : Direction) : List Plan → Footprint → Option Fragment
  | t :: u :: ts, f => do
    let p ← lay? d t f
    let q ← lay? d u p.size
    layAltFrom? d ts (← q.link? (← p.link? (← q.size.add? 2 0 2)))
  | _, f => (f.add? 1 0 0).map (⟨·, false⟩)

/-- Adds the states of further alternatives. -/
def layAltFrom? (d : Direction) : List Plan → Footprint → Option Fragment
  | [], f => some ⟨f, false⟩
  | t :: ts, f => do
    let p ← lay? d t f
    layAltFrom? d ts (← p.link? (← p.size.add? 0 0 1))

end

end Plan

namespace Form

mutual

/-- The expression as it is read in one direction: backwards, what follows comes first. -/
def plan (d : Direction) : Form → Plan
  | .step l => .step (.ofLeaf d l)
  | .look l => .look l
  | .seq ts => .seq (if d = .forward then plans d ts else (plans d ts).reverse)
  | .alt ts => .alt (plans d ts)
  | .iterate t min max greedy => .iterate (plan d t) min max greedy
  | .capture t => .capture (plan d t)

/-- Several expressions as they are read in one direction. -/
def plans (d : Direction) : List Form → List Plan
  | [] => []
  | t :: ts => plan d t :: plans d ts

end

/-- The place where reading begins is fixed. -/
def anchored (d : Direction) (t : Form) : Bool :=
  match d with
  | .forward => t.startsAtStart
  | .backward => t.endsAtEnd

/-- The size of the automaton of a whole expression, which begins anywhere or at the start, and ends
with the state of a match. -/
def footprint? (d : Direction) (t : Form) : Option Footprint := do
  let f : Footprint := {}
  let f ← if t.anchored d then f.add? 1 0 0 else f.add? 3 1 2
  let p ← Plan.lay? d (.capture (t.plan d)) f
  p.link? (← p.size.add? 1 0 0)

/-- Both automata of the expression keep within the limit. -/
def fits (t : Form) : Bool :=
  (t.footprint? .forward).isSome && (t.footprint? .backward).isSome

end Form

end Motif.Regex
