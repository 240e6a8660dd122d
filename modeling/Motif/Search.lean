import Motif.Machine.Run
import Motif.Match

/-!
# Searching

A search looks for one pattern in one sequence. It has a cursor, so that one match after the other
can be asked for, and counts what it does. Every operation answers with the state of the search
after it, and with what the caller is to be told: which functions were called and which actions
fire.

* `Options`, `Metrics`, `Event`: how to search, the counts, and what to tell the caller.
* `Search`: the state of a search.
* `Search.find`, `Search.findFrom`: the next match.
* `Search.matchWhole`, `Search.matchAt`: a match of the whole sequence, or at a position.
* `Search.findAll`: all matches.
-/

namespace Motif

/-- Where to look for the next match. -/
inductive FindType where
  /-- Behind the last match. -/
  | disjoint
  /-- At every start position behind that of the last match. -/
  | everyStart
deriving DecidableEq

/-- How to search. -/
structure Options where
  /-- Where to look for the next match. -/
  findType : FindType := .disjoint
  /-- The most steps that one operation may take. -/
  maxSteps : Option Nat := none

/-- The counts of a search. -/
structure Metrics where
  /-- Executed instructions. -/
  steps : Nat := 0
  /-- Choices taken up again. -/
  backtracks : Nat := 0
  /-- Start positions tried. -/
  attempts : Nat := 0
  /-- Matches found. -/
  found : Nat := 0
deriving DecidableEq

/-- The counts of two searches. -/
def Metrics.add (a b : Metrics) : Metrics :=
  ⟨a.steps + b.steps, a.backtracks + b.backtracks, a.attempts + b.attempts, a.found + b.found⟩

/-- What the caller is to be told. -/
inductive Event where
  /-- A function was called. -/
  | called (call : Call)
  /-- An action fires on a group of a match. -/
  | fired (action : String) (group : Nat) (m : Match)

/-- The state of a search. -/
structure Search where
  /-- The pattern. -/
  pattern : Pattern
  /-- The searched sequence. -/
  elements : Array Element
  /-- How to search. -/
  options : Options := {}
  /-- How to join the texts of elements. -/
  render : List Element → String := joinTexts
  /-- The first position to look at. -/
  cursor : Nat := 0
  /-- There was no match left. -/
  exhausted : Bool := false
  /-- The number of matches found by all operations. -/
  produced : Nat := 0
  /-- The counts. -/
  metrics : Metrics := {}
  /-- What the last run left behind. -/
  buffers : Buffers := {}

/-- The answer to an operation. -/
structure Answer where
  /-- A match if there is one, or a failure. -/
  result : Except MatchError (Option Match)
  /-- The search after the operation. -/
  search : Search
  /-- What the caller is to be told. -/
  events : List Event := []

/-- The end of trying one start position after the other. -/
structure Tried where
  /-- The start and the end of a match with the store at its end. -/
  result : Except MatchError (Option (Span × Store))
  /-- The number of positions tried. -/
  attempts : Nat
  /-- What it cost. -/
  account : Account
  /-- What the last run left behind. -/
  buffers : Buffers

/-- The spans of the groups according to the store at the end of a match. -/
def Store.spans (s : Store) (whole : Span) (groupCount : Nat) : List (Option Span) :=
  some whole :: (List.range' 1 (groupCount - 1)).map fun g =>
    match s.slot (2 * g), s.slot (2 * g + 1) with
    | some b, some e => if b ≤ e then some ⟨b, e⟩ else none
    | _, _ => none

/-- The payloads on a trail. -/
def Note.payloads (trail : List Note) : List (Nat × Value) :=
  trail.filterMap fun
    | .payload index value => some (index, value)
    | .fire .. => none

/-- The actions on a trail, with their groups. -/
def Note.actions (trail : List Note) : List (String × Nat) :=
  trail.filterMap fun
    | .payload .. => none
    | .fire action target => some (action, target)

namespace Search

variable (s : Search)

/-- The number of elements. -/
def length : Nat := s.elements.size

/-- Tries start positions until there is a match or a failure, under one limit on the number of
steps and with the same buffers. -/
def tryAll (stop : Option Nat) (attempts : Nat) (a : Account) (b : Buffers) : List Nat → Tried
  | [] => ⟨.ok none, attempts, a, b⟩
  | start :: more =>
    let r := s.pattern.attempt s.elements s.render stop s.options.maxSteps a start b
    match r.outcome with
    | some (.accepted stop' store) =>
      ⟨.ok (some (⟨start, stop'⟩, store)), attempts + 1, r.account, r.buffers⟩
    | some .rejected => tryAll stop (attempts + 1) r.account r.buffers more
    | some (.failed e) => ⟨.error (.predicate e), attempts + 1, r.account, r.buffers⟩
    | none =>
      ⟨.error (.stepLimit (s.options.maxSteps.getD 0)), attempts + 1, r.account, r.buffers⟩

/-- The match that ended with a store. -/
def result (span : Span) (store : Store) : Match where
  elements := s.elements
  spans := store.spans span s.pattern.groupCount
  names := s.pattern.names
  payloads := Note.payloads store.trail.toList
  render := s.render
  score := s.pattern.score
  order := s.produced

/-- Adds what trying some start positions cost, and keeps the buffers for the next time. -/
def charge (t : Tried) : Search :=
  { s with
    metrics := s.metrics.add ⟨t.account.steps, t.account.backtracks, t.attempts, 0⟩,
    buffers := t.buffers }

/-- The answer to trying start positions. A match is counted, and its actions fire in the order in
which they were reached. -/
def conclude (t : Tried) : Answer :=
  let s := s.charge t
  let calls := t.account.calls.toList.map Event.called
  match t.result with
  | .error e => ⟨.error e, s, calls⟩
  | .ok none => ⟨.ok none, s, calls⟩
  | .ok (some (span, store)) =>
    let m := s.result span store
    let s := { s with produced := s.produced + 1, metrics := s.metrics.add ⟨0, 0, 0, 1⟩ }
    let fired := (Note.actions store.trail.toList).map fun (action, group) =>
      Event.fired action group m
    ⟨.ok (some m), s, calls ++ fired⟩

/-- Tries start positions. -/
def attempts (stop : Option Nat) (starts : List Nat) : Answer :=
  s.conclude (s.tryAll stop 0 {} s.buffers starts)

/-- Where to look after a match. -/
def cursorAfter (m : Match) : Nat :=
  match s.options.findType with
  | .disjoint => if m.span.isEmpty then m.span.stop + 1 else m.span.stop
  | .everyStart => m.span.start + 1

/-- Moves the cursor behind the match of an answer, or takes note that there was none. -/
def settle (a : Answer) : Answer :=
  match a.result with
  | .error _ => a
  | .ok none => { a with search := { a.search with exhausted := true } }
  | .ok (some m) => { a with search := { a.search with cursor := s.cursorAfter m } }

/-- The next match at or after the cursor. -/
def find : Answer :=
  if s.exhausted then ⟨.error .exhausted, s, []⟩
  else s.settle (s.attempts none (List.range' s.cursor (s.length + 1 - s.cursor)))

/-- Searches from the start again. -/
def reset : Search := { s with cursor := 0, exhausted := false }

/-- The next match at or after a position. -/
def findFrom (pos : Nat) : Answer :=
  if s.length < pos then ⟨.error (.positionOutOfRange pos s.length), s, []⟩
  else { s with cursor := pos, exhausted := false }.find

/-- A match of the whole sequence. -/
def matchWhole : Answer := s.attempts (some s.length) [0]

/-- A match that starts at a position. -/
def matchAt (pos : Nat) : Answer :=
  if s.length < pos then ⟨.error (.positionOutOfRange pos s.length), s, []⟩
  else s.attempts none [pos]

/-- Several matches, in the order in which they were found. -/
structure Finds where
  /-- The matches. -/
  found : List Match := []
  /-- The failure that ended the search. -/
  error : Option MatchError := none
  /-- The search after the last operation. -/
  search : Search
  /-- What the caller is to be told. -/
  events : List Event := []

/-- The next matches, at most so many. The first failure ends the search. -/
def take : Nat → Search → Finds
  | 0, s => { search := s }
  | k + 1, s =>
    let a := s.find
    match a.result with
    | .error e => { error := some e, search := a.search, events := a.events }
    | .ok none => { search := a.search, events := a.events }
    | .ok (some m) =>
      let rest := take k a.search
      { rest with found := m :: rest.found, events := a.events ++ rest.events }

/-- All matches from the start of the sequence on; one question more than there are positions shows
that there are no more. -/
def findAll : Finds := take (s.length + 2) s.reset

/-- The first matches from the start of the sequence on, at most so many. -/
def findFirst (k : Nat) : Finds := take (min k (s.length + 2)) s.reset

end Search

end Motif
