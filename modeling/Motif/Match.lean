import Motif.Node
import Motif.GroupNames
import Motif.Number.Binary64
import Motif.Span

/-!
# Matches

A match is a snapshot: it knows the sequence it was found in, where its groups lie and what the
functions of the caller attached to its elements.

* `Match`: a match.
* `GroupRef`: a group, or what precedes or follows the match.
* `MatchError`: the reasons for which a search or a look-up in a match fails.
* `Match.groupSpan`, `Match.varSpan`: where groups lie.
* `Match.payload?`: what was attached to an element.
-/

namespace Motif

/-- The texts of elements, with a blank between two of them. -/
def joinTexts (es : List Element) : String := " ".intercalate (es.map Element.text)

/-- A match. -/
structure Match where
  /-- The searched sequence. -/
  elements : Array Element
  /-- The span of each group that took part, the whole match first. -/
  spans : List (Option Span)
  /-- The names of the groups. -/
  names : GroupNames := []
  /-- Payloads with the positions of their elements. -/
  payloads : List (Nat × Value) := []
  /-- How to join the texts of elements. -/
  render : List Element → String := joinTexts
  /-- The score of the pattern. -/
  score : Binary64 := .zero
  /-- The number of matches found before. -/
  order : Nat := 0
  /-- The number of the pattern. -/
  pattern : Nat := 0

/-- A part of the sequence, as seen from a match. -/
inductive GroupRef where
  /-- A group; group 0 is the whole match. -/
  | index (id : Nat)
  /-- What precedes the match. -/
  | before
  /-- What follows the match. -/
  | after
deriving DecidableEq

/-- The failures of searches and of look-ups in a match. -/
inductive MatchError where
  | groupOutOfRange (group count : Nat)
  /-- There was no match left in an earlier search. -/
  | exhausted
  | positionOutOfRange (pos len : Nat)
  | stepLimit (limit : Nat)
  /-- A function of the caller failed. -/
  | predicate (e : PredicateError)
deriving DecidableEq

/-- The wording of a failure. -/
def MatchError.text : MatchError → String
  | groupOutOfRange group count =>
    "group " ++ toString group ++ " is out of range (pattern has " ++ toString count ++ " groups)"
  | exhausted => "matcher is exhausted; call reset() before searching again"
  | positionOutOfRange pos len =>
    "start position " ++ toString pos ++ " is past the end of a " ++ toString len ++
      "-element sequence"
  | stepLimit limit => "search exceeded the step budget of " ++ toString limit
  | predicate e => e.text

namespace Match

variable (m : Match)

/-- The span of the whole match. -/
def span : Span := m.spans.head?.join.getD ⟨0, 0⟩

/-- The number of groups, the whole match included. -/
def groupCount : Nat := m.spans.length

/-- The elements of a span. -/
def slice (s : Span) : List Element := (m.elements.extract s.start s.stop).toList

/-- The joined texts of a span. -/
def textOf (s : Span) : String := m.render (m.slice s)

/-- The joined texts of the match. -/
def text : String := m.textOf m.span

/-- The span of a group, if the group took part. -/
def groupSpan : GroupRef → Except MatchError (Option Span)
  | .index id =>
    match m.spans[id]? with
    | some s => .ok s
    | none => .error (.groupOutOfRange id m.groupCount)
  | .before => .ok (some ⟨0, m.span.start⟩)
  | .after => .ok (some ⟨m.span.stop, m.elements.size⟩)

/-- The joined texts of a group, if the group took part. -/
def groupText (g : GroupRef) : Except MatchError (Option String) :=
  (m.groupSpan g).map (·.map m.textOf)

/-- The span of a name: that of its first group that took part. -/
def varSpan (name : String) : Option Span :=
  (m.names.ids name).findSome? fun id => m.spans[id]?.join

/-- The joined texts of a name. -/
def varText (name : String) : Option String := (m.varSpan name).map m.textOf

/-- What a function of the caller attached to an element of the match. -/
def payload? (index : Nat) : Option Value := m.payloads.lookup index

end Match

end Motif
