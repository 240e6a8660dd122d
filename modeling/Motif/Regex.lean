import Motif.Regex.Footprint
import Motif.Regex.Reader

/-!
# Tests of text by regular expressions

Which regular expressions there are and what they mean is the business of an engine. Patterns only
hand it sources and ask whether an expression matches in a text.

* `Regex`: a valid expression, with its source.
* `Regex.Engine`: which sources are valid, and what they mean.
* `Regex.Engine.standard`: the engine that is used unless another one is given.
* `Regex.ofSource?`: reads an expression.
* `Regex.wholeText?`: reads an expression that is to match a text as a whole. The source is put
  between anchors as it stands, so it is valid when the result is.
-/

namespace Motif

/-- A valid regular expression. -/
structure Regex where
  /-- Its source. -/
  source : String
  /-- It matches somewhere in a text. -/
  matchesIn : String → Bool

namespace Regex

/-- An engine for regular expressions. -/
structure Engine where
  /-- In which texts the expression matches, if it is valid; with `caseless` case does not count
  from the start. -/
  test? (source : String) (caseless : Bool) : Option (String → Bool)

/-- The engine that reads expressions into trees. Those with properties for which there is no table,
or with too large automata, are not valid. -/
def Engine.standard : Engine where
  test? source caseless :=
    match readTree? { caseless } source.toList with
    | some tree => if (normalForm tree).fits then some fun s => tree.occursIn s.toList else none
    | none => none

/-- Reads an expression. -/
def ofSource? (source : String) (caseless : Bool) (engine : Engine := .standard) : Option Regex :=
  (engine.test? source caseless).map fun matchesIn => ⟨source, matchesIn⟩

/-- The source between anchors. -/
def anchored (source : String) : String := "^(?:" ++ source ++ ")$"

/-- Reads an expression that is to match a text as a whole. -/
def wholeText? (source : String) (caseless : Bool) (engine : Engine := .standard) :
    Option Regex :=
  ofSource? (anchored source) caseless engine

end Regex

end Motif
