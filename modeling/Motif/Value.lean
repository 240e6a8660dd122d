import Motif.Number.Reading
import Motif.Number.Shortest
import Motif.Text.Blank

/-!
# Attribute values

* `Value`: the value of an attribute, and the payload that a node function attaches to an element.
* `Value.text?`: the textual form, used by equality and regular expressions.
* `Value.number?`: the numeric form, used by relations.
* `Value.display`: the form shown to a reader.
-/

namespace Motif

/-- The value of an attribute. -/
inductive Value where
  /-- Present but without a value. -/
  | nil
  | bool (b : Bool)
  | number (x : Binary64)
  | text (s : String)
deriving DecidableEq

namespace Value

/-- Whole numbers below `10 ^ 15` are written as integers, zero without a sign. -/
def numberText (x : Binary64) : String :=
  if x.isFinite && x.isWhole && x.wholePart < 1000000000000000 then
    (if x.isNegative && x.wholePart != 0 then "-" else "") ++
      String.ofList (Nat.toDigits 10 x.wholePart)
  else x.toText

/-- The textual form; `nil` has none. -/
def text? : Value → Option String
  | nil => none
  | bool b => some (if b then "true" else "false")
  | number x => some (numberText x)
  | text s => some s

/-- The numeric form: a number, or a text that reads as one between blanks. -/
def number? : Value → Option Binary64
  | number x => some x
  | text s => Binary64.ofChars? (trim s.toList)
  | nil | bool _ => none

/-- There is no value. -/
def isNil : Value → Bool
  | nil => true
  | _ => false

/-- The textual form, and a word for `nil`. -/
def display (v : Value) : String := v.text?.getD "nil"

end Value

end Motif
