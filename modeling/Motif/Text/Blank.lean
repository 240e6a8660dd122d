import Motif.Unicode.Property

/-!
# Blanks in text

* `isBlank`: white space, as a property of characters.
* `trim`: a text without the blanks at its two ends.
* `words`: the maximal stretches of a text without blanks.
-/

namespace Motif

/-- White space characters. -/
def isBlank (c : Char) : Bool := Unicode.whiteSpace.contains c.toNat

/-- Drops the blanks at both ends. -/
def trim (cs : List Char) : List Char :=
  ((cs.dropWhile isBlank).reverse.dropWhile isBlank).reverse

/-- The stretches without blanks, the current one given backwards. -/
def wordsFrom (current : List Char) : List Char → List (List Char)
  | [] => if current.isEmpty then [] else [current.reverse]
  | c :: cs =>
    if isBlank c then
      if current.isEmpty then wordsFrom [] cs else current.reverse :: wordsFrom [] cs
    else wordsFrom (c :: current) cs

/-- The maximal stretches of a text without blanks. -/
def words (s : String) : List String := (wordsFrom [] s.toList).map String.ofList

end Motif
