import Motif.Unicode.Letter
import Motif.Unicode.Numeral
import Motif.Unicode.Punctuation

/-!
# General categories

Every code point has one general category. The classes that patterns ask for are single
categories or the groups that share a first letter, such as all letters.

* `Category`: the categories of characters; surrogates are not characters.
* `Category.chars`, `ofCategories`: the characters of a category, and of several.
* `isLetter`, `isNumber`: the groups that names are made of.
-/

namespace Motif.Unicode

/-- The general categories of characters. -/
inductive Category where
  | uppercaseLetter | lowercaseLetter | titlecaseLetter | modifierLetter | otherLetter
  | nonspacingMark | spacingMark | enclosingMark
  | decimalNumber | letterNumber | otherNumber
  | connectorPunctuation | dashPunctuation | openPunctuation | closePunctuation
  | initialPunctuation | finalPunctuation | otherPunctuation
  | mathSymbol | currencySymbol | modifierSymbol | otherSymbol
  | spaceSeparator | lineSeparator | paragraphSeparator
  | control | format | privateUse | unassigned
deriving DecidableEq, Repr

namespace Category

/-- The categories of assigned characters. -/
def assigned : List Category :=
  [uppercaseLetter, lowercaseLetter, titlecaseLetter, modifierLetter, otherLetter, nonspacingMark,
    spacingMark, enclosingMark, decimalNumber, letterNumber, otherNumber, connectorPunctuation,
    dashPunctuation, openPunctuation, closePunctuation, initialPunctuation, finalPunctuation,
    otherPunctuation, mathSymbol, currencySymbol, modifierSymbol, otherSymbol, spaceSeparator,
    lineSeparator, paragraphSeparator, control, format, privateUse]

/-- The table of a category; unassigned code points have none. -/
def table? : Category → Option CodeSet
  | uppercaseLetter => some Unicode.uppercaseLetter
  | lowercaseLetter => some Unicode.lowercaseLetter
  | titlecaseLetter => some Unicode.titlecaseLetter
  | modifierLetter => some Unicode.modifierLetter
  | otherLetter => some Unicode.otherLetter
  | nonspacingMark => some Unicode.nonspacingMark
  | spacingMark => some Unicode.spacingMark
  | enclosingMark => some Unicode.enclosingMark
  | decimalNumber => some Unicode.decimalNumber
  | letterNumber => some Unicode.letterNumber
  | otherNumber => some Unicode.otherNumber
  | connectorPunctuation => some Unicode.connectorPunctuation
  | dashPunctuation => some Unicode.dashPunctuation
  | openPunctuation => some Unicode.openPunctuation
  | closePunctuation => some Unicode.closePunctuation
  | initialPunctuation => some Unicode.initialPunctuation
  | finalPunctuation => some Unicode.finalPunctuation
  | otherPunctuation => some Unicode.otherPunctuation
  | mathSymbol => some Unicode.mathSymbol
  | currencySymbol => some Unicode.currencySymbol
  | modifierSymbol => some Unicode.modifierSymbol
  | otherSymbol => some Unicode.otherSymbol
  | spaceSeparator => some Unicode.spaceSeparator
  | lineSeparator => some Unicode.lineSeparator
  | paragraphSeparator => some Unicode.paragraphSeparator
  | control => some Unicode.control
  | format => some Unicode.format
  | privateUse => some Unicode.privateUse
  | unassigned => none

/-- The characters of a category: a character is unassigned when no table holds it. -/
def chars (k : Category) : CodeSet :=
  k.table?.getD (characters.diff (.unionAll (assigned.filterMap table?)))

/-- The categories of letters. -/
def letters : List Category :=
  [uppercaseLetter, lowercaseLetter, titlecaseLetter, modifierLetter, otherLetter]

/-- The categories of letters with case. -/
def casedLetters : List Category := [uppercaseLetter, lowercaseLetter, titlecaseLetter]

/-- The categories of marks. -/
def marks : List Category := [nonspacingMark, spacingMark, enclosingMark]

/-- The categories of numbers. -/
def numbers : List Category := [decimalNumber, letterNumber, otherNumber]

/-- The categories of punctuation. -/
def punctuation : List Category :=
  [connectorPunctuation, dashPunctuation, openPunctuation, closePunctuation, initialPunctuation,
    finalPunctuation, otherPunctuation]

/-- The categories of symbols. -/
def symbols : List Category := [mathSymbol, currencySymbol, modifierSymbol, otherSymbol]

/-- The categories of separators. -/
def separators : List Category := [spaceSeparator, lineSeparator, paragraphSeparator]

/-- The categories of everything else. -/
def others : List Category := [control, format, privateUse, unassigned]

end Category

/-- The characters of some categories. -/
def ofCategories (ks : List Category) : CodeSet := .unionAll (ks.map Category.chars)

/-- The code point belongs to one of the categories. -/
def inCategories (ks : List Category) (c : Nat) : Bool := ks.any (·.chars.contains c)

/-- Letters of every script. -/
def isLetter (c : Nat) : Bool := inCategories Category.letters c

/-- Digits, letter numbers and other numerals of every script. -/
def isNumber (c : Nat) : Bool := inCategories Category.numbers c

end Motif.Unicode
