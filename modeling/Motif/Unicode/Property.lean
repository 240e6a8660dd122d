import Motif.Unicode.Category
import Motif.Unicode.Contributory

/-!
# Character properties

The properties that the pattern syntax and the regular expressions over text ask for. All but white
space are derived from the general categories and the contributory tables, as the Unicode standard
derives them.

* `whiteSpace`: the white space characters.
* `alphabetic`, `wordChars`: letters, and the characters of words.
* `uppercaseChars`, `lowercaseChars`, `cased`, `caseIgnorable`: the properties behind case mapping.
-/

namespace Motif.Unicode

/-- The white space characters: the ASCII blanks, NEL, and the space, line and paragraph
separators. -/
def whiteSpace : CodeSet where
  boundaries := #[
    0x9, 0xE, 0x20, 0x21, 0x85, 0x86, 0xA0, 0xA1, 0x1680, 0x1681, 0x2000, 0x200B, 0x2028, 0x202A,
    0x202F, 0x2030, 0x205F, 0x2060, 0x3000, 0x3001]

/-- Alphabetic characters: letters, letter numbers and the marks that spell vowels. -/
def alphabetic : CodeSet := .unionAll [ofCategories Category.letters, letterNumber, otherAlphabetic]

/-- The two invisible characters that control joining. -/
def joinControl : CodeSet := .range 0x200C 0x200D

/-- The characters of words: alphabetic characters, marks, decimal digits, connecting punctuation
and join controls. -/
def wordChars : CodeSet :=
  .unionAll
    [alphabetic, ofCategories Category.marks, decimalNumber, connectorPunctuation, joinControl]

/-- Upper-case characters. -/
def uppercaseChars : CodeSet := uppercaseLetter.union otherUppercase

/-- Lower-case characters. -/
def lowercaseChars : CodeSet := lowercaseLetter.union otherLowercase

/-- Characters that have a case. -/
def cased : CodeSet := .unionAll [uppercaseChars, lowercaseChars, titlecaseLetter]

/-- Characters that case mapping looks past when it asks whether a letter ends a word. -/
def caseIgnorable : CodeSet :=
  .union (ofCategories
    [.nonspacingMark, .enclosingMark, .format, .modifierLetter, .modifierSymbol]) midWord

end Motif.Unicode
