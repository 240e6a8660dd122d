import Motif.Unicode.CaseFolding
import Motif.Unicode.Property

/-!
# Version 17 of the character database

The tables of this library are those of version 16, which classes and identifiers follow. Names of
groups and case mapping follow version 17. It gave properties to several thousand new characters
and took a property from two old ones; this module holds these changes and the resulting sets.

* `Version17.alphabetic`, `Version17.alphanumeric`: letters, and letters with numbers.
* `Version17.cased`, `Version17.caseIgnorable`: the properties behind case mapping.
* `Version17.addedLowercaseRuns`: new characters with a lower-case form.
-/

namespace Motif.Unicode.Version17

/-- New alphabetic characters. -/
def addedAlphabetic : CodeSet where
  boundaries := #[
    0x88F, 0x890, 0xC5C, 0xC5D, 0xCDC, 0xCDD, 0xA7CE, 0xA7D0, 0xA7D2, 0xA7D3, 0xA7D4, 0xA7D5,
    0xA7F1, 0xA7F2, 0x10940, 0x1095A, 0x10EC5, 0x10EC8, 0x10EFA, 0x10EFC, 0x11B60, 0x11B68,
    0x11DB0, 0x11DDC, 0x16EA0, 0x16EB9, 0x16EBB, 0x16ED4, 0x16FF2, 0x16FF7, 0x187F8, 0x18800,
    0x18D09, 0x18D1F, 0x18D80, 0x18DF3, 0x1E6C0, 0x1E6DF, 0x1E6E0, 0x1E6F6, 0x1E6FE, 0x1E700,
    0x2B73A, 0x2B740, 0x2CEA2, 0x2CEAE, 0x323B0, 0x3347A]

/-- New numbers. -/
def addedNumbers : CodeSet where
  boundaries := #[0x11DE0, 0x11DEA, 0x16FF4, 0x16FF7]

/-- New characters with case. -/
def addedCased : CodeSet where
  boundaries := #[
    0xA7CE, 0xA7D0, 0xA7D2, 0xA7D3, 0xA7D4, 0xA7D5, 0xA7F1, 0xA7F2, 0x16EA0, 0x16EB9, 0x16EBB,
    0x16ED4]

/-- New characters that case mapping looks past. -/
def addedCaseIgnorable : CodeSet where
  boundaries := #[
    0x1ACF, 0x1ADE, 0x1AE0, 0x1AEC, 0xA7F1, 0xA7F2, 0x10EC5, 0x10EC6, 0x10EFA, 0x10EFC, 0x11B60,
    0x11B61, 0x11B62, 0x11B65, 0x11B66, 0x11B67, 0x11DD9, 0x11DDA, 0x16FF2, 0x16FF4, 0x1E6E3,
    0x1E6E4, 0x1E6E6, 0x1E6E7, 0x1E6EE, 0x1E6F0, 0x1E6F5, 0x1E6F6, 0x1E6FF, 0x1E700]

/-- New characters with a lower-case form of their own. -/
def addedLowercaseRuns : List CaseRun := [
  ⟨0xA7CE, 0xA7CE, 1, 0xA7CF⟩, ⟨0xA7D2, 0xA7D4, 2, 0xA7D3⟩, ⟨0x16EA0, 0x16EB8, 1, 0x16EBB⟩]

/-- Alphabetic characters. -/
def alphabetic : CodeSet := Unicode.alphabetic.union addedAlphabetic

/-- Alphabetic characters and numbers. -/
def alphanumeric : CodeSet :=
  .unionAll [alphabetic, ofCategories Category.numbers, addedNumbers]

/-- Characters that have a case. The turned letter `ʕ` has none any more. -/
def cased : CodeSet := (Unicode.cased.diff (.single 0x295)).union addedCased

/-- Characters that case mapping looks past when it asks whether a letter ends a word, now without
one vowel sign. -/
def caseIgnorable : CodeSet :=
  (Unicode.caseIgnorable.diff (.single 0x1171E)).union addedCaseIgnorable

end Motif.Unicode.Version17
