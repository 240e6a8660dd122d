import Motif.Unicode.CaseFolding
import Motif.Unicode.Property

/-!
# Classes by name

Regular expressions ask for sets of characters by the names of ASCII classes and of Unicode
properties.

* `posixClass?`: the class of a bracketed name such as `alpha`.
* `propertyClass?`: the class of a Unicode property, by its name.
-/

namespace Motif.Regex

open Unicode (CodeSet)

/-- The union of intervals. -/
def ofRanges (rs : List (Char × Char)) : CodeSet :=
  .unionAll (rs.map fun (lo, hi) => .range lo.toNat hi.toNat)

/-- The classes of ASCII characters with a bracketed name. -/
def posixClass? : String → Option CodeSet
  | "alnum" => some (ofRanges [('0', '9'), ('A', 'Z'), ('a', 'z')])
  | "alpha" => some (ofRanges [('A', 'Z'), ('a', 'z')])
  | "ascii" => some (.range 0 0x7F)
  | "blank" => some (ofRanges [('\t', '\t'), (' ', ' ')])
  | "cntrl" => some (.union (.range 0 0x1F) (.single 0x7F))
  | "digit" => some (ofRanges [('0', '9')])
  | "graph" => some (ofRanges [('!', '~')])
  | "lower" => some (ofRanges [('a', 'z')])
  | "print" => some (ofRanges [(' ', '~')])
  | "punct" => some (ofRanges [('!', '/'), (':', '@'), ('[', '\x60'), ('\x7b', '~')])
  | "space" => some (.union (.range 0x9 0xD) (.single 0x20))
  | "upper" => some (ofRanges [('A', 'Z')])
  | "word" => some (ofRanges [('0', '9'), ('A', 'Z'), ('_', '_'), ('a', 'z')])
  | "xdigit" => some (ofRanges [('0', '9'), ('A', 'F'), ('a', 'f')])
  | _ => none

/-- A name of a property without case, blanks, hyphens, low lines and a leading `is`. -/
def normalizePropertyName (name : List Char) : String :=
  let stripped := match name with
    | a :: b :: rest => if a.toLower == 'i' && b.toLower == 's' then rest else name
    | _ => name
  let kept := (stripped.filter fun c => c.toNat < 0x80 && !(c == ' ' || c == '_' || c == '-')).map
    Char.toLower
  if kept == ['c'] && stripped.length < name.length then "isc" else String.ofList kept

open Unicode.Category in
/-- General categories and their groups, by normalized name. -/
def categories? : String → Option (List Unicode.Category)
  | "lu" | "uppercaseletter" => some [uppercaseLetter]
  | "ll" | "lowercaseletter" => some [lowercaseLetter]
  | "lt" | "titlecaseletter" => some [titlecaseLetter]
  | "lc" | "casedletter" => some casedLetters
  | "lm" | "modifierletter" => some [modifierLetter]
  | "lo" | "otherletter" => some [otherLetter]
  | "l" | "letter" => some letters
  | "mn" | "nonspacingmark" => some [nonspacingMark]
  | "mc" | "spacingmark" => some [spacingMark]
  | "me" | "enclosingmark" => some [enclosingMark]
  | "m" | "mark" | "combiningmark" => some marks
  | "nd" | "decimalnumber" | "digit" => some [decimalNumber]
  | "nl" | "letternumber" => some [letterNumber]
  | "no" | "othernumber" => some [otherNumber]
  | "n" | "number" => some numbers
  | "pc" | "connectorpunctuation" => some [connectorPunctuation]
  | "pd" | "dashpunctuation" => some [dashPunctuation]
  | "ps" | "openpunctuation" => some [openPunctuation]
  | "pe" | "closepunctuation" => some [closePunctuation]
  | "pi" | "initialpunctuation" => some [initialPunctuation]
  | "pf" | "finalpunctuation" => some [finalPunctuation]
  | "po" | "otherpunctuation" => some [otherPunctuation]
  | "p" | "punctuation" | "punct" => some Unicode.Category.punctuation
  | "sm" | "mathsymbol" => some [mathSymbol]
  | "sc" | "currencysymbol" => some [currencySymbol]
  | "sk" | "modifiersymbol" => some [modifierSymbol]
  | "so" | "othersymbol" => some [otherSymbol]
  | "s" | "symbol" => some symbols
  | "zs" | "spaceseparator" => some [spaceSeparator]
  | "zl" | "lineseparator" => some [lineSeparator]
  | "zp" | "paragraphseparator" => some [paragraphSeparator]
  | "z" | "separator" => some separators
  | "cc" | "control" | "cntrl" => some [control]
  | "cf" | "format" => some [format]
  | "co" | "privateuse" => some [privateUse]
  | "cn" | "unassigned" => some [unassigned]
  | "c" | "other" => some others
  | _ => none

/-- The characters of a general category, and the classes that are named like one. -/
def categoryClass? : String → Option CodeSet
  | "any" => some Unicode.characters
  | "assigned" => some (Unicode.characters.diff Unicode.Category.unassigned.chars)
  | "ascii" => some (.range 0 0x7F)
  | name => (categories? name).map Unicode.ofCategories

/-- Properties that hold or do not hold of a character, by normalized name. -/
def binaryClass? : String → Option CodeSet
  | "alphabetic" | "alpha" => some Unicode.alphabetic
  | "uppercase" | "upper" => some Unicode.uppercaseChars
  | "lowercase" | "lower" => some Unicode.lowercaseChars
  | "cased" => some Unicode.cased
  | "caseignorable" | "ci" => some Unicode.caseIgnorable
  | "whitespace" | "wspace" | "space" => some Unicode.whiteSpace
  | _ => none

/-- Splits a text at the first character that satisfies `p`. -/
def splitAtFirst? (p : Char → Bool) (cs : List Char) : Option (List Char × List Char) :=
  match cs.dropWhile (!p ·) with
  | [] => none
  | _ :: rest => some (cs.takeWhile (!p ·), rest)

/-- The class of a property, and whether its complement is meant: a name, or a name and a value
with `:`, `=` or `!=` between them. -/
def propertyClass? (query : List Char) : Option (Bool × CodeSet) :=
  match splitAtFirst? (fun c => c == ':' || c == '=') query with
  | none =>
    let name := normalizePropertyName query
    ((binaryClass? name).or (categoryClass? name)).map (false, ·)
  | some (name, value) =>
    let negated := name.getLast? == some '!'
    let name := normalizePropertyName (if negated then name.dropLast else name)
    if name == "gc" || name == "generalcategory" then
      (categoryClass? (normalizePropertyName value)).map (negated, ·)
    else none

end Motif.Regex
