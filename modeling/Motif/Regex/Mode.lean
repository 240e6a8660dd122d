import Motif.Regex.CharClass
import Motif.Regex.Tree
import Motif.Text.Blank

/-!
# Flags and layout of regular expressions

Flags such as `i` hold from the place where they are set to the end of the enclosing group. Under
the flag `x` blanks and comments between the parts of an expression are skipped.

* `Mode`: the flags in force.
* `Mode.skip`, `Mode.collect`, `Mode.afterHyphen?`: blanks and comments.
* `readFlags?`, `Mode.apply`: a written list of flags, and its effect.
* `Mode.finish?`: a class under the flags in force.
-/

namespace Motif.Regex

open Unicode (CodeSet)

/-- The flags in force at a place of an expression. -/
structure Mode where
  /-- `i`: case does not count. -/
  caseless : Bool := false
  /-- `m`: the anchors match at lines. -/
  multiLine : Bool := false
  /-- `s`: the dot matches line feeds. -/
  dotAll : Bool := false
  /-- `u`: classes and boundaries are those of Unicode. -/
  unicode : Bool := true
  /-- `R`: carriage returns end lines, too. -/
  carriage : Bool := false
  /-- `x`: blanks and comments are skipped. -/
  extended : Bool := false
  /-- `U`: repetitions look for short matches first. -/
  short : Bool := false

namespace Mode

/-- Skips blanks and comments; the flag says that a comment is open. -/
def skipBlanks : Bool → List Char → List Char
  | _, [] => []
  | true, c :: cs => skipBlanks (c != '\n') cs
  | false, c :: cs =>
    if isBlank c then skipBlanks false cs
    else if c == '#' then skipBlanks true cs
    else c :: cs

/-- Skips blanks and comments where the flags allow them. -/
def skip (m : Mode) (cs : List Char) : List Char := if m.extended then skipBlanks false cs else cs

/-- The characters at the front that satisfy `p`, blanks and comments skipped, and the rest. -/
def collect (m : Mode) (p : Char → Bool) : Bool → List Char → List Char × List Char
  | _, [] => ([], [])
  | true, c :: cs => m.collect p (c != '\n') cs
  | false, c :: cs =>
    if m.extended && isBlank c then m.collect p false cs
    else if m.extended && c == '#' then m.collect p true cs
    else if p c then
      let (taken, rest) := m.collect p false cs
      (c :: taken, rest)
    else ([], c :: cs)

/-- The character that decides whether a hyphen before `cs` writes an interval: the next one, blanks
and the sign of one comment passed over. -/
def afterHyphen? (m : Mode) (cs : List Char) : Option Char :=
  if m.extended then
    match cs.dropWhile isBlank with
    | '#' :: comment => (comment.dropWhile isBlank).head?
    | cs => cs.head?
  else cs.head?

/-! ## Flags -/

/-- Sets one flag. -/
def set (m : Mode) (flag : Char) (on : Bool) : Mode :=
  match flag with
  | 'i' => { m with caseless := on }
  | 'm' => { m with multiLine := on }
  | 's' => { m with dotAll := on }
  | 'u' => { m with unicode := on }
  | 'R' => { m with carriage := on }
  | 'x' => { m with extended := on }
  | 'U' => { m with short := on }
  | _ => m

/-- Sets the written flags, those after a hyphen to off. -/
def apply (m : Mode) (flags : List Char) : Mode :=
  let (on, off) := flags.span (· != '-')
  off.foldl (·.set · false) (on.foldl (·.set · true) m)

end Mode

/-- Reads flags up to a colon or a closing parenthesis, each at most once. The flags read so far are
given backwards. -/
def readFlags? (seen : List Char) : List Char → Option (List Char × Char × List Char)
  | [] => none
  | c :: cs =>
    if c == ':' || c == ')' then
      if seen.head? == some '-' then none else some (seen.reverse, c, cs)
    else if "imsUuRx-".toList.contains c && !seen.contains c then readFlags? (c :: seen) cs
    else none

/-! ## Leaves under the flags in force -/

namespace Mode

/-- Closes a class under case if case does not count. -/
def fold (m : Mode) (s : CodeSet) : CodeSet :=
  if !m.caseless then s else if m.unicode then s.caseClosure else s.caseClosureASCII

/-- What complements are taken in: all characters, or without Unicode all bytes. -/
def alphabet (m : Mode) : CodeSet := if m.unicode then Unicode.characters else .range 0 0xFF

/-- Without Unicode a class must lie within ASCII, because it would match single bytes of longer
characters. -/
def check? (m : Mode) (s : CodeSet) : Option CodeSet :=
  if m.unicode || s.isBelow 0x80 then some s else none

/-- A complete class. -/
def finish? (m : Mode) (negated : Bool) (s : CodeSet) : Option CodeSet :=
  let s := m.fold s
  m.check? (if negated then m.alphabet.diff s else s)

/-- The class of a literal character in brackets. Without Unicode it must be an ASCII character. -/
def literalClass? (m : Mode) (c : Char) : Option CodeSet :=
  if m.unicode || c.toNat < 0x80 then some (.single c.toNat) else none

/-- The step over a literal character. Without Unicode it must not be a byte above ASCII. -/
def literal? (m : Mode) (c : Char) (byte : Bool) : Option Syntax :=
  if !m.unicode && byte && 0x80 ≤ c.toNat then none
  else if m.caseless && m.unicode then some (.step (.ofPoints (Unicode.caseVariants c.toNat)))
  else some (.step (m.fold (.single c.toNat)))

/-- The class behind `d`, `s` and `w`. -/
def shorthand? (m : Mode) (c : Char) : Option CodeSet :=
  let unicodeClass := match c.toLower with
    | 'd' => Unicode.decimalNumber
    | 's' => Unicode.whiteSpace
    | _ => Unicode.wordChars
  let asciiClass := match c.toLower with
    | 'd' => posixClass? "digit"
    | 's' => posixClass? "space"
    | _ => posixClass? "word"
  let s := if m.unicode then unicodeClass else asciiClass.getD .empty
  m.check? (if c.isUpper then m.alphabet.diff s else s)

/-- The step over any character, line ends excepted. -/
def dot? (m : Mode) : Option Syntax :=
  if !m.unicode then none
  else if m.dotAll then some (.step Unicode.characters)
  else if m.carriage then some (.step (Unicode.characters.diff (.ofPoints [0xA, 0xD])))
  else some (.step (Unicode.characters.diff (.single 0xA)))

/-- The anchor at a start. -/
def startAnchor (m : Mode) : Look :=
  if !m.multiLine then .textStart else if m.carriage then .lineStartCR else .lineStart

/-- The anchor at an end. -/
def endAnchor (m : Mode) : Look :=
  if !m.multiLine then .textEnd else if m.carriage then .lineEndCR else .lineEnd

end Mode

end Motif.Regex
