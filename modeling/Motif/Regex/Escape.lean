import Motif.Regex.Mode

/-!
# Escapes and counts in regular expressions

* `Atom`: what a character or an escape stands for.
* `readEscape?`: an escape after its backslash.
* `readCount?`: a counted repetition after its brace.
* `escape`: a text as an expression that matches it literally.
-/

namespace Motif.Regex

/-- What a character or an escape stands for. -/
inductive Atom where
  /-- A character; the flag says that it was written as a single byte. -/
  | literal (c : Char) (byte : Bool)
  | chars (s : Unicode.CodeSet)
  | look (l : Look)

/-- Characters with a meaning of their own, which a backslash takes away. -/
def isMeta (c : Char) : Bool := "\\.+*?()|[]\x7b\x7d^$#&-~".toList.contains c

/-- Characters that may follow a backslash and then stand for themselves: ASCII without letters,
digits and the angle brackets. -/
def isEscapable (c : Char) : Bool :=
  isMeta c || (c.toNat < 0x80 && !c.isAlphanum && c != '<' && c != '>')

/-- The value of a hexadecimal digit. -/
def hexValue? (c : Char) : Option Nat :=
  if '0' ≤ c && c ≤ '9' then some (c.toNat - 0x30)
  else if 'a' ≤ c && c ≤ 'f' then some (c.toNat - 0x57)
  else if 'A' ≤ c && c ≤ 'F' then some (c.toNat - 0x37)
  else none

/-- The number that hexadecimal digits denote. -/
def hexNumber (ds : List Char) : Nat := ds.foldl (fun n d => 16 * n + (hexValue? d).getD 0) 0

/-- The character with a code point, surrogates excepted. -/
def charOfNat? (n : Nat) : Option Char := if n.isValidChar then some (Char.ofNat n) else none

/-- Reads `k` hexadecimal digits. -/
def readHexDigits? (m : Mode) : Nat → List Char → Option (List Char × List Char)
  | 0, cs => some ([], cs)
  | _ + 1, [] => none
  | k + 1, c :: cs =>
    if (hexValue? c).isSome then
      (readHexDigits? m k (m.skip cs)).map fun (ds, rest) => (c :: ds, rest)
    else none

/-- Reads a character given by its number: digits in braces, or `k` digits. Only two digits outside
braces write a byte. -/
def readHex? (m : Mode) (k : Nat) (cs : List Char) : Option (Atom × List Char) :=
  match m.skip cs with
  | '\x7b' :: rest =>
    match m.collect (fun c => (hexValue? c).isSome) false rest with
    | (ds@(_ :: _), '\x7d' :: rest) =>
      (charOfNat? (hexNumber ds)).map fun c => (.literal c false, rest)
    | _ => none
  | cs => do
    let (ds, rest) ← readHexDigits? m k cs
    let c ← charOfNat? (hexNumber ds)
    return (.literal c (k == 2), rest)

/-- Reads the name of a property and looks up its class; `negated` asks for the complement. -/
def readProperty? (m : Mode) (negated : Bool) (cs : List Char) : Option (Atom × List Char) := do
  let (name, rest) ← match m.skip cs with
    | [] => none
    | '\x7b' :: rest =>
      match m.collect (· != '\x7d') false rest with
      | (name, _ :: rest) => some (name, rest)
      | (_, []) => none
    | c :: rest => if c == '\\' then none else some ([c], rest)
  let (complement, s) ← propertyClass? name
  if m.unicode then
    let s ← m.finish? (negated != complement) s
    return (.chars s, rest)
  else none

/-- A word boundary, and what its braces may ask for. A brace that starts no word is left to be
read as a count. -/
def readBoundary? (m : Mode) (cs : List Char) : Option (Atom × List Char) :=
  let ascii := !m.unicode
  match cs with
  | '\x7b' :: rest =>
    let isNameChar (c : Char) : Bool := c.isAlpha || c == '-'
    match m.skip rest with
    | [] => none
    | c :: _ =>
      if !isNameChar c then some (.look (.boundary ascii), cs)
      else match m.collect isNameChar false rest with
        | (name, '\x7d' :: rest) =>
          match String.ofList name with
          | "start" => some (.look (.wordStart ascii), rest)
          | "end" => some (.look (.wordEnd ascii), rest)
          | "start-half" => some (.look (.wordStartHalf ascii), rest)
          | "end-half" => some (.look (.wordEndHalf ascii), rest)
          | _ => none
        | _ => none
  | _ => some (.look (.boundary ascii), cs)

/-- Reads an escape after its backslash. -/
def readEscape? (m : Mode) : List Char → Option (Atom × List Char)
  | [] => none
  | c :: rest =>
    let ascii := !m.unicode
    let literal (n : Nat) : Option (Atom × List Char) := some (.literal (Char.ofNat n) false, rest)
    match c with
    | 'x' => readHex? m 2 rest
    | 'u' => readHex? m 4 rest
    | 'U' => readHex? m 8 rest
    | 'p' => readProperty? m false rest
    | 'P' => readProperty? m true rest
    | 'd' | 's' | 'w' | 'D' | 'S' | 'W' => (m.shorthand? c).map fun s => (.chars s, rest)
    | 'a' => literal 0x7
    | 't' => literal 0x9
    | 'n' => literal 0xA
    | 'v' => literal 0xB
    | 'f' => literal 0xC
    | 'r' => literal 0xD
    | 'A' => some (.look .textStart, rest)
    | 'z' => some (.look .textEnd, rest)
    | 'b' => readBoundary? m rest
    | 'B' => some (.look (.notBoundary ascii), rest)
    | '<' => some (.look (.wordStart ascii), rest)
    | '>' => some (.look (.wordEnd ascii), rest)
    | c => if isEscapable c then some (.literal c false, rest) else none

/-! ## Counts -/

/-- Reads a decimal below `2 ^ 32` between blanks. -/
def readDecimal? (m : Mode) (cs : List Char) : Option (Nat × List Char) :=
  let (ds, rest) := m.collect (fun c => '0' ≤ c && c ≤ '9') false (cs.dropWhile isBlank)
  let n := ds.foldl (fun n d => 10 * n + (d.toNat - 0x30)) 0
  if ds.isEmpty || 0x100000000 ≤ n then none else some (n, m.skip (rest.dropWhile isBlank))

/-- Reads a counted repetition after its opening brace. -/
def readCount? (m : Mode) (cs : List Char) : Option (Nat × Option Nat × List Char) := do
  let (min, rest) ← readDecimal? m (m.skip cs)
  match rest with
  | '\x7d' :: rest => some (min, some min, rest)
  | ',' :: rest =>
    match m.skip rest with
    | '\x7d' :: rest => some (min, none, rest)
    | rest =>
      let (max, rest) ← readDecimal? m rest
      match rest with
      | '\x7d' :: rest => if min ≤ max then some (min, some max, rest) else none
      | _ => none
  | _ => none

/-- A text as an expression that matches it literally. -/
def escape (s : String) : String :=
  String.ofList (s.toList.flatMap fun c => if isMeta c then ['\\', c] else [c])

end Motif.Regex
