import Motif.Grammar.Error

/-!
# Lexemes

The text of a pattern is cut into lexemes, each a terminal symbol with the byte offset at which it
starts. Blanks between lexemes are skipped. After a colon a bare value runs up to a blank or one
of a few separators, so that tags such as `PRP$` or `-LRB-` need no quotation marks.

* `Lexeme`: a symbol at its offset.
* `scanSymbol`: the symbol at the front of a text.
* `lexemes`: the lexemes of a text, the end included.
-/

namespace Motif

/-- A terminal symbol and the byte offset at which it starts. -/
structure Lexeme where
  /-- The symbol. -/
  symbol : Symbol
  /-- Where it starts. -/
  offset : Nat
deriving DecidableEq

/-- The number of bytes of a text. -/
def byteLength : List Char → Nat
  | [] => 0
  | c :: cs => c.utf8Size + byteLength cs

/-! ## Character classes of the pattern syntax -/

/-- Names start with a letter or a low line. -/
def isNameStart (c : Char) : Bool := c == '_' || Unicode.isLetter c.toNat

/-- Names go on with letters, numbers, low lines and hyphens. -/
def isNamePart (c : Char) : Bool := c == '-' || isNameStart c || Unicode.isNumber c.toNat

/-- The characters of bare values. -/
def isBare (c : Char) : Bool := !isBlank c && !("[]()\x7b\x7d|&,:\"/".toList.contains c)

/-- The characters of relation operators, known or not. -/
def isRelationChar (c : Char) : Bool := "<>=!~".toList.contains c

/-! ## Parts of lexemes -/

/-- The name at the front of a text. -/
def nameAt? : List Char → Option (List Char)
  | c :: cs => if isNameStart c then some (c :: cs.takeWhile isNamePart) else none
  | [] => none

/-- The number at the front of a text: digits after an optional hyphen, and a fraction if digits
follow its point. -/
def numberAt? (cs : List Char) : Option (List Char) :=
  let (sign, cs) := match cs with
    | '-' :: rest => (['-'], rest)
    | cs => ([], cs)
  let whole := cs.takeWhile isDigit
  let fraction := match cs.dropWhile isDigit with
    | '.' :: rest =>
      let digits := rest.takeWhile isDigit
      if digits.isEmpty then [] else '.' :: digits
    | _ => []
  if whole.isEmpty then none else some (sign ++ whole ++ fraction)

/-- The content of a literal after its opening delimiter, and how many characters it takes with the
closing one. -/
def quotedAt? (delimiter : Char) : List Char → Option (List Char × Nat)
  | [] => none
  | c :: cs =>
    if c == delimiter then some ([], 1)
    else if c == '\\' then
      -- between slashes a backslash is kept, unless it stands before a slash
      match cs with
      | [] => none
      | d :: ds => (quotedAt? delimiter ds).map fun (text, n) =>
        ((if d == delimiter || delimiter == '"' then [d] else ['\\', d]) ++ text, n + 2)
    else (quotedAt? delimiter cs).map fun (text, n) => (c :: text, n + 1)

/-! ## Lexemes -/

/-- What follows an opening parenthesis at `offset`. -/
def scanOpening (offset : Nat) (cs : List Char) : Except CompileError (Symbol × Nat) :=
  match cs with
  | '?' :: ':' :: _ => .ok (.nonCapture, 2)
  | '?' :: 'm' :: ')' :: _ => .ok (.multiNode, 3)
  | '?' :: '$' :: rest =>
    match nameAt? rest with
    | some name => .ok (.namedGroup (String.ofList name), name.length + 2)
    | none =>
      let bad := rest.takeWhile fun c => !isBlank c && c != ')'
      .error (.invalidGroupName (String.ofList bad) (offset + 3))
  | '?' :: _ => .error (.malformed .unknownGroupFlag offset (CompileError.excerpt ('(' :: cs)))
  | _ => .ok (.lparen, 0)

/-- The symbol at the front of a text that starts with `c` at `offset`, and how many characters
after `c` belong to it. -/
def scanSymbol (offset : Nat) (c : Char) (cs : List Char) : Except CompileError (Symbol × Nat) :=
  let fault (f : Fault) : Except CompileError (Symbol × Nat) :=
    .error (.malformed f offset (CompileError.excerpt (c :: cs)))
  match c with
  | '[' => .ok (.lbracket, 0)
  | ']' => .ok (.rbracket, 0)
  | '\x7b' => .ok (.lbrace, 0)
  | '\x7d' => .ok (.rbrace, 0)
  | ')' => .ok (.rparen, 0)
  | '*' => .ok (.star, 0)
  | '+' => .ok (.plus, 0)
  | '?' => .ok (.question, 0)
  | ',' => .ok (.comma, 0)
  | '^' => .ok (.caret, 0)
  | '|' => .ok (.pipe, if cs.head? == some '|' then 1 else 0)
  | '&' => .ok (.amp, if cs.head? == some '&' then 1 else 0)
  | ':' => .ok (if cs.head? == some ':' then (.doubleColon, 1) else (.colon, 0))
  | '(' => scanOpening offset cs
  | '!' => .ok (if cs.head? == some '=' then (.rel .ne, 1) else (.bang, 0))
  | '<' | '>' | '=' =>
    let tail := cs.takeWhile isRelationChar
    let op := String.ofList (c :: tail)
    if op == "=>" then .ok (.arrow, 1)
    else match Relation.ofSymbol? op with
      | some r => .ok (.rel r, tail.length)
      | none => .error (.unknownRelation op offset)
  | '"' =>
    match quotedAt? '"' cs with
    | some (text, n) => .ok (.str (String.ofList text), n)
    | none => fault .unterminatedString
  | '/' =>
    match quotedAt? '/' cs with
    | some (text, n) => .ok (.regex (String.ofList text), n)
    | none => fault .unterminatedRegex
  | '\\' =>
    let digits := cs.takeWhile isDigit
    if digits.isEmpty then fault .missingGroupNumber
    else match natOfDigits? digits with
      | some id => .ok (.backref id, digits.length)
      | none => fault .hugeBackref
  | '$' =>
    match nameAt? cs with
    | some name => .ok (.var (String.ofList name), name.length)
    | none => .ok (.dollar, 0)
  | '#' =>
    match nameAt? cs with
    | some name => .ok (.func (String.ofList name), name.length)
    | none => fault .missingFunctionName
  | c =>
    match numberAt? (c :: cs), nameAt? (c :: cs) with
    | some digits, _ => .ok (.number (String.ofList digits), digits.length - 1)
    | none, some name => .ok (.ident (String.ofList name), name.length - 1)
    | none, none => fault (.unexpectedCharacter c)

/-- The symbol at the front of a text that may follow a colon, where a bare value stands for
itself. -/
def scanAfter (afterColon : Bool) (offset : Nat) (c : Char) (cs : List Char) :
    Except CompileError (Symbol × Nat) :=
  if afterColon && isBare c then
    let tail := cs.takeWhile isBare
    .ok (.ident (String.ofList (c :: tail)), tail.length)
  else scanSymbol offset c cs

/-- The lexemes of a text that starts at `offset` and may follow a colon. -/
def lexemesFrom (afterColon : Bool) (offset : Nat) : List Char → Except CompileError (List Lexeme)
  | [] => .ok [⟨.eof, offset⟩]
  | c :: cs =>
    if isBlank c then lexemesFrom afterColon (offset + c.utf8Size) cs
    else
      match scanAfter afterColon offset c cs with
      | .error e => .error e
      | .ok (symbol, n) =>
        match lexemesFrom (symbol == .colon) (offset + byteLength (c :: cs.take n)) (cs.drop n) with
        | .error e => .error e
        | .ok rest => .ok (⟨symbol, offset⟩ :: rest)
termination_by cs => cs.length
decreasing_by
  · simp
  · simp only [List.length_cons, List.length_drop]; omega

/-- The lexemes of a text, with its end as the last one. -/
def lexemes (source : String) : Except CompileError (List Lexeme) :=
  lexemesFrom false 0 source.toList

end Motif
