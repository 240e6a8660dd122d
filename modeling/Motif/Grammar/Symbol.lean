import Motif.AttrTest

/-!
# Terminal symbols of the pattern grammar

* `Symbol`: the terminal symbols.
* `Symbol.describe`: how a message names a symbol.
-/

namespace Motif

/-- A terminal symbol. -/
inductive Symbol where
  | lbracket | rbracket | lbrace | rbrace | lparen | rparen
  /-- `(?:` -/
  | nonCapture
  /-- `(?$name` -/
  | namedGroup (name : String)
  /-- `(?m)` -/
  | multiNode
  | pipe | amp | bang | star | plus | question | comma | colon | doubleColon | arrow
  | rel (r : Relation)
  | caret
  /-- A dollar sign without a name. -/
  | dollar
  /-- `$name` -/
  | var (name : String)
  /-- `#name` -/
  | func (name : String)
  | backref (id : Nat)
  | str (text : String)
  | regex (source : String)
  | ident (name : String)
  /-- A number, as it is written. -/
  | number (digits : String)
  /-- The end of the pattern. -/
  | eof
deriving DecidableEq

namespace Symbol

/-- The letters that nothing shows on the page: they fill the place of a missing Hangul letter. -/
def fillers : List Char := ['\u115f', '\u1160', '\u3164', '\uffa0']

/-- A name in quotation marks. Letters that cannot be seen are written by their number. -/
def quoted (name : String) : String :=
  "\"" ++ String.join (name.toList.map fun c =>
    if fillers.contains c then
      "\\u\x7b" ++ String.ofList (Nat.toDigits 16 c.toNat) ++ "\x7d"
    else c.toString) ++ "\""

/-- How a message names the symbol. -/
def describe : Symbol → String
  | ident s => "identifier `" ++ s ++ "`"
  | number s => "number `" ++ s ++ "`"
  | str s => "string \"" ++ s ++ "\""
  | regex s => "regex /" ++ s ++ "/"
  | var s => "`$" ++ s ++ "`"
  | func s => "`#" ++ s ++ "`"
  | eof => "end of pattern"
  | namedGroup s => "NamedGroup(" ++ quoted s ++ ")"
  | rel r => "Rel(\"" ++ r.symbol ++ "\")"
  | backref n => "Backref(" ++ toString n ++ ")"
  | lbracket => "LBracket"
  | rbracket => "RBracket"
  | lbrace => "LBrace"
  | rbrace => "RBrace"
  | lparen => "LParen"
  | rparen => "RParen"
  | nonCapture => "NonCapture"
  | multiNode => "MultiNode"
  | pipe => "Pipe"
  | amp => "Amp"
  | bang => "Bang"
  | star => "Star"
  | plus => "Plus"
  | question => "Question"
  | comma => "Comma"
  | colon => "Colon"
  | doubleColon => "DoubleColon"
  | arrow => "Arrow"
  | caret => "Caret"
  | dollar => "Dollar"

end Symbol

end Motif
