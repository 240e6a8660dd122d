import Motif.Environment
import Motif.Grammar.Lexeme
import Motif.Parsed

/-!
# Reading element tests

    element     := "[" disjunction? "]" | "{" disjunction? "}" | "!" element | literal | function
    disjunction := conjunction ("|" conjunction)*
    conjunction := unary ("&" unary)*
    unary       := "!" unary | "(" disjunction ")" | term
    term        := name ":" value | name "::" presence | name relation number | literal | function

Every reader returns the rest of the lexemes, which is shorter than what it was given.

* `Scope`: the environment and the text that a reader works in.
* `Scope.readElement`: an element test.
* `Scope.readBracketed`: the content of brackets.
-/

namespace Motif

/-- The environment and the text that lexemes come from, and the variables whose texts they lie in,
outermost first, each with the offset of its reference. -/
structure Scope where
  /-- The meaning of names. -/
  env : Environment
  /-- The text of the pattern. -/
  source : String
  /-- The variables that are being expanded. -/
  expanding : List (String × Nat) := []

/-- The next symbol; the text ends where the lexemes do. -/
def peek : List Lexeme → Symbol
  | [] => .eof
  | l :: _ => l.symbol

namespace Scope

variable (s : Scope)

/-- The offset of the next symbol. -/
def offsetOf : List Lexeme → Nat
  | [] => byteLength s.source.toList
  | l :: _ => l.offset

/-- A fault at an offset. -/
def fault {α : Type} (offset : Nat) (f : Fault) : Except CompileError α :=
  .error (.fault s.source offset f)

/-- A fault at the next symbol. -/
def faultAt {α : Type} (ls : List Lexeme) (f : Fault) : Except CompileError α :=
  s.fault (s.offsetOf ls) f

/-- Reads a certain symbol. -/
def expect (symbol : Symbol) (what : String) (ls : List Lexeme) :
    Except CompileError (Parsed Lexeme Unit ls.length) :=
  match ls with
  | [] => s.faultAt [] (.expected what .eof)
  | l :: rest =>
    if l.symbol = symbol then .ok ⟨(), rest, length_lt_next⟩
    else s.faultAt (l :: rest) (.expected what l.symbol)

/-! ## Terms -/

/-- A regular expression for whole texts, written at an offset. -/
def regex (source : String) (offset : Nat) : Except CompileError Regex :=
  match s.env.regex? source with
  | some r => .ok r
  | none => .error (.invalidRegex source offset)

/-- The test that a literal outside brackets stands for. -/
def literalTest (text : String) : NodePattern := .attr s.env.defaultKey (s.env.equality text)

/-- The test that a regular expression outside brackets stands for. -/
def regexTest (source : String) (offset : Nat) : Except CompileError NodePattern :=
  (s.regex source offset).map fun r => .attr s.env.defaultKey (.regex r)

/-- The test of a function. -/
def functionTest (name : String) (offset : Nat) : Except CompileError NodePattern :=
  match s.env.function? name with
  | some p => .ok p
  | none => .error (.unboundFunction name offset)

/-- The test after the name of an attribute, which consists of two symbols. -/
def readAttribute (name : String) (ls : List Lexeme) :
    Except CompileError (Parsed Lexeme NodePattern ls.length) :=
  let key := s.env.key name
  match ls with
  | [] => s.faultAt [] (.expectedTest name .eof)
  | ⟨.colon, offset⟩ :: rest =>
    match rest with
    | ⟨.str value, _⟩ :: rest | ⟨.ident value, _⟩ :: rest | ⟨.number value, _⟩ :: rest =>
      .ok ⟨.attr key (s.env.equality value), rest, length_lt_next_next⟩
    | ⟨.regex source, at_⟩ :: rest => do
      let r ← s.regex source at_
      return ⟨.attr key (.regex r), rest, length_lt_next_next⟩
    | rest => s.fault (offset + 1) (.expectedValue name (peek rest))
  | ⟨.doubleColon, offset⟩ :: rest =>
    match rest with
    | ⟨.ident word, _⟩ :: rest =>
      match Presence.ofKeyword? word with
      | some test => .ok ⟨.presence key test, rest, length_lt_next_next⟩
      | none => s.fault offset (.unknownPresence word)
    | rest => s.fault offset (.expectedPresence (peek rest))
  | ⟨.rel r, offset⟩ :: rest =>
    match rest with
    | ⟨.number digits, _⟩ :: rest =>
      .ok ⟨.attr key (.compare r ((Binary64.ofText? digits).getD .zero)), rest,
        length_lt_next_next⟩
    | rest => s.fault offset (.expectedBound (peek rest))
  | l :: _ => s.fault l.offset (.expectedTest name l.symbol)

/-- Reads a term. -/
def readTerm (ls : List Lexeme) : Except CompileError (Parsed Lexeme NodePattern ls.length) :=
  match ls with
  | [] => s.faultAt [] (.expectedAttributeTest .eof)
  | ⟨.ident name, _⟩ :: rest => do
    let p ← s.readAttribute name rest
    return p.weaken length_le_next
  | ⟨.str text, _⟩ :: rest => .ok ⟨s.literalTest text, rest, length_lt_next⟩
  | ⟨.regex source, offset⟩ :: rest => do
    return ⟨← s.regexTest source offset, rest, length_lt_next⟩
  | ⟨.func name, offset⟩ :: rest => do return ⟨← s.functionTest name offset, rest, length_lt_next⟩
  | l :: _ => s.fault l.offset (.expectedAttributeTest l.symbol)

/-! ## Connectives -/

/-- Several parts of a disjunction, or the only one. -/
def disjunctionOf : List NodePattern → NodePattern
  | [p] => p
  | ps => .disjunction ps

/-- Several parts of a conjunction, or the only one. -/
def conjunctionOf : List NodePattern → NodePattern
  | [p] => p
  | ps => .conjunction ps

mutual

/-- Reads the parts of a disjunction. -/
def readDisjuncts (ls : List Lexeme) :
    Except CompileError (Parsed Lexeme (List NodePattern) ls.length) := do
  let p ← readConjuncts ls
  match h : p.rest with
  | ⟨.pipe, _⟩ :: rest =>
    have : rest.length < ls.length := p.rest_lt h
    let q ← readDisjuncts rest
    return ⟨conjunctionOf p.value :: q.value, q.rest, Nat.lt_trans q.shorter this⟩
  | _ => return ⟨[conjunctionOf p.value], p.rest, p.shorter⟩
termination_by (ls.length, 2)

/-- Reads the parts of a conjunction. -/
def readConjuncts (ls : List Lexeme) :
    Except CompileError (Parsed Lexeme (List NodePattern) ls.length) := do
  let p ← readUnary ls
  match h : p.rest with
  | ⟨.amp, _⟩ :: rest =>
    have : rest.length < ls.length := p.rest_lt h
    let q ← readConjuncts rest
    return ⟨p.value :: q.value, q.rest, Nat.lt_trans q.shorter this⟩
  | _ => return ⟨[p.value], p.rest, p.shorter⟩
termination_by (ls.length, 1)

/-- Reads a negation, a disjunction in parentheses or a term. -/
def readUnary (ls : List Lexeme) : Except CompileError (Parsed Lexeme NodePattern ls.length) :=
  match ls with
  | ⟨.bang, _⟩ :: rest => do
    let p ← readUnary rest
    return (p.map .negation).weaken length_le_next
  | ⟨.lparen, _⟩ :: rest => do
    let p ← readDisjuncts rest
    let q ← s.expect .rparen "`)`" p.rest
    return ⟨disjunctionOf p.value, q.rest, Nat.lt_succ_of_lt (Nat.lt_trans q.shorter p.shorter)⟩
  | ls => s.readTerm ls
termination_by (ls.length, 0)

end

/-! ## Element tests -/

/-- Reads the content of brackets up to the closing one; empty brackets accept every element. -/
def readBracketed (close : Symbol) (what : String) (ls : List Lexeme) :
    Except CompileError (Parsed Lexeme NodePattern (ls.length + 1)) :=
  if peek ls = close then .ok ⟨.any, ls.tail, length_tail_lt_next⟩
  else do
    let p ← s.readDisjuncts ls
    let q ← s.expect close what p.rest
    return ⟨disjunctionOf p.value, q.rest, Nat.lt_succ_of_lt (Nat.lt_trans q.shorter p.shorter)⟩

/-- Reads an element test. -/
def readElement : (ls : List Lexeme) → Except CompileError (Parsed Lexeme NodePattern ls.length)
  | [] => s.faultAt [] (.expectedElementTest .eof)
  | ⟨.lbracket, _⟩ :: rest => s.readBracketed .rbracket "`]`" rest
  | ⟨.lbrace, _⟩ :: rest => s.readBracketed .rbrace "`\x7d`" rest
  | ⟨.bang, _⟩ :: rest => do
    let p ← readElement rest
    return (p.map .negation).weaken length_le_next
  | ⟨.str text, _⟩ :: rest => .ok ⟨s.literalTest text, rest, length_lt_next⟩
  | ⟨.regex source, offset⟩ :: rest => do
    return ⟨← s.regexTest source offset, rest, length_lt_next⟩
  | ⟨.func name, offset⟩ :: rest => do return ⟨← s.functionTest name offset, rest, length_lt_next⟩
  | l :: _ => s.fault l.offset (.expectedElementTest l.symbol)

end Scope

end Motif
