import Motif.Grammar.Symbol

/-!
# Errors in patterns

Every error points at a byte offset in the text of a pattern.

* `Fault`: the ways in which a pattern can be malformed.
* `CompileError`: all reasons to refuse a pattern.
* `CompileError.text`: the wording of an error.
-/

namespace Motif

/-- The ways in which the text of a pattern can be malformed. -/
inductive Fault where
  | unexpectedCharacter (c : Char)
  | unknownGroupFlag
  | unterminatedString
  | unterminatedRegex
  | hugeBackref
  | missingGroupNumber
  | missingFunctionName
  /-- A certain symbol was needed. -/
  | expected (what : String) (found : Symbol)
  | unbalanced
  /-- A symbol follows a complete pattern. -/
  | trailing (found : Symbol)
  | countNotNatural
  | expectedCount (found : Symbol)
  | expectedAtom (found : Symbol)
  | expectedMultiText (found : Symbol)
  | expectedElementTest (found : Symbol)
  | expectedAttributeTest (found : Symbol)
  | expectedValue (name : String) (found : Symbol)
  | unknownPresence (word : String)
  | expectedPresence (found : Symbol)
  | expectedBound (found : Symbol)
  | expectedTest (name : String) (found : Symbol)
  | expectedActionName (found : Symbol)
  | hugeTarget
  | expectedTarget (found : Symbol)
  | actionNotLast
deriving DecidableEq

/-- The wording of a fault. -/
def Fault.text : Fault → String
  | unexpectedCharacter c => "unexpected character `" ++ c.toString ++ "`"
  | unknownGroupFlag => "unknown group flag"
  | unterminatedString => "unterminated string literal"
  | unterminatedRegex => "unterminated regex literal"
  | hugeBackref => "backreference number is too large"
  | missingGroupNumber => "expected a group number after `\\`"
  | missingFunctionName => "expected a function name after `#`"
  | expected what found => "expected " ++ what ++ ", found " ++ found.describe
  | unbalanced => "unbalanced `)`"
  | trailing found => "unexpected " ++ found.describe
  | countNotNatural => "repetition counts must be non-negative integers"
  | expectedCount found => "expected a repetition count, found " ++ found.describe
  | expectedAtom found =>
    "expected an element test, group or literal, found " ++ found.describe
  | expectedMultiText found =>
    "expected a regex or string after `(?m)`, found " ++ found.describe
  | expectedElementTest found => "expected an element test, found " ++ found.describe
  | expectedAttributeTest found => "expected an attribute test, found " ++ found.describe
  | expectedValue name found =>
    "expected a value after `" ++ name ++ ":`, found " ++ found.describe
  | unknownPresence word => "unknown existence check `" ++ word ++ "`"
  | expectedPresence found =>
    "expected EXISTS, NOT_EXISTS, IS_NIL or NOT_NIL, found " ++ found.describe
  | expectedBound found => "expected a number after the relation, found " ++ found.describe
  | expectedTest name found =>
    "expected `:`, `::` or a relation after `" ++ name ++ "`, found " ++ found.describe
  | expectedActionName found => "expected an action name, found " ++ found.describe
  | hugeTarget => "invalid group number"
  | expectedTarget found => "expected a group number or `$name`, found " ++ found.describe
  | actionNotLast => "an action clause is only allowed on the last pattern"

/-- A reason to refuse a pattern, with the offset it points at. -/
inductive CompileError where
  /-- A fault, with the text that follows its offset. -/
  | malformed (fault : Fault) (offset : Nat) (near : String)
  | unknownRelation (op : String) (offset : Nat)
  | unboundVariable (name : String) (offset : Nat)
  | unboundFunction (name : String) (offset : Nat)
  | unboundAction (name : String) (offset : Nat)
  /-- A variable refers to itself. -/
  | recursiveVariable (name : String) (offset : Nat)
  | invalidQuantifier (min max : Nat) (offset : Nat)
  | invalidRegex (source : String) (offset : Nat)
  | invalidGroupName (name : String) (offset : Nat)
  | duplicateGroupName (name : String) (offset : Nat)
  | invalidBackref (group : Nat) (offset : Nat)
deriving DecidableEq

namespace CompileError

/-- The byte offset that an error points at. -/
def offset : CompileError → Nat
  | malformed _ at_ _ | unknownRelation _ at_ | unboundVariable _ at_ | unboundFunction _ at_
  | unboundAction _ at_ | recursiveVariable _ at_ | invalidQuantifier _ _ at_
  | invalidRegex _ at_ | invalidGroupName _ at_ | duplicateGroupName _ at_
  | invalidBackref _ at_ => at_

/-- The start of a text, as an error quotes it. -/
def excerpt (rest : List Char) : String :=
  if rest.isEmpty then "<end of pattern>" else String.ofList (rest.take 16)

/-- The text from a byte offset on; there is none past the end or inside a character. -/
def textFrom : Nat → List Char → List Char
  | 0, cs => cs
  | _ + 1, [] => []
  | n + 1, c :: cs => if c.utf8Size ≤ n + 1 then textFrom (n + 1 - c.utf8Size) cs else []

/-- A fault at an offset of a text. -/
def fault (source : String) (offset : Nat) (f : Fault) : CompileError :=
  malformed f offset (excerpt (textFrom offset source.toList))

/-- The wording of an error; that of an invalid expression goes without the details. -/
def text : CompileError → String
  | malformed fault at_ near =>
    "syntax error at offset " ++ toString at_ ++ " near `" ++ near ++ "`: " ++ fault.text
  | unknownRelation op at_ => "unknown relation operator `" ++ op ++ "` at offset " ++ toString at_
  | unboundVariable name at_ => "unbound variable `$" ++ name ++ "` at offset " ++ toString at_
  | unboundFunction name at_ => "unbound function `#" ++ name ++ "` at offset " ++ toString at_
  | unboundAction name at_ => "unbound action `" ++ name ++ "` at offset " ++ toString at_
  | recursiveVariable name at_ =>
    "variable `$" ++ name ++ "` at offset " ++ toString at_ ++ " refers to itself"
  | invalidQuantifier min max at_ =>
    "invalid quantifier \x7b" ++ toString min ++ "," ++ toString max ++ "\x7d at offset " ++
      toString at_ ++ ": min exceeds max"
  | invalidRegex source at_ => "invalid regex `" ++ source ++ "` at offset " ++ toString at_
  | invalidGroupName name at_ => "invalid group name `" ++ name ++ "` at offset " ++ toString at_
  | duplicateGroupName name at_ =>
    "group name `" ++ name ++ "` at offset " ++ toString at_ ++
      " is already declared on the same path"
  | invalidBackref group at_ =>
    "backreference \\" ++ toString group ++ " at offset " ++ toString at_ ++
      " names a group the pattern does not declare"

end CompileError

end Motif
