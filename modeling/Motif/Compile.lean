import Motif.Grammar.Sequence

/-!
# Compiling patterns

One or several texts are read as one pattern, under one numbering of groups. What can only be
judged of the whole is checked afterwards: that back references name groups of the pattern, and
that no name is declared twice on one path. Alternatives may share names.

* `Expr.pathNames`: the names declared on the paths through an expression.
* `ActionClause`: the clause `=> name(target)` at the end of the last text.
* `compileAll`, `compile`: patterns from texts.
-/

namespace Motif

/-! ## Names on paths -/

/-- Adds names to those of the path before them; none may be there already. -/
def GroupNames.joined (sites : List (Nat × Nat)) (names : GroupNames) :
    GroupNames → Except CompileError GroupNames
  | [] => .ok names
  | (name, id) :: more =>
    if names.any (·.1 == name) then
      .error (.duplicateGroupName name ((sites.lookup id).getD 0))
    else joined sites (names ++ [(name, id)]) more

/-- The names of two alternatives; the later one gives the group. -/
def GroupNames.either (names more : GroupNames) : GroupNames :=
  (names.filter fun n => !more.any (·.1 == n.1)) ++ more

namespace Expr

mutual

/-- The names declared on the paths through an expression, each with its last group. A name may
recur in alternatives, but not along one path. -/
def pathNames (sites : List (Nat × Nat)) (o : NameOrder) : Expr → Except CompileError GroupNames
  | node _ | backref _ | multi .. | anchor _ => .ok []
  | sequence es => pathNamesOfAll sites o [] es
  | choice es => pathNamesOfChoice sites o [] es
  | iterate e _ _ _ | action e _ _ => e.pathNames sites o
  | group e _ none => e.pathNames sites o
  | group e id (some name) => do
    let names ← e.pathNames sites o
    match names.lookup name with
    | some inner => .error (.duplicateGroupName name ((sites.lookup inner).getD 0))
    | none => return names ++ [(name, id.getD 0)]

/-- The names along a sequence, after those in `names`. -/
def pathNamesOfAll (sites : List (Nat × Nat)) (o : NameOrder) (names : GroupNames) :
    List Expr → Except CompileError GroupNames
  | [] => .ok names
  | e :: es => do
    let names ← names.joined sites (o.here.arrange (← e.pathNames sites o.head))
    pathNamesOfAll sites o.tail names es

/-- The names of alternatives, with those in `names`. -/
def pathNamesOfChoice (sites : List (Nat × Nat)) (o : NameOrder) (names : GroupNames) :
    List Expr → Except CompileError GroupNames
  | [] => .ok names
  | e :: es => do
    let more ← e.pathNames sites o.head
    pathNamesOfChoice sites o.tail (names.either more) es

end

end Expr

/-! ## Action clauses -/

/-- The group that an action clause names. -/
inductive ActionTarget where
  | index (id : Nat)
  | name (name : String)

/-- The clause at the end of a pattern. -/
structure ActionClause where
  /-- The action. -/
  action : String
  /-- The group it is fired on. -/
  target : ActionTarget
  /-- The offset of the action. -/
  offset : Nat

namespace Scope

variable (s : Scope)

/-- Reads the target of an action after its opening parenthesis. -/
def readTarget (ls : List Lexeme) : Except CompileError (ActionTarget × List Lexeme) :=
  match ls with
  | ⟨.number digits, offset⟩ :: rest =>
    match natOfDigits? digits.toList with
    | some id => do
      let e ← s.expect .rparen "`)`" rest
      return (.index id, e.rest)
    | none => s.fault offset .hugeTarget
  | ⟨.var name, _⟩ :: rest => do
    let e ← s.expect .rparen "`)`" rest
    return (.name name, e.rest)
  | ⟨.rparen, _⟩ :: rest => .ok (.index 0, rest)
  | ls => s.faultAt ls (.expectedTarget (peek ls))

/-- Reads an action clause after its arrow. Without a target the action is fired on the whole
match. -/
def readActionClause (ls : List Lexeme) : Except CompileError (ActionClause × List Lexeme) :=
  match ls with
  | ⟨.ident action, offset⟩ :: rest =>
    if s.env.actions.contains action then
      match rest with
      | ⟨.lparen, _⟩ :: rest => do
        let (target, rest) ← s.readTarget rest
        return ({ action, target, offset }, rest)
      | rest => .ok ({ action, target := .index 0, offset }, rest)
    else .error (.unboundAction action offset)
  | ls => s.faultAt ls (.expectedActionName (peek ls))

end Scope

namespace Numbering

/-- The number of the group that an action clause names; of a name, its first group. -/
def target (st : Numbering) (c : ActionClause) : Except CompileError Nat := do
  let id ← match c.target with
    | .index id => pure id
    | .name name =>
      match st.names.ids name with
      | id :: _ => pure id
      | [] => .error (.unboundVariable name c.offset)
  if st.next ≤ id then .error (.invalidBackref id c.offset)
  return id

/-- The checks of a complete pattern. -/
def validate (st : Numbering) (o : NameOrder) (e : Expr) : Except CompileError Unit :=
  match st.backrefs.find? fun r => r.1 == 0 || st.next ≤ r.1 with
  | some (id, offset) => .error (.invalidBackref id offset)
  | none => (e.pathNames st.sites o).map fun _ => ()

end Numbering

/-! ## Patterns -/

/-- What several texts were read as. -/
structure Sources where
  /-- The expression of each text. -/
  parts : List Expr := []
  /-- Their groups. -/
  numbering : Numbering := {}
  /-- The action clause at the end. -/
  clause : Option ActionClause := none

/-- Reads texts one after the other. Only the last may end in an action clause. -/
def readSources (env : Environment) (r : Sources) : List String → Except CompileError Sources
  | [] => .ok r
  | source :: more => do
    let s : Scope := { env, source }
    let p ← s.readBranches r.numbering (← lexemes source)
    let e := Expr.ofBranches p.value.1
    match p.rest with
    | ⟨.arrow, offset⟩ :: rest =>
      if more.isEmpty then
        let (clause, rest) ← s.readActionClause rest
        s.expectEnd rest
        return { parts := r.parts ++ [e], numbering := p.value.2, clause := some clause }
      else s.fault offset .actionNotLast
    | rest =>
      s.expectEnd rest
      readSources env { parts := r.parts ++ [e], numbering := p.value.2 } more

/-- Compiles several texts as one pattern that matches them in sequence. -/
def compileAll (env : Environment) (sources : List String) : Except CompileError Pattern := do
  let r ← readSources env {} sources
  let body := Expr.ofItems r.parts
  r.numbering.validate env.order body
  let root ← match r.clause with
    | none => pure body
    | some c => (r.numbering.target c).map (Expr.action body c.action)
  return .build (" ".intercalate sources) root r.numbering.names r.numbering.next

/-- Compiles a text. -/
def compile (env : Environment) (source : String) : Except CompileError Pattern :=
  compileAll env [source]

end Motif
