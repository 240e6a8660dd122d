import Motif.GroupNames
import Motif.Grammar.Error
import Motif.Program

/-!
# Compiled patterns

* `Pattern`: an expression ready to be searched for, with its names, its program and a score.
* `Pattern.build`: the pattern of an expression.
* `Pattern.ofExpr`: a pattern from an expression whose groups are already numbered, and
  `Pattern.ofCounted` if their number is known.
* `Pattern.body`, `Pattern.trailingAction?`: the expression without its trailing action, and that
  action.
-/

namespace Motif

/-- A compiled pattern. -/
structure Pattern where
  /-- The text it was compiled from. -/
  source : String
  /-- Its expression. -/
  root : Expr
  /-- The names of its groups. -/
  names : GroupNames
  /-- The number of groups, the whole match included. -/
  groupCount : Nat
  /-- The score of its matches. -/
  score : Binary64 := .zero
  /-- The program of the expression. -/
  program : Program := .lower root
  /-- The program is that of the expression. -/
  program_eq : program = .lower root := by rfl

namespace Pattern

/-- The pattern of an expression, with a score of zero. -/
def build (source : String) (root : Expr) (names : GroupNames) (groupCount : Nat) : Pattern :=
  { source, root, names, groupCount }

/-- The names and numbers of named groups. -/
def namedGroups (gs : List (Nat × Option String)) : GroupNames :=
  gs.filterMap fun (id, name) => name.map (·, id)

/-- One more than the largest group number. -/
def groupBound (gs : List (Nat × Option String)) : Nat := (gs.map (·.1)).foldl max 0 + 1

/-- A pattern from an expression with so many groups. A back reference must name one of them. -/
def ofCounted (source : String) (root : Expr) (count : Nat) : Except CompileError Pattern :=
  match root.backrefs.find? fun id => id == 0 || count ≤ id with
  | some id => .error (.invalidBackref id 0)
  | none => .ok (build source root (namedGroups root.groups) count)

/-- A pattern from an expression whose groups are already numbered. A back reference must name a
group between 1 and the largest one. -/
def ofExpr (source : String) (root : Expr) : Except CompileError Pattern :=
  ofCounted source root (groupBound root.groups)

/-- The same pattern with another score. -/
def withScore (p : Pattern) (score : Binary64) : Pattern := { p with score }

/-- The expression without a trailing action. -/
def body (p : Pattern) : Expr :=
  match p.root with
  | .action e _ _ => e
  | e => e

/-- The trailing action and the group it is fired on. -/
def trailingAction? (p : Pattern) : Option (String × Nat) :=
  match p.root with
  | .action _ name target => some (name, target)
  | _ => none

end Pattern

end Motif
