import Motif.Node

/-!
# Pattern expressions

A pattern over sequences is an expression tree. Its leaves are predicates over one element, runs of
elements whose joined text matches a regular expression, back references and anchors.

* `Expr`: the syntax of patterns.
* `Expr.canBeEmpty`: whether the expression may match no element.
* `Expr.shiftGroups`: renumbering of groups.
* `Expr.groups`, `Expr.backrefs`: the groups declared in a tree and the groups it refers to.
* `Expr.triggerWords?`: texts of which a matched sequence must contain one.
-/

namespace Motif

/-- Assertions about a position. -/
inductive Anchor where
  /-- At the start of the sequence. -/
  | start
  /-- At the end of the sequence. -/
  | stop
deriving DecidableEq

/-- A pattern over sequences of elements. -/
inductive Expr where
  /-- One element that satisfies the predicate. -/
  | node (p : NodePattern)
  | sequence (es : List Expr)
  /-- One of the alternatives, earlier ones preferred. -/
  | choice (es : List Expr)
  /-- Between `min` and `max` times, without a limit if there is no `max`; as often as possible if
  `greedy`, else as seldom as possible. -/
  | iterate (e : Expr) (min : Nat) (max : Option Nat) (greedy : Bool)
  /-- A group, which captures if it has a number. -/
  | group (e : Expr) (id : Option Nat) (name : Option String)
  /-- Elements with the texts of those that a group captured. -/
  | backref (id : Nat)
  /-- Between `min` and `max` elements whose joined text matches. -/
  | multi (min : Nat) (max : Option Nat) (text : Regex) (greedy : Bool)
  /-- Fires an action on a group, once the whole pattern has matched. -/
  | action (e : Expr) (name : String) (target : Nat)
  | anchor (a : Anchor)

namespace Expr

mutual

/-- The expression may match without consuming an element. -/
def canBeEmpty : Expr → Bool
  | node _ => false
  | sequence es => allCanBeEmpty es
  | choice es => someCanBeEmpty es
  | iterate e min _ _ => min == 0 || e.canBeEmpty
  | group e _ _ | action e _ _ => e.canBeEmpty
  | multi min _ _ _ => min == 0
  | backref _ | anchor _ => true

/-- All expressions may match without consuming an element. -/
def allCanBeEmpty : List Expr → Bool
  | [] => true
  | e :: es => e.canBeEmpty && allCanBeEmpty es

/-- Some expression may match without consuming an element. -/
def someCanBeEmpty : List Expr → Bool
  | [] => false
  | e :: es => e.canBeEmpty || someCanBeEmpty es

end

mutual

/-- Adds `k` to the numbers of all groups and to all references to them. A target 0, the whole
match, stays. -/
def shiftGroups (k : Nat) : Expr → Expr
  | node p => node p
  | sequence es => sequence (shiftAll k es)
  | choice es => choice (shiftAll k es)
  | iterate e min max greedy => iterate (e.shiftGroups k) min max greedy
  | group e id name => group (e.shiftGroups k) (id.map (· + k)) name
  | backref id => backref (id + k)
  | multi min max text greedy => multi min max text greedy
  | action e name target => action (e.shiftGroups k) name (if target = 0 then 0 else target + k)
  | anchor a => anchor a

/-- Renumbers the groups of several expressions. -/
def shiftAll (k : Nat) : List Expr → List Expr
  | [] => []
  | e :: es => e.shiftGroups k :: shiftAll k es

end

mutual

/-- The capturing groups in the order of their opening, each with its name. -/
def groups : Expr → List (Nat × Option String)
  | node _ | backref _ | multi .. | anchor _ => []
  | sequence es | choice es => groupsOfAll es
  | iterate e _ _ _ | action e _ _ => e.groups
  | group e id name => (id.toList.map (·, name)) ++ e.groups

/-- The capturing groups of several expressions. -/
def groupsOfAll : List Expr → List (Nat × Option String)
  | [] => []
  | e :: es => e.groups ++ groupsOfAll es

end

mutual

/-- The groups that back references name, in the order of the references. -/
def backrefs : Expr → List Nat
  | node _ | multi .. | anchor _ => []
  | sequence es | choice es => backrefsOfAll es
  | iterate e _ _ _ | action e _ _ | group e _ _ => e.backrefs
  | backref id => [id]

/-- The groups that the back references of several expressions name. -/
def backrefsOfAll : List Expr → List Nat
  | [] => []
  | e :: es => e.backrefs ++ backrefsOfAll es

end

mutual

/-- Texts of which a matched sequence must contain one, where they can be read off the tree. -/
def triggerWords? : Expr → Option (List String)
  | node p => p.triggerWords?
  | sequence es => firstTriggers? es
  | choice (e :: es) => unionTriggers? (e :: es)
  | iterate e min _ _ => if 0 < min then e.triggerWords? else none
  | group e _ _ | action e _ _ => e.triggerWords?
  | _ => none

/-- The words of the first part of a sequence that consumes an element and has some. -/
def firstTriggers? : List Expr → Option (List String)
  | [] => none
  | e :: es =>
    if e.canBeEmpty then firstTriggers? es else e.triggerWords?.or (firstTriggers? es)

/-- The words of all alternatives, if all have some. -/
def unionTriggers? : List Expr → Option (List String)
  | [] => some []
  | e :: es => do return (← e.triggerWords?) ++ (← unionTriggers? es)

end

/-- Several alternatives, or the only one. -/
def ofBranches : List Expr → Expr
  | [e] => e
  | es => choice es

/-- Several items in sequence, or the only one. -/
def ofItems : List Expr → Expr
  | [e] => e
  | es => sequence es

end Expr

end Motif
