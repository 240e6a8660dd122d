/-!
# Names of groups

* `GroupNames`: the names of a pattern's groups, in the order of their declaration. One name may
  stand for several groups, in different alternatives.
* `GroupNames.ids`, `GroupNames.nameOf?`: the groups of a name, and the name of a group.
* `NameOrder`: the orders in which sets of names are gone through.
-/

namespace Motif

/-- Names with the groups they stand for, in the order of declaration. -/
abbrev GroupNames := List (String × Nat)

namespace GroupNames

/-- The groups that a name stands for. -/
def ids (names : GroupNames) (name : String) : List Nat :=
  (names.filter (·.1 == name)).map (·.2)

/-- The first name of a group. -/
def nameOf? (names : GroupNames) (id : Nat) : Option String :=
  (names.find? (·.2 == id)).map (·.1)

/-- The names, each once. -/
def distinct (names : GroupNames) : List String := (names.map (·.1)).eraseDups

end GroupNames

/-- An order for every set of names. -/
structure Arrangement where
  /-- The names in that order. -/
  arrange : GroupNames → GroupNames
  /-- Each name comes up as often as it is there. -/
  perm (names : GroupNames) : (arrange names).Perm names

/-- The orders in which the sets of names at the places of an expression come up; each place is
given by the way to it. -/
def NameOrder := List Bool → Arrangement

namespace NameOrder

/-- Names come up in the order of their declaration. -/
def declared : NameOrder := fun _ => ⟨id, fun _ => .refl _⟩

variable (o : NameOrder)

/-- The order at the first of several expressions. -/
def here : Arrangement := o []

/-- The orders within the first of several expressions. -/
def head : NameOrder := fun way => o (false :: way)

/-- The orders at the other ones. -/
def tail : NameOrder := fun way => o (true :: way)

end NameOrder

end Motif
