/-!
# Choices between words

A choice between literal texts becomes a tree of their bytes, in which texts share their beginnings.
The order of the texts matters, since the first one that fits is taken: when a text ends at a place
of the tree, texts that come later and pass through that place go on in a new group of branches.

* `WordTree`: the tree of some words, as a table of places.
* `WordTree.ofWords`: the tree of words in their order.
* `WordPlace.states`, `WordPlace.edges`, `WordPlace.choices`: what a place takes up in an automaton.
-/

namespace Motif.Regex

/-- A place in a tree of words: the groups of branches that lead on from it, the last group first.
-/
structure WordPlace where
  /-- The groups of branches. A word ends between any two groups. -/
  groups : List (List (UInt8 × Nat)) := [[]]

namespace WordPlace

/-- No branches lead on. -/
def isLeaf (p : WordPlace) : Bool := p.groups.all List.isEmpty

/-- Where the last group leads with a byte. -/
def next? (p : WordPlace) (b : UInt8) : Option Nat :=
  ((p.groups.headD []).find? (·.1 == b)).map (·.2)

/-- Adds a branch to the last group. -/
def branch (p : WordPlace) (b : UInt8) (target : Nat) : WordPlace :=
  ⟨((b, target) :: p.groups.headD []) :: p.groups.tail⟩

/-- Ends a word here. Where one has ended and no branches lead on, nothing changes. -/
def close (p : WordPlace) : WordPlace :=
  if p.isLeaf && 1 < p.groups.length then p else ⟨[] :: p.groups⟩

/-- The groups that have branches. -/
def branching (p : WordPlace) : List (List (UInt8 × Nat)) := p.groups.filter (!·.isEmpty)

/-- The states of a place: one that chooses, and one for each group with branches. -/
def states (p : WordPlace) : Nat := p.branching.length + 1

/-- The edges that are stored with the states: those of groups with several branches. -/
def edges (p : WordPlace) : Nat :=
  (p.branching.filter fun g => 1 < g.length).flatten.length

/-- The choices that are stored with the states: one for each group with branches, and one for each
end of a word. -/
def choices (p : WordPlace) : Nat := p.branching.length + (p.groups.length - 1)

end WordPlace

/-- The tree of some words, by the places that it has; the root comes first. -/
abbrev WordTree := Array WordPlace

namespace WordTree

/-- The place with a number. -/
def place (t : WordTree) (i : Nat) : WordPlace := t.getD i {}

/-- Follows a byte from a place, which becomes a new place if there is none. -/
def follow (t : WordTree) (i : Nat) (b : UInt8) : WordTree × Nat :=
  match (t.place i).next? b with
  | some j => (t, j)
  | none =>
    let j := t.size
    ((t.modify i (·.branch b j)).push {}, j)

/-- Adds a word from a place on. -/
def insertFrom (t : WordTree) (i : Nat) : List UInt8 → WordTree
  | [] => t.modify i WordPlace.close
  | b :: bs =>
    match t.follow i b with
    | (t, j) => t.insertFrom j bs

/-- The tree of words in their order. -/
def ofWords (ws : List (List UInt8)) : WordTree := ws.foldl (·.insertFrom 0 ·) #[{}]

/-- The places that become states: all but those where words only end. -/
def inner (t : WordTree) : List WordPlace := t.toList.filter (!·.isLeaf)

end WordTree

end Motif.Regex
