/-!
# Sets of code points

The classes of the Unicode character database are unions of a few hundred intervals. Such a set
is stored by its *boundaries*, the code points at which membership changes, in increasing order:
the intervals `[b₀, b₁)`, `[b₂, b₃)`, … belong to the set. A code point is a member when an odd
number of boundaries is at most as large.

* `CodeSet`: a set of code points.
* `CodeSet.rank`: the number of boundaries up to a code point, found by bisection.
* `CodeSet.contains`: membership.
* `CodeSet.combine`: set algebra, in one sweep over the boundaries of two sets.
* `CodeSet.unionAll`: the union of several sets, in rounds over pairs of neighbours.
* `CodeSet.intervals`, `CodeSet.ofPoints`: a set as intervals, and from single code points.
-/

namespace Motif.Unicode

/-- A set of code points, by its boundaries in increasing order. -/
structure CodeSet where
  /-- The first code point of each interval, followed by the first one after it. -/
  boundaries : Array Nat
deriving DecidableEq

namespace CodeSet

/-- Bisection between `lo` and `hi`: below `lo` all boundaries are at most `c`, from `hi` on none
is. The first argument bounds the number of halvings. -/
def rankBetween (b : Array Nat) (c : Nat) : Nat → Nat → Nat → Nat
  | 0, lo, _ => lo
  | fuel + 1, lo, hi =>
    if lo < hi then
      let mid := (lo + hi) / 2
      if b.getD mid 0 ≤ c then rankBetween b c fuel (mid + 1) hi else rankBetween b c fuel lo mid
    else lo

/-- The number of boundaries that are at most `c`. -/
def rank (s : CodeSet) (c : Nat) : Nat :=
  rankBetween s.boundaries c s.boundaries.size 0 s.boundaries.size

/-- Membership of a code point. -/
def contains (s : CodeSet) (c : Nat) : Bool := s.rank c % 2 == 1

/-! ## Set algebra -/

/-- The set without members. -/
def empty : CodeSet := ⟨#[]⟩

/-- All code points between two, both included. -/
def range (lo hi : Nat) : CodeSet := if lo ≤ hi then ⟨#[lo, hi + 1]⟩ else empty

/-- The set of one code point. -/
def single (c : Nat) : CodeSet := range c c

/-- A boundary is one of the combination when membership changes there. -/
def boundaryIf (before after : Bool) (x : Nat) (xs : List Nat) : List Nat :=
  if before == after then xs else x :: xs

/-- Sweeps over the boundaries of two sets; the flags say whether what lies before the boundaries
belongs to the sets. -/
def sweep (f : Bool → Bool → Bool) : Nat → Bool → Bool → List Nat → List Nat → List Nat
  | 0, _, _, _, _ => []
  | _ + 1, _, _, [], [] => []
  | fuel + 1, a, b, x :: xs, [] => boundaryIf (f a b) (f (!a) b) x (sweep f fuel (!a) b xs [])
  | fuel + 1, a, b, [], y :: ys => boundaryIf (f a b) (f a (!b)) y (sweep f fuel a (!b) [] ys)
  | fuel + 1, a, b, x :: xs, y :: ys =>
    if x < y then boundaryIf (f a b) (f (!a) b) x (sweep f fuel (!a) b xs (y :: ys))
    else if y < x then boundaryIf (f a b) (f a (!b)) y (sweep f fuel a (!b) (x :: xs) ys)
    else boundaryIf (f a b) (f (!a) (!b)) x (sweep f fuel (!a) (!b) xs ys)

/-- The code points for which `f` holds of their memberships in two sets. It must not hold of code
points in neither set. -/
def combine (f : Bool → Bool → Bool) (s t : CodeSet) : CodeSet :=
  let total := s.boundaries.size + t.boundaries.size
  ⟨(sweep f total false false s.boundaries.toList t.boundaries.toList).toArray⟩

/-- The code points in one of two sets. -/
def union : CodeSet → CodeSet → CodeSet := combine (· || ·)

/-- The code points in both sets. -/
def inter : CodeSet → CodeSet → CodeSet := combine (· && ·)

/-- The code points in the first set and not in the second. -/
def diff : CodeSet → CodeSet → CodeSet := combine (· && !·)

/-- The code points in exactly one of two sets. -/
def symmDiff : CodeSet → CodeSet → CodeSet := combine (· != ·)

/-- Unites neighbours of a list of sets. -/
def unitePairs : List CodeSet → List CodeSet
  | s :: t :: rest => s.union t :: unitePairs rest
  | ss => ss

/-- Unites neighbours until one set is left; the first argument bounds the number of rounds. -/
def uniteRounds : Nat → List CodeSet → CodeSet
  | _, [] => empty
  | _, [s] => s
  | 0, s :: _ => s
  | fuel + 1, ss => uniteRounds fuel (unitePairs ss)

/-- The union of several sets. -/
def unionAll (ss : List CodeSet) : CodeSet := uniteRounds ss.length ss

/-! ## Intervals and points -/

/-- The intervals between successive boundaries, both ends included. -/
def intervalsOf : List Nat → List (Nat × Nat)
  | lo :: next :: bs => (lo, next - 1) :: intervalsOf bs
  | _ => []

/-- The intervals of a set in increasing order, both ends included. -/
def intervals (s : CodeSet) : List (Nat × Nat) := intervalsOf s.boundaries.toList

/-- The set of the listed code points. -/
def ofPoints (cs : List Nat) : CodeSet := unionAll (cs.map single)

/-- No member is as large as `n`. -/
def isBelow (s : CodeSet) (n : Nat) : Bool := s.boundaries.back?.all (· ≤ n)

end CodeSet

/-- The code points of the surrogates, which are not characters. -/
def surrogates : CodeSet := .range 0xD800 0xDFFF

/-- The code points of all characters. -/
def characters : CodeSet := .diff (.range 0 0x10FFFF) surrogates

end Motif.Unicode
