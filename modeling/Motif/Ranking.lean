import Motif.Number.Binary64
import Motif.Span

/-!
# Ranking candidates

Where candidates overlap, the better ones are kept. A ranking is a chain of criteria, of which the
first that tells two candidates apart decides. Every criterion puts the better candidate first.

* `Candidate`: all that a ranking sees of a match.
* `Criterion`, `Criterion.compare`: the criteria.
* `Chain`, `Chain.compare`: chains of criteria.
* `selectDisjoint`: the best candidates that do not overlap.
-/

namespace Motif

/-- What a ranking sees of a match. -/
structure Candidate where
  /-- Its score. -/
  score : Binary64
  /-- Its span. -/
  span : Span
  /-- The number of candidates found before. -/
  order : Nat
deriving DecidableEq

/-- A criterion by which candidates are ranked. -/
inductive Criterion where
  /-- The higher score first, in the total order of floating-point data. -/
  | score
  /-- The longer span first. -/
  | length
  /-- The candidate that was found earlier first. -/
  | order
  /-- The leftmost span first, then the shortest. -/
  | offset
  /-- Score, then length, then order, then offset. -/
  | standard
deriving DecidableEq

/-- The comparison by a criterion. -/
def Criterion.compare : Criterion → Candidate → Candidate → Ordering
  | score, a, b => b.score.totalCompare a.score
  | length, a, b => Ord.compare b.span.length a.span.length
  | order, a, b => Ord.compare a.order b.order
  | offset, a, b => a.span.compare b.span
  | standard, a, b =>
    (b.score.totalCompare a.score).then <| (Ord.compare b.span.length a.span.length).then <|
      (Ord.compare a.order b.order).then (a.span.compare b.span)

/-- Criteria, of which the first that tells two candidates apart decides. -/
abbrev Chain := List Criterion

namespace Chain

/-- The comparison by a chain. To the empty chain all candidates are equal. -/
def compare : Chain → Candidate → Candidate → Ordering
  | [], _, _ => .eq
  | c :: cs, a, b => (c.compare a b).then (compare cs a b)

/-- Score, then length, then order, then offset. -/
def standard : Chain := [.score, .length, .order, .offset]

end Chain

/-! ## Selection -/

variable {α : Type}

/-- Sorts by a comparison; equal items keep their order. -/
def sortBy (cmp : α → α → Ordering) (xs : List α) : List α :=
  xs.mergeSort fun a b => (cmp a b).isLE

/-- Keeps each item that overlaps none of those kept before. -/
def keepDisjoint (span : α → Span) : List α → List α → List α
  | kept, [] => kept
  | kept, x :: xs =>
    keepDisjoint span
      (if kept.all fun k => !(span k).overlaps (span x) then kept ++ [x] else kept) xs

/-- The best items that do not overlap, in the order of their spans: better ones are taken first. -/
def selectDisjoint (span : α → Span) (cmp : α → α → Ordering) (xs : List α) : List α :=
  sortBy (fun a b => (span a).compare (span b)) (keepDisjoint span [] (sortBy cmp xs))

end Motif
