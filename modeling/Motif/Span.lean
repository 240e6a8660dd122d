/-!
# Spans

* `Span`: a half-open range of element positions.
* `Span.contains`, `Span.overlaps`: how two spans lie to each other.
* `Span.compare`: leftmost first, then shortest.
-/

namespace Motif

/-- The positions from `start` up to, but not including, `stop`. -/
structure Span where
  /-- The first position. -/
  start : Nat
  /-- The position after the last one. -/
  stop : Nat
deriving DecidableEq, Inhabited

namespace Span

/-- The number of positions. -/
def length (s : Span) : Nat := s.stop - s.start

/-- There is no position. -/
def isEmpty (s : Span) : Bool := s.start == s.stop

/-- `t` lies inside `s`. -/
def contains (s t : Span) : Bool := s.start ≤ t.start && t.stop ≤ s.stop

/-- Each span starts before the other one stops. -/
def overlaps (s t : Span) : Bool := s.start < t.stop && t.start < s.stop

/-- Leftmost first, then shortest. -/
def compare (s t : Span) : Ordering :=
  (Ord.compare s.start t.start).then (Ord.compare s.stop t.stop)

end Span

end Motif
