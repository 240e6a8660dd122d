import Motif.Ranking
import Motif.Search
import Motif.TriggerIndex

/-!
# Searching for several patterns

Several patterns are searched for in one sequence, and the best matches that do not overlap are
selected. A pattern whose trigger words do not occur in the sequence cannot match and is not
searched for. A pattern that is registered twice finds every match once.

* `Registration`, `Ensemble`: the patterns that are searched for together.
* `Ensemble.index`: the patterns by their trigger words.
* `Ensemble.active`: the patterns that can match at all.
* `Ensemble.collect`: all matches of all patterns.
* `Ensemble.run`: all matches and the best of them.
-/

namespace Motif

/-- A pattern that is searched for together with others. -/
structure Registration where
  /-- The compiled pattern. -/
  pattern : Pattern
  /-- What it was compiled as: registrations of one compiled pattern have the same number. -/
  artifact : Nat

/-- Patterns that are searched for together. -/
structure Ensemble where
  /-- The patterns. -/
  registrations : List Registration
  /-- How to search. The limit on steps holds for every operation. -/
  options : Options := {}

/-- Two matches with the same key are found by one pattern in one place. -/
structure MatchKey where
  /-- The span of the match. -/
  span : Span
  /-- The compiled pattern. -/
  artifact : Nat
  /-- Its score. -/
  score : Binary64
deriving DecidableEq

/-- What has been collected so far. -/
structure Harvest where
  /-- The matches, each once. -/
  candidates : List Match := []
  /-- Their keys. -/
  keys : List MatchKey := []
  /-- The number of matches found again. -/
  duplicates : Nat := 0
  /-- The counts of all searches. -/
  search : Metrics := {}

/-- The counts of a run. -/
structure EnsembleMetrics where
  /-- The number of patterns. -/
  total : Nat
  /-- The number of patterns that were searched for. -/
  active : Nat
  /-- The number of matches, each counted once. -/
  candidates : Nat
  /-- The number of matches found again. -/
  duplicates : Nat
  /-- The counts of all searches. -/
  search : Metrics
deriving DecidableEq

/-- The result of a run. -/
structure EnsembleRun where
  /-- All matches, in the order in which they were found. -/
  candidates : List Match
  /-- The best of them that do not overlap, in the order of their spans. -/
  selected : List Match
  /-- The counts. -/
  metrics : EnsembleMetrics

/-- What a ranking sees of a match. -/
def Match.candidate (m : Match) : Candidate := ⟨m.score, m.span, m.order⟩

namespace Harvest

/-- Adds a match, unless it was found before. Matches are numbered in the order in which they are
added. -/
def insert (h : Harvest) (pattern artifact : Nat) (m : Match) : Harvest :=
  let key : MatchKey := ⟨m.span, artifact, m.score⟩
  if h.keys.contains key then { h with duplicates := h.duplicates + 1 }
  else
    { h with
      candidates := h.candidates ++ [{ m with order := h.candidates.length, pattern }],
      keys := key :: h.keys }

end Harvest

namespace Ensemble

variable (e : Ensemble)

/-- The index of the patterns. -/
def index : TriggerIndex :=
  .ofTriggers (e.registrations.map fun r => r.pattern.root.triggerWords?)

/-- The patterns that can match, with their numbers. -/
def active (elements : Array Element) : List (Registration × Nat) :=
  (e.index.active (elements.toList.map Element.text)).filterMap fun id =>
    e.registrations[id]?.map (·, id)

/-- The search for a pattern. -/
def search (elements : Array Element) (r : Registration) : Search :=
  { pattern := r.pattern, elements, options := e.options }

/-- Adds the matches of one pattern after the other. The first failure ends the collection. -/
def collectFrom (elements : Array Element) (h : Harvest) :
    List (Registration × Nat) → Except MatchError Harvest × List Event
  | [] => (.ok h, [])
  | (r, id) :: more =>
    let f := (e.search elements r).findAll
    match f.error with
    | some err => (.error err, f.events)
    | none =>
      let h := f.found.foldl (fun h m => h.insert id r.artifact m) h
      let h := { h with search := h.search.add f.search.metrics }
      let (result, events) := collectFrom elements h more
      (result, f.events ++ events)

/-- All matches of all patterns, each once. -/
def collect (elements : Array Element) : Except MatchError Harvest × List Event :=
  e.collectFrom elements {} (e.active elements)

/-- All matches, and the best of them according to a chain. -/
def run (chain : Chain) (elements : Array Element) : Except MatchError EnsembleRun × List Event :=
  let (result, events) := e.collect elements
  let result := result.map fun h =>
    { candidates := h.candidates,
      selected := selectDisjoint Match.span
        (fun a b => chain.compare a.candidate b.candidate) h.candidates,
      metrics := {
        total := e.registrations.length,
        active := (e.active elements).length,
        candidates := h.candidates.length,
        duplicates := h.duplicates,
        search := h.search } }
  (result, events)

end Ensemble

end Motif
