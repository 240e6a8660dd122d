import Motif.Search

/-!
# Sessions

A session asks one search for one thing after the other. Failures do not end it: the next operation
begins where the last one left the search.

* `Operation`: what can be asked of a search.
* `Search.perform`: the answer to an operation, as several matches.
* `Search.session`: the answers to operations, one after the other.
-/

namespace Motif

/-- What can be asked of a search. -/
inductive Operation where
  /-- The next match. -/
  | find
  /-- The next match at or after a position. -/
  | findFrom (pos : Nat)
  /-- A match of the whole sequence. -/
  | matchWhole
  /-- A match that starts at a position. -/
  | matchAt (pos : Nat)
  /-- The matches from the start on, at most so many if there is a bound. -/
  | findAll (bound : Option Nat)
  /-- To search from the start again. -/
  | reset
  /-- To search in another way from now on. -/
  | setOptions (options : Options)
  /-- To join the texts of elements in another way from now on. -/
  | setRender (render : List Element → String)

/-- The match of an answer if there is one. -/
def Answer.found (a : Answer) : List Match :=
  match a.result with
  | .ok m => m.toList
  | .error _ => []

/-- The failure of an answer if there is one. -/
def Answer.error? (a : Answer) : Option MatchError :=
  match a.result with
  | .ok _ => none
  | .error e => some e

namespace Search

/-- An answer as several matches. -/
def Finds.ofAnswer (a : Answer) : Finds where
  found := a.found
  error := a.error?
  search := a.search
  events := a.events

/-- The answer to an operation. -/
def perform (s : Search) : Operation → Finds
  | .find => .ofAnswer s.find
  | .findFrom pos => .ofAnswer (s.findFrom pos)
  | .matchWhole => .ofAnswer s.matchWhole
  | .matchAt pos => .ofAnswer (s.matchAt pos)
  | .findAll none => s.findAll
  | .findAll (some k) => s.findFirst k
  | .reset => { search := s.reset }
  | .setOptions options => { search := { s with options } }
  | .setRender render => { search := { s with render } }

/-- The answers to operations, one after the other. -/
def session (s : Search) : List Operation → List Finds
  | [] => []
  | op :: ops => s.perform op :: (s.perform op).search.session ops

end Search

end Motif
