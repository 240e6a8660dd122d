import Motif.AttrTest

/-!
# Predicates over one element

A node pattern accepts or rejects a single element. Besides tests of attributes it may consult
functions of the caller, which can attach a payload to an accepted element or fail. Every call of
such a function is part of the result of a test, in order.

* `NodePattern`: the syntax of node patterns.
* `NodeFunction`, `Verdict`, `PredicateError`: functions of the caller, and what they answer.
* `NodePattern.test`: the verdict on an element, with the calls it took.
* `NodePattern.triggerWords?`: texts of which an accepted element must have one.
-/

namespace Motif

/-- The answer to a test of an element. -/
inductive Verdict where
  | reject
  | accept
  /-- Accepted, with a payload. -/
  | acceptWith (payload : Value)
deriving DecidableEq

namespace Verdict

/-- The element is accepted. -/
def isAccept : Verdict → Bool
  | reject => false
  | _ => true

/-- Acceptance without a payload, or rejection. -/
def ofBool (b : Bool) : Verdict := if b then accept else reject

end Verdict

/-- The failure of a function of the caller. -/
structure PredicateError where
  /-- The name of the function. -/
  function : String
  /-- What went wrong. -/
  message : String
deriving DecidableEq

/-- The wording of a failure. -/
def PredicateError.text (e : PredicateError) : String :=
  "node function `" ++ e.function ++ "` failed: " ++ e.message

/-- A function of the caller over elements. -/
structure NodeFunction where
  /-- Its name. -/
  name : String
  /-- Its verdict on an element, or its failure. -/
  eval : Element → Except PredicateError Verdict
  /-- Its calls are to be reported. -/
  traced : Bool := false

/-- A call of a function of the caller. -/
structure Call where
  /-- The function. -/
  function : NodeFunction
  /-- The element it was asked about. -/
  element : Element

/-- A predicate over one element. -/
inductive NodePattern where
  /-- Every element. -/
  | any
  | negation (p : NodePattern)
  /-- All of them; the first rejection decides. -/
  | conjunction (ps : List NodePattern)
  /-- Some of them; the first acceptance decides. -/
  | disjunction (ps : List NodePattern)
  | attr (key : AttrKey) (test : AttrTest)
  | presence (key : AttrKey) (test : Presence)
  | custom (f : NodeFunction)

/-- The outcome of a test: a verdict or a failure, and the calls on the way. -/
structure Tested where
  /-- The verdict, or the first failure. -/
  verdict : Except PredicateError Verdict
  /-- The calls of functions, in order. -/
  calls : List Call := []

namespace Tested

/-- A verdict without calls. -/
def pure (v : Verdict) : Tested := { verdict := .ok v }

/-- Continues after a verdict; a failure ends the test. -/
def bind (t : Tested) (f : Verdict → Tested) : Tested :=
  match t.verdict with
  | .error e => { t with verdict := .error e }
  | .ok v =>
    let u := f v
    { u with calls := t.calls ++ u.calls }

end Tested

namespace NodePattern

mutual

/-- Tests an element. A conjunction keeps the first payload of its parts, a disjunction the verdict
of the accepting part, and a negation has none. -/
def test : NodePattern → Element → Tested
  | any, _ => .pure .accept
  | negation p, e => (p.test e).bind fun v => .pure (.ofBool !v.isAccept)
  | conjunction ps, e => testAll ps none e
  | disjunction ps, e => testSome ps e
  | attr key test, e => .pure (.ofBool (test.holds (key.lookup e)))
  | presence key test, e => .pure (.ofBool (test.holds (key.lookup e)))
  | custom f, e => { verdict := f.eval e, calls := [⟨f, e⟩] }

/-- Tests the parts of a conjunction, with the payload of the parts before them. -/
def testAll : List NodePattern → Option Value → Element → Tested
  | [], payload, _ => .pure (payload.elim .accept .acceptWith)
  | p :: ps, payload, e => (p.test e).bind fun
    | .reject => .pure .reject
    | .accept => testAll ps payload e
    | .acceptWith v => testAll ps (payload.or (some v)) e

/-- Tests the parts of a disjunction. -/
def testSome : List NodePattern → Element → Tested
  | [], _ => .pure .reject
  | p :: ps, e => (p.test e).bind fun v => if v.isAccept then .pure v else testSome ps e

end

/-- The element is accepted, or a function failed. -/
def accepts (p : NodePattern) (e : Element) : Except PredicateError Bool :=
  (p.test e).verdict.map Verdict.isAccept

mutual

/-- Texts of which an accepted element must have one, where they can be read off the pattern. -/
def triggerWords? : NodePattern → Option (List String)
  | attr .text (.equals value false) => some [value]
  | disjunction (p :: ps) => unionTriggers? (p :: ps)
  | conjunction ps => firstTriggers? ps
  | _ => none

/-- The words of all parts, if all have some. -/
def unionTriggers? : List NodePattern → Option (List String)
  | [] => some []
  | p :: ps => do return (← p.triggerWords?) ++ (← unionTriggers? ps)

/-- The words of the first part that has some. -/
def firstTriggers? : List NodePattern → Option (List String)
  | [] => none
  | p :: ps => p.triggerWords?.or (firstTriggers? ps)

end

end NodePattern

end Motif
