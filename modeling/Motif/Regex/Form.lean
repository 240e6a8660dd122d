import Motif.Regex.Tree

/-!
# Normal forms of regular expressions

Two ways of writing an expression may differ only in how it is put together. The normal form takes
away such differences: sequences and alternatives are flat, neighbouring literal characters form
one text, alternatives between single characters are a class, and what alternatives have in common
at their front stands before them.

* `Form`: expressions with literal texts and classes at the leaves.
* `Form.concat`, `Form.choice`, `Form.repeated`: the parts of a normal form put together.
* `normalForm`: the normal form of an expression.
* `Form.startsAtStart`, `Form.endsAtEnd`: every match begins at the start or ends at the end of the
  text, as far as the form shows.
-/

namespace Motif.Regex

open Unicode (CodeSet)

/-- The steps of a normal form. -/
inductive Leaf where
  /-- A text, which is not empty. -/
  | literal (cs : List Char)
  /-- One character of a set that does not have exactly one member. -/
  | chars (s : CodeSet)
deriving DecidableEq

/-- The step over one character of a set. -/
def Leaf.ofSet (s : CodeSet) : Leaf :=
  match s.intervals with
  | [(lo, hi)] => if lo = hi then literal [Char.ofNat lo] else chars s
  | _ => chars s

/-- A regular expression in normal form. -/
abbrev Form := Tree Leaf Look

namespace Form

/-! ## Equality -/

mutual

/-- Two forms are equal. Groups with a memory of their own never are. -/
def same : Form → Form → Bool
  | .step a, .step b => a == b
  | .look a, .look b => a == b
  | .seq as, .seq bs => sameAll as bs
  | .alt as, .alt bs => sameAll as bs
  | .iterate a min max greedy, .iterate b min' max' greedy' =>
    min == min' && max == max' && greedy == greedy' && same a b
  | _, _ => false

/-- Two lists of forms are equal. -/
def sameAll : List Form → List Form → Bool
  | [], [] => true
  | a :: as, b :: bs => same a b && sameAll as bs
  | _, _ => false

end

/-! ## Matches of the empty text -/

mutual

/-- The form shows that it matches only the empty text. -/
def onlyEmpty : Form → Bool
  | .step _ => false
  | .look _ => true
  | .seq ts | .alt ts => onlyEmptyAll ts
  | .iterate t _ _ _ => onlyEmpty t
  | .capture t => onlyEmpty t

/-- Several forms show that they match only the empty text. -/
def onlyEmptyAll : List Form → Bool
  | [] => true
  | t :: ts => onlyEmpty t && onlyEmptyAll ts

end

/-! ## Parts put together -/

/-- The parts of a sequence. -/
def parts : Form → List Form
  | .seq ts => ts
  | t => [t]

/-- The alternatives of a choice. -/
def alternatives : Form → List Form
  | .alt ts => ts
  | t => [t]

/-- Joins neighbouring literal texts. -/
def joinLiterals : List Form → List Form
  | [] => []
  | .step (.literal a) :: ts =>
    match joinLiterals ts with
    | .step (.literal b) :: ts => .step (.literal (a ++ b)) :: ts
    | ts => .step (.literal a) :: ts
  | t :: ts => t :: joinLiterals ts

/-- Forms one after the other. -/
def concat (ts : List Form) : Form :=
  match joinLiterals (ts.flatMap parts) with
  | [t] => t
  | ts => .seq ts

/-- A form several times. What matches only the empty text need not be repeated. -/
def repeated (t : Form) (min : Nat) (max : Option Nat) (greedy : Bool) : Form :=
  let (min, max) := if onlyEmpty t then (Nat.min min 1, some ((max.map (Nat.min · 1)).getD 1))
    else (min, max)
  if max = some 0 then .seq []
  else if min = 1 ∧ max = some 1 then t
  else .iterate t min max greedy

/-- The character of a form that is a single literal one. -/
def char? : Form → Option Char
  | .step (.literal [c]) => some c
  | _ => none

/-- The set of a form that is a class. -/
def set? : Form → Option CodeSet
  | .step (.chars s) => some s
  | _ => none

/-- The parts of a form that is a sequence of several. -/
def seq? : Form → Option (List Form)
  | .seq (t :: ts) => some (t :: ts)
  | _ => none

/-- The set of alternatives that are all single characters, or all classes. -/
def commonSet? (ts : List Form) : Option CodeSet :=
  ((ts.mapM char?).map fun cs => CodeSet.ofPoints (cs.map Char.toNat)).or
    ((ts.mapM set?).map CodeSet.unionAll)

/-- The number of parts at the front in which two sequences agree. -/
def agreement (as bs : List Form) : Nat := ((as.zip bs).takeWhile fun (a, b) => same a b).length

/-- The number of parts at the front in which all sequences agree. -/
def commonLength : List (List Form) → Nat
  | [] => 0
  | as :: rest => rest.foldl (fun n bs => Nat.min n (agreement as bs)) as.length

/-- Alternatives, with what they have in common before them. Putting something before them uses up
parts of the first alternative; the first argument bounds their number. -/
def choiceWithin : Nat → List Form → Form
  | fuel, ts =>
    let ts := ts.flatMap alternatives
    match fuel, ts with
    | _, [t] => t
    | 0, ts => .alt ts
    | fuel + 1, ts =>
      match commonSet? ts, ts.mapM seq? with
      | some s, _ => .step (.ofSet s)
      | none, none => .alt ts
      | none, some seqs =>
        match commonLength seqs with
        | 0 => .alt ts
        | n =>
          let rest := choiceWithin fuel (seqs.map fun parts => concat (parts.drop n))
          concat ((seqs.headD []).take n ++ [rest])

mutual

/-- The number of parts of a form, parts of parts included. -/
def count : Form → Nat
  | .step _ | .look _ => 1
  | .seq ts | .alt ts => countAll ts + 1
  | .iterate t _ _ _ => count t + 1
  | .capture t => count t + 1

/-- The number of parts of several forms. -/
def countAll : List Form → Nat
  | [] => 0
  | t :: ts => count t + countAll ts

end

/-- Alternatives, with what they have in common before them. -/
def choice (ts : List Form) : Form := choiceWithin (countAll ts + 1) ts

/-! ## Anchors -/

mutual

/-- The form shows that every match begins at the start of the text. -/
def startsAtStart : Form → Bool
  | .step _ => false
  | .look l => l == .textStart
  | .seq ts => someStartsAtStart ts
  | .alt ts => !ts.isEmpty && allStartAtStart ts
  | .iterate t min _ _ => 0 < min && startsAtStart t
  | .capture t => startsAtStart t

/-- A part starts at the start, and only empty matches come before it. -/
def someStartsAtStart : List Form → Bool
  | [] => false
  | t :: ts => startsAtStart t || (onlyEmpty t && someStartsAtStart ts)

/-- All alternatives start at the start. -/
def allStartAtStart : List Form → Bool
  | [] => true
  | t :: ts => startsAtStart t && allStartAtStart ts

end

mutual

/-- The form shows that every match ends at the end of the text. -/
def endsAtEnd : Form → Bool
  | .step _ => false
  | .look l => l == .textEnd
  | .seq ts => someEndsAtEnd ts
  | .alt ts => !ts.isEmpty && allEndAtEnd ts
  | .iterate t min _ _ => 0 < min && endsAtEnd t
  | .capture t => endsAtEnd t

/-- A part ends at the end, and only empty matches come after it. -/
def someEndsAtEnd : List Form → Bool
  | [] => false
  | t :: ts => (endsAtEnd t && onlyEmptyAll ts) || someEndsAtEnd ts

/-- All alternatives end at the end. -/
def allEndAtEnd : List Form → Bool
  | [] => true
  | t :: ts => endsAtEnd t && allEndAtEnd ts

end

end Form

/-! ## The normal form of an expression -/

mutual

/-- The normal form of an expression. -/
def normalForm : Syntax → Form
  | .step s => .step (.ofSet s)
  | .look l => .look l
  | .seq ts => .concat (normalForms ts)
  | .alt ts => .choice (normalForms ts)
  | .iterate t min max greedy => .repeated (normalForm t) min max greedy
  | .capture t => .capture (normalForm t)

/-- The normal forms of several expressions. -/
def normalForms : List Syntax → List Form
  | [] => []
  | t :: ts => normalForm t :: normalForms ts

end

end Motif.Regex
