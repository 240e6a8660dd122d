import Motif.Regex.Escape
import Motif.Unicode.Version17

/-!
# Reading regular expressions

Reading decides which expressions are valid and yields their syntax tree under the flags in force.
The functions recurse on a count that their entry points set from the length of the input: every
recursive call but two per group is paid for by a character. A second count bounds how deep groups
and classes may lie within each other.

* `Nested`: a part of an expression, with the depth of what it is made of.
* `readClass?`: a class in brackets, after the opening bracket.
* `readBranches?`: an alternation, up to a closing parenthesis or the end.
* `readTree?`: a whole expression.
-/

namespace Motif.Regex

open Unicode (CodeSet)

/-! ## Depth -/

/-- A part of an expression, with the number of levels it is built of. -/
structure Nested (α : Type) where
  /-- The part. -/
  value : α
  /-- Its levels: leaves have none, and all that is built of parts has one more than these. -/
  depth : Nat

/-- Expressions of more levels are refused. -/
def depthLimit : Nat := 250

namespace Nested

variable {α β : Type}

/-- A part without parts of its own. -/
def leaf (a : α) : Nested α := ⟨a, 0⟩

/-- One more level around a part. -/
def wrap (f : α → β) (a : Nested α) : Nested β := ⟨f a.value, a.depth + 1⟩

/-- The parts of a list, last one first, put together in order. One part alone stands for itself,
and none is a leaf. -/
def gather (f : List α → α) : List (Nested α) → Nested α
  | [] => leaf (f [])
  | [a] => a
  | parts => ⟨f (parts.map (·.value)).reverse, parts.foldl (fun d a => max d a.depth) 0 + 1⟩

end Nested

/-! ## Classes in brackets -/

/-- The operations between classes. -/
inductive ClassOp where
  | inter | diff | symmDiff

/-- Applies an operation. -/
def ClassOp.apply : ClassOp → CodeSet → CodeSet → CodeSet
  | inter, a, b => a.inter b
  | diff, a, b => a.diff b
  | symmDiff, a, b => a.symmDiff b

/-- The part of a class before an operator, waiting for its right side. -/
abbrev Pending := Option (Nested CodeSet × ClassOp)

/-- Combines the part before an operator with the items after it, last one first. Both sides of an
operator are closed under case. -/
def Pending.combine (m : Mode) (items : List (Nested CodeSet)) (pending : Pending) :
    Nested CodeSet :=
  let s : Nested CodeSet := .gather CodeSet.unionAll items
  match pending with
  | none => s
  | some (left, op) =>
    ⟨op.apply (m.fold left.value) (m.fold s.value), max left.depth s.depth + 1⟩

/-- A bracketed name such as `:alpha:]`, after its opening bracket: whether a caret negates it, its
class, and the rest. -/
def readNamedClass? : List Char → Option (Bool × CodeSet × List Char)
  | ':' :: cs =>
    let (negated, cs) := match cs with
      | '^' :: rest => (true, rest)
      | _ => (false, cs)
    match cs.dropWhile (· != ':') with
    | ':' :: ']' :: rest =>
      (posixClass? (String.ofList (cs.takeWhile (· != ':')))).map fun s => (negated, s, rest)
    | _ => none
  | _ => none

/-- One character or escape of a class. -/
def readClassAtom? (m : Mode) : List Char → Option (Atom × List Char)
  | [] => none
  | '\\' :: cs => readEscape? m cs
  | c :: cs => some (.literal c false, cs)

/-- The class of one atom; a condition has none. -/
def Atom.class? (m : Mode) : Atom → Option CodeSet
  | .literal c _ => m.literalClass? c
  | .chars s => some s
  | .look _ => none

/-- The interval between two atoms, which must be characters in order. -/
def rangeClass? (m : Mode) : Atom → Atom → Option CodeSet
  | .literal a _, .literal b _ => do
    let _ ← m.literalClass? a
    let _ ← m.literalClass? b
    if a ≤ b then some ((CodeSet.range a.toNat b.toNat).diff Unicode.surrogates) else none
  | _, _ => none

/-- One atom or one interval of a class. A hyphen that seems to stand before a hyphen or the closing
bracket writes no interval. -/
def readClassItem? (m : Mode) (cs : List Char) : Option (CodeSet × List Char) := do
  let (a, rest) ← readClassAtom? m cs
  match m.skip rest with
  | [] => none
  | '-' :: after =>
    if [some ']', some '-'].contains (m.afterHyphen? after) then
      return (← a.class? m, m.skip rest)
    else
      let (b, rest) ← readClassAtom? m (m.skip after)
      return (← rangeClass? m a b, rest)
  | rest => return (← a.class? m, rest)

mutual

/-- A class after its opening bracket, with at most `levels` levels: a caret, hyphens and a closing
bracket count only here as what they are. -/
def readClass? : Nat → Nat → Mode → List Char → Option (Nested CodeSet × List Char)
  | 0, _, _, _ | _, 0, _, _ => none
  | fuel + 1, levels + 1, m, cs =>
    let (negated, cs) := match m.skip cs with
      | '^' :: rest => (true, m.skip rest)
      | cs => (false, cs)
    let (hyphens, cs) := m.collect (· == '-') false cs
    let first (c : Char) : Nested CodeSet := .leaf (.single c.toNat)
    match hyphens, cs with
    | [], ']' :: rest => readClassItems? fuel levels m negated none [first ']'] rest
    | _, cs => readClassItems? fuel levels m negated none (hyphens.map first) cs

/-- The items of a class up to its closing bracket; `items` are those since the last operator, last
one first. -/
def readClassItems? : Nat → Nat → Mode → Bool → Pending → List (Nested CodeSet) → List Char →
    Option (Nested CodeSet × List Char)
  | 0, _, _, _, _, _, _ => none
  | fuel + 1, levels, m, negated, pending, items, cs =>
    let operator (op : ClassOp) (rest : List Char) :=
      readClassItems? fuel levels m negated (some (pending.combine m items, op)) [] rest
    match m.skip cs with
    | [] => none
    | ']' :: rest =>
      let all := pending.combine m items
      (m.finish? negated all.value).map fun s => (⟨s, all.depth + 1⟩, rest)
    | '[' :: rest =>
      match readNamedClass? rest with
      | some (complement, t, rest) => do
        let t ← m.finish? complement t
        readClassItems? fuel levels m negated pending (.leaf t :: items) rest
      | none => do
        let (t, rest) ← readClass? fuel levels m rest
        readClassItems? fuel levels m negated pending (t :: items) rest
    | '&' :: '&' :: rest => operator .inter rest
    | '-' :: '-' :: rest => operator .diff rest
    | '~' :: '~' :: rest => operator .symmDiff rest
    | cs => do
      let (t, rest) ← readClassItem? m cs
      readClassItems? fuel levels m negated pending (.leaf t :: items) rest

end

/-! ## Groups -/

/-- The names of groups read so far. -/
abbrev GroupNames := List String

/-- What an opening parenthesis starts. -/
inductive Opening where
  /-- Flags for the rest of the enclosing group. -/
  | flags (m : Mode)
  /-- A group under its own flags; `captures` says that its match is remembered. -/
  | group (captures : Bool) (m : Mode) (names : GroupNames)

/-- Reads a group name up to its closing bracket. A name may be used once. -/
def readGroupName? (names : GroupNames) (cs : List Char) : Option (GroupNames × List Char) :=
  let name := cs.takeWhile (· != '>')
  let isFirst (c : Char) : Bool := c == '_' || Unicode.Version17.alphabetic.contains c.toNat
  let isLater (c : Char) : Bool :=
    c == '_' || c == '.' || c == '[' || c == ']' || Unicode.Version17.alphanumeric.contains c.toNat
  match name, cs.dropWhile (· != '>') with
  | c :: later, _ :: rest =>
    let text := String.ofList name
    if isFirst c && later.all isLater && !names.contains text then some (text :: names, rest)
    else none
  | _, _ => none

/-- Reads what follows an opening parenthesis: a name, flags or nothing. Conditions on the text
around a place are not supported. -/
def readOpening? (m : Mode) (names : GroupNames) (cs : List Char) :
    Option (Opening × List Char) :=
  match m.skip cs with
  | '?' :: '=' :: _ | '?' :: '!' :: _ | '?' :: '<' :: '=' :: _ | '?' :: '<' :: '!' :: _ => none
  | '?' :: 'P' :: '<' :: rest | '?' :: '<' :: rest =>
    (readGroupName? names rest).map fun (names, rest) => (.group true m names, rest)
  | '?' :: rest =>
    match readFlags? [] rest with
    | some ([], ')', _) => none
    | some (flags, ')', rest) => some (.flags (m.apply flags), rest)
    | some (flags, _, rest) => some (.group false (m.apply flags) names, rest)
    | none => none
  | rest => some (.group true m names, rest)

/-! ## Expressions -/

/-- The expression of one atom. -/
def Atom.tree? (m : Mode) : Atom → Option Syntax
  | .literal c byte => m.literal? c byte
  | .chars s => some (.step s)
  | .look l => some (.look l)

/-- What was read of a branch. -/
structure Branch where
  /-- Its items, the last one first. -/
  items : List (Nested Syntax) := []
  /-- A repetition may apply to the last item. -/
  repeatable : Bool := false

namespace Branch

/-- The whole branch. -/
def tree (b : Branch) : Nested Syntax := .gather .seq b.items

/-- Adds an item. -/
def push (b : Branch) (a : Nested Syntax) : Branch := ⟨a :: b.items, true⟩

/-- Adds flags, which count as an item that cannot be repeated. -/
def close (b : Branch) : Branch := ⟨.leaf (.seq []) :: b.items, false⟩

/-- Repeats the last item. -/
def iterate? (b : Branch) (min : Nat) (max : Option Nat) (greedy : Bool) : Option Branch :=
  match b with
  | ⟨a :: items, true⟩ => some ⟨a.wrap (.iterate · min max greedy) :: items, true⟩
  | _ => none

end Branch

/-- The question mark behind a repetition, which turns round whether long matches come first, and
the rest. -/
def readLazy : List Char → Bool × List Char
  | '?' :: rest => (true, rest)
  | cs => (false, cs)

/-- An expression that was read, the flags at its end, the group names so far, and the rest. -/
structure ReadTree where
  /-- The expression. -/
  tree : Nested Syntax
  /-- The flags in force at its end. -/
  mode : Mode
  /-- The group names so far. -/
  names : GroupNames
  /-- The rest of the input. -/
  rest : List Char

mutual

/-- An alternation up to a closing parenthesis or the end, after the branches `done`, last one
first. Flags reach from one branch into the next. -/
def readBranches? : Nat → Nat → Mode → GroupNames → List (Nested Syntax) → List Char →
    Option ReadTree
  | 0, _, _, _, _, _ => none
  | fuel + 1, levels, m, names, done, cs => do
    let r ← readBranch? fuel levels m names {} cs
    match r.rest with
    | '|' :: rest => readBranches? fuel levels r.mode r.names (r.tree :: done) rest
    | _ => return { r with tree := .gather .alt (r.tree :: done) }

/-- The rest of a branch of which `b` was read. -/
def readBranch? : Nat → Nat → Mode → GroupNames → Branch → List Char → Option ReadTree
  | 0, _, _, _, _, _ => none
  | fuel + 1, levels, m, names, b, cs =>
    let next (rest : List Char) (a : Option Syntax) : Option ReadTree := do
      readBranch? fuel levels m names (b.push (.leaf (← a))) rest
    let again (min : Nat) (max : Option Nat) (rest : List Char) : Option ReadTree := do
      let (isLazy, rest) := readLazy rest
      readBranch? fuel levels m names (← b.iterate? min max (isLazy == m.short)) rest
    match m.skip cs with
    | [] => some ⟨b.tree, m, names, []⟩
    | '|' :: rest => some ⟨b.tree, m, names, '|' :: rest⟩
    | ')' :: rest => some ⟨b.tree, m, names, ')' :: rest⟩
    | '*' :: rest => again 0 none rest
    | '+' :: rest => again 1 none rest
    | '?' :: rest => again 0 (some 1) rest
    | '\x7b' :: rest => do
      let (min, max, rest) ← readCount? m rest
      again min max (m.skip rest)
    | '(' :: rest => do
      match ← readOpening? m names rest with
      | (.flags m, rest) => readBranch? fuel levels m names b.close rest
      | (.group captures inner names, rest) =>
        match levels with
        | 0 => none
        | levels' + 1 =>
          let r ← readBranches? fuel levels' inner names [] rest
          match r.rest with
          | ')' :: rest =>
            let group := r.tree.wrap fun t => if captures then .capture t else t
            readBranch? fuel levels m r.names (b.push group) rest
          | _ => none
    | '[' :: rest => do
      let (s, rest) ← readClass? fuel levels m rest
      readBranch? fuel levels m names (b.push ⟨.step s.value, s.depth⟩) rest
    | '.' :: rest => next rest m.dot?
    | '^' :: rest => next rest (some (.look m.startAnchor))
    | '$' :: rest => next rest (some (.look m.endAnchor))
    | '\\' :: rest => do
      let (a, rest) ← readEscape? m rest
      next rest (a.tree? m)
    | c :: rest => next rest (m.literal? c false)

end

/-- Reads a whole expression, from the start under the given flags. -/
def readTree? (m : Mode) (cs : List Char) : Option Syntax :=
  match readBranches? (2 * cs.length + 2) depthLimit m [] [] cs with
  | some ⟨tree, _, _, []⟩ => if tree.depth ≤ depthLimit then some tree.value else none
  | _ => none

end Motif.Regex
