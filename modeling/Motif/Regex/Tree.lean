import Motif.Unicode.Property

/-!
# Regular expressions over text

A regular expression denotes a relation between positions of a text: it leads from a position to
all those at which a match that starts there can end. Since only the existence of a match is ever
asked for, sets of positions are moved through the expression instead of single ones, and no
position is visited twice.

* `Regex.Look`: conditions on a position.
* `Regex.Tree`: regular expressions, with sets of characters or of positions at the leaves.
* `Regex.Tree.advance`: the positions reached from a set of positions.
* `Regex.Tree.occursIn`: the expression matches somewhere in a text.
-/

namespace Motif.Regex

/-- Conditions on a position in a text. -/
inductive Look where
  | textStart
  | textEnd
  /-- At the start, or after a line feed. -/
  | lineStart
  /-- At the end, or before a line feed. -/
  | lineEnd
  /-- At the start of a line that carriage returns may end, too. -/
  | lineStartCR
  /-- At the end of a line that carriage returns may end, too. -/
  | lineEndCR
  /-- Between a word character and another one; the flag restricts words to ASCII. -/
  | boundary (ascii : Bool)
  | notBoundary (ascii : Bool)
  | wordStart (ascii : Bool)
  | wordEnd (ascii : Bool)
  /-- Not after a word character. -/
  | wordStartHalf (ascii : Bool)
  /-- Not before a word character. -/
  | wordEndHalf (ascii : Bool)
deriving DecidableEq

/-- The ASCII characters of words. -/
def isWordASCII (c : Char) : Bool := c.isAlphanum || c == '_'

/-- A word character is there. -/
def isWordAt (ascii : Bool) : Option Char → Bool
  | none => false
  | some c => if ascii then isWordASCII c else Unicode.wordChars.contains c.toNat

/-- A condition holds between the character before and the character after a position. -/
def Look.holds (l : Look) (before after : Option Char) : Bool :=
  match l with
  | textStart => before.isNone
  | textEnd => after.isNone
  | lineStart => before.isNone || before == some '\n'
  | lineEnd => after.isNone || after == some '\n'
  | lineStartCR =>
    before.isNone || before == some '\n' || (before == some '\r' && after != some '\n')
  | lineEndCR => after.isNone || after == some '\r' || (after == some '\n' && before != some '\r')
  | boundary a => isWordAt a before != isWordAt a after
  | notBoundary a => isWordAt a before == isWordAt a after
  | wordStart a => !isWordAt a before && isWordAt a after
  | wordEnd a => isWordAt a before && !isWordAt a after
  | wordStartHalf a => !isWordAt a before
  | wordEndHalf a => !isWordAt a after

/-- Regular expressions with steps in `σ` and conditions in `κ`. -/
inductive Tree (σ κ : Type) where
  /-- One step over characters. -/
  | step (s : σ)
  /-- No character, under a condition. -/
  | look (k : κ)
  /-- One after the other. -/
  | seq (ts : List (Tree σ κ))
  /-- One of several. -/
  | alt (ts : List (Tree σ κ))
  /-- Between `min` and `max` times, without a limit if there is no `max`; the flag says that long
  matches come first. -/
  | iterate (t : Tree σ κ) (min : Nat) (max : Option Nat) (greedy : Bool)
  /-- A group whose match is remembered. -/
  | capture (t : Tree σ κ)

/-- A regular expression over characters. -/
abbrev Syntax := Tree Unicode.CodeSet Look

namespace Tree

mutual

/-- Replaces the leaves. -/
def map {σ κ σ' κ' : Type} (f : σ → σ') (g : κ → κ') : Tree σ κ → Tree σ' κ'
  | step s => step (f s)
  | look k => look (g k)
  | seq ts => seq (mapAll f g ts)
  | alt ts => alt (mapAll f g ts)
  | iterate t min max greedy => iterate (t.map f g) min max greedy
  | capture t => capture (t.map f g)

/-- Replaces the leaves of several expressions. -/
def mapAll {σ κ σ' κ' : Type} (f : σ → σ') (g : κ → κ') : List (Tree σ κ) → List (Tree σ' κ')
  | [] => []
  | t :: ts => t.map f g :: mapAll f g ts

end

end Tree

/-! ## Sets of positions -/

/-- A set of positions: bit `i` stands for position `i`. -/
abbrev Positions := Nat

/-- The positions from `0` to `n`. -/
def Positions.upTo (n : Nat) : Positions := Nat.pow 2 (n + 1) - 1

/-- Applies `f` up to `k` times, stopping at a fixed point. -/
def Positions.repeated (f : Positions → Positions) : Nat → Positions → Positions
  | 0, s => s
  | k + 1, s =>
    let t := f s
    if t == s then s else repeated f k t

mutual

/-- The positions reached from a set of positions in a text of `n` characters. Each leaf is the set
of positions at which it applies. -/
def Tree.advance (n : Nat) : Tree Positions Positions → Positions → Positions
  | step at_, s => (s &&& at_) <<< 1
  | look at_, s => s &&& at_
  | seq ts, s => advanceThrough n ts s
  | alt ts, s => advanceAny n ts s
  | iterate t min max _, s =>
    let more (s : Positions) : Positions := s ||| t.advance n s
    let least := Positions.repeated (t.advance n) min s
    Positions.repeated more ((max.map (· - min)).getD (n + 1)) least
  | capture t, s => t.advance n s

/-- The positions reached through several expressions, one after the other. -/
def Tree.advanceThrough (n : Nat) : List (Tree Positions Positions) → Positions → Positions
  | [], s => s
  | t :: ts, s => advanceThrough n ts (t.advance n s)

/-- The positions reached through any of several expressions. -/
def Tree.advanceAny (n : Nat) : List (Tree Positions Positions) → Positions → Positions
  | [], _ => 0
  | t :: ts, s => t.advance n s ||| advanceAny n ts s

end

/-- The positions before a character that satisfies `p`; the first position is `i`. -/
def positionsBefore (p : Char → Bool) : Nat → List Char → Positions
  | _, [] => 0
  | i, c :: cs => (if p c then 1 <<< i else 0) ||| positionsBefore p (i + 1) cs

/-- The positions at which a condition holds; the first position is `i` and comes after `before`. -/
def positionsWhere (l : Look) : Nat → Option Char → List Char → Positions
  | i, before, [] => if l.holds before none then 1 <<< i else 0
  | i, before, c :: cs =>
    (if l.holds before (some c) then 1 <<< i else 0) ||| positionsWhere l (i + 1) (some c) cs

/-- The expression matches some part of the text. -/
def Tree.occursIn (r : Syntax) (cs : List Char) : Bool :=
  let located := r.map (fun k => positionsBefore (k.contains ·.toNat) 0 cs)
    (fun l => positionsWhere l 0 none cs)
  located.advance cs.length (Positions.upTo cs.length) != 0

end Motif.Regex
