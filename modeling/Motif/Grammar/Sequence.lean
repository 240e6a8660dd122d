import Motif.Grammar.ElementTest

/-!
# Reading pattern expressions

    branches := items ("|" items)*
    items    := (atom quantifier?)*
    quantifier := ("*" | "+" | "?" | bounds) "?"?
    bounds   := "{" count ("," count?)? "}"
    atom     := element | "(" branches ")" | "(?:" branches ")" | "(?$name" branches ")"
              | "(?m)" bounds? "?"? text | "\" number | "$" name | "^" | "$"

Capturing groups are numbered in the order of their opening. A variable bound to a text is read in
place, under the same numbering. Reading ends, because a variable is not expanded inside its own
text and the lexemes of each text get fewer.

* `Numbering`: the groups handed out so far.
* `Scope.unexpanded`: how many variables may still be expanded.
* `Scope.readBranches`, `Scope.readItems`, `Scope.readAtom`: the readers.
-/

namespace Motif

/-- The groups that a pattern has declared so far, and the references it has made. -/
structure Numbering where
  /-- The number of the next group. -/
  next : Nat := 1
  /-- The named groups. -/
  names : GroupNames := []
  /-- The groups named by back references, each with the offset of the reference. -/
  backrefs : List (Nat × Nat) := []
  /-- The groups, the last one first, each with the offset where it was declared. -/
  sites : List (Nat × Nat) := []

namespace Numbering

/-- Hands out the next number for a group declared at an offset. -/
def openGroup (st : Numbering) (site : Nat) : Numbering :=
  { st with next := st.next + 1, sites := (st.next, site) :: st.sites }

/-- Hands out numbers for `k` groups. -/
def openGroups (st : Numbering) (site : Nat) : Nat → Numbering
  | 0 => st
  | k + 1 => (st.openGroup site).openGroups site k

/-- Names a group. -/
def bind (st : Numbering) (name : String) (id : Nat) : Numbering :=
  { st with names := st.names ++ [(name, id)] }

/-- Notes a back reference. -/
def refer (st : Numbering) (id offset : Nat) : Numbering :=
  { st with backrefs := st.backrefs ++ [(id, offset)] }

/-- Copies a compiled pattern: its groups `1, 2, …` become the next groups here. -/
def inline (st : Numbering) (p : Pattern) (site : Nat) : Expr × Numbering :=
  let shift := st.next - 1
  let names := p.names.map fun (b : String × Nat) => (b.1, b.2 + shift)
  let st := { st with names := st.names ++ names }
  (p.body.shiftGroups shift, st.openGroups site (p.groupCount - 1))

end Numbering

namespace Scope

variable (s : Scope)

/-- Where an error about a place points: inside the text of a variable, at the outermost
reference. -/
def site (offset : Nat) : Nat := (s.expanding.head?.map (·.2)).getD offset

/-- The variable is being expanded. -/
def isExpanding (name : String) : Bool := s.expanding.any (·.1 == name)

/-- The scope inside the text of a variable. -/
def entering (name : String) (offset : Nat) (text : String) : Scope :=
  { s with source := text, expanding := s.expanding ++ [(name, offset)] }

/-- The number of bindings whose variables are not being expanded. -/
def unexpanded : Nat := (s.env.patterns.filter fun b => !s.isExpanding b.1).length

theorem unexpanded_entering_lt {s : Scope} {name : String} {b : Binding} {offset : Nat}
    {text : String} (hb : s.env.pattern? name = some b) (hn : s.isExpanding name = false) :
    (s.entering name offset text).unexpanded < s.unexpanded := by
  obtain ⟨l₁, l₂, hl, -⟩ := List.lookup_eq_some_iff.1 hb
  have hle : ∀ l : List (String × Binding),
      (l.filter fun b => !(s.entering name offset text).isExpanding b.1).length ≤
        (l.filter fun b => !s.isExpanding b.1).length := by
    intro l
    rw [← List.countP_eq_length_filter, ← List.countP_eq_length_filter]
    refine List.countP_mono_left fun x _ hx => ?_
    simp only [isExpanding, entering, List.any_append, Bool.not_or, Bool.and_eq_true] at hx ⊢
    exact hx.1
  have h₁ := hle l₁
  have h₂ := hle l₂
  have he : (s.entering name offset text).isExpanding name = true := by
    simp [isExpanding, entering]
  have henv : (s.entering name offset text).env.patterns = l₁ ++ (name, b) :: l₂ := hl
  unfold unexpanded
  rw [henv, hl]
  simp only [List.filter_append, List.length_append, List.filter_cons, he, hn, Bool.not_true,
    Bool.not_false, if_true, Bool.false_eq_true, if_false, List.length_cons]
  omega

/-! ## Quantifiers -/

/-- Reads a repetition count. -/
def readCount (ls : List Lexeme) : Except CompileError (Parsed Lexeme Nat ls.length) :=
  match ls with
  | ⟨.number digits, offset⟩ :: rest =>
    match natOfDigits? digits.toList with
    | some n => .ok ⟨n, rest, length_lt_next⟩
    | none => s.fault offset .countNotNatural
  | ls => s.faultAt ls (.expectedCount (peek ls))

/-- The next symbol is a number. -/
def startsNumber : List Lexeme → Bool
  | ⟨.number _, _⟩ :: _ => true
  | _ => false

/-- Reads the end of bounds whose minimum is known. -/
def readMaximum (min : Nat) (ls : List Lexeme) :
    Except CompileError (Parsed Lexeme (Option Nat) (ls.length + 1)) :=
  match ls with
  | ⟨.comma, _⟩ :: rest =>
    if startsNumber rest then do
      let p ← s.readCount rest
      return (p.map some).weaken length_le_next_next
    else .ok ⟨none, rest, length_lt_next_next⟩
  | ls => .ok ⟨some min, ls, length_lt_next⟩

/-- Reads bounds in braces. -/
def readBounds (ls : List Lexeme) :
    Except CompileError (Parsed Lexeme (Nat × Option Nat) ls.length) := do
  let b ← s.expect .lbrace "`\x7b`" ls
  let p ← s.readCount b.rest
  let q ← s.readMaximum p.value p.rest
  let e ← s.expect .rbrace "`\x7d`" q.rest
  match q.value with
  | some max =>
    if max < p.value then .error (.invalidQuantifier p.value max (s.offsetOf ls))
  | none => pure ()
  return ⟨(p.value, q.value), e.rest, by
    have := b.shorter; have := p.shorter; have := q.shorter; have := e.shorter; omega⟩

/-- Reads the question mark that asks for few iterations. -/
def readGreed (ls : List Lexeme) : Parsed Lexeme Bool (ls.length + 1) :=
  match ls with
  | ⟨.question, _⟩ :: rest => ⟨false, rest, length_lt_next_next⟩
  | ls => ⟨true, ls, length_lt_next⟩

/-- A quantifier: minimum, maximum and greed. -/
abbrev Quantifier := Nat × Option Nat × Bool

/-- A quantifier with known bounds, completed by its greed. -/
def readQuantifierGreed (min : Nat) (max : Option Nat) (ls : List Lexeme) :
    Parsed Lexeme (Option Quantifier) (ls.length + 1) :=
  (readGreed ls).map fun greedy => some (min, max, greedy)

/-- Reads an optional quantifier. A brace starts one only before a number. -/
def readQuantifier (ls : List Lexeme) :
    Except CompileError (Parsed Lexeme (Option Quantifier) (ls.length + 1)) :=
  match ls with
  | ⟨.star, _⟩ :: rest => .ok ((readQuantifierGreed 0 none rest).weaken length_next_le_next_next)
  | ⟨.plus, _⟩ :: rest => .ok ((readQuantifierGreed 1 none rest).weaken length_next_le_next_next)
  | ⟨.question, _⟩ :: rest =>
    .ok ((readQuantifierGreed 0 (some 1) rest).weaken length_next_le_next_next)
  | ⟨.lbrace, offset⟩ :: rest =>
    if startsNumber rest then do
      let p ← s.readBounds (⟨.lbrace, offset⟩ :: rest)
      return (readQuantifierGreed p.value.1 p.value.2 p.rest).weaken (by
        have := p.shorter; omega)
    else .ok ⟨none, ⟨.lbrace, offset⟩ :: rest, length_lt_next⟩
  | ls => .ok ⟨none, ls, length_lt_next⟩

/-- Repeats an expression as a quantifier says. -/
def quantified (e : Expr) : Option Quantifier → Expr
  | none => e
  | some (min, max, greedy) => .iterate e min max greedy

/-! ## Runs of elements -/

/-- Reads what follows `(?m)`: bounds, greed and the text that the elements must have. -/
def readMulti (ls : List Lexeme) : Except CompileError (Parsed Lexeme Expr ls.length) := do
  let b : Parsed Lexeme (Nat × Option Nat) (ls.length + 1) ←
    if peek ls = .lbrace then do
      let p ← s.readBounds ls
      pure (p.weaken length_le_next)
    else pure ⟨(1, none), ls, length_lt_next⟩
  let g := readGreed b.rest
  have hg : g.rest.length ≤ ls.length := by have := b.shorter; have := g.shorter; omega
  match h : g.rest with
  | ⟨.regex source, offset⟩ :: rest =>
    let r ← s.regex source offset
    return ⟨.multi b.value.1 b.value.2 r g.value, rest, by
      rw [h, List.length_cons] at hg; omega⟩
  | ⟨.str text, offset⟩ :: rest =>
    let r ← s.regex (Regex.escape text) offset
    return ⟨.multi b.value.1 b.value.2 r g.value, rest, by
      rw [h, List.length_cons] at hg; omega⟩
  | rest => s.faultAt rest (.expectedMultiText (peek rest))

/-! ## Expressions -/

/-- The symbols at which a sequence of items ends. -/
def endsItems : Symbol → Bool
  | .pipe | .rparen | .arrow | .eof => true
  | _ => false

/-- The text must end here. -/
def expectEnd (ls : List Lexeme) : Except CompileError Unit :=
  match peek ls with
  | .eof => .ok ()
  | .rparen => s.faultAt ls .unbalanced
  | symbol => s.faultAt ls (.trailing symbol)

/-- How a message asks for the end of a group. -/
def groupEnd : String := "`)` to close the group"

end Scope

namespace Scope

mutual

/-- Reads alternatives. -/
def readBranches (s : Scope) (st : Numbering) (ls : List Lexeme) :
    Except CompileError (Parsed Lexeme (List Expr × Numbering) (ls.length + 1)) := do
  let p ← readItems s st ls
  match h : p.rest with
  | ⟨.pipe, _⟩ :: rest =>
    have : rest.length < ls.length := p.next_lt h
    let q ← readBranches s p.value.2 rest
    return ⟨(Expr.ofItems p.value.1 :: q.value.1, q.value.2), q.rest,
      Nat.lt_trans q.shorter (Nat.succ_lt_succ this)⟩
  | _ => return ⟨([Expr.ofItems p.value.1], p.value.2), p.rest, p.shorter⟩
termination_by (s.unexpanded, ls.length, 2)

/-- Reads items up to a symbol at which a sequence ends. -/
def readItems (s : Scope) (st : Numbering) (ls : List Lexeme) :
    Except CompileError (Parsed Lexeme (List Expr × Numbering) (ls.length + 1)) :=
  if endsItems (peek ls) then .ok ⟨([], st), ls, length_lt_next⟩
  else do
    let p ← readAtom s st ls
    let q ← s.readQuantifier p.rest
    have : q.rest.length < ls.length := p.next_rest_lt q
    let r ← readItems s p.value.2 q.rest
    return ⟨(quantified p.value.1 q.value :: r.value.1, r.value.2), r.rest,
      Nat.lt_trans r.shorter (Nat.succ_lt_succ this)⟩
termination_by (s.unexpanded, ls.length, 1)

/-- Reads an atom. -/
def readAtom (s : Scope) (st : Numbering) (ls : List Lexeme) :
    Except CompileError (Parsed Lexeme (Expr × Numbering) ls.length) :=
  match ls with
  | ⟨.lparen, offset⟩ :: rest => do
    let p ← readBranches s (st.openGroup (s.site offset)) rest
    let e ← s.expect .rparen groupEnd p.rest
    return ⟨(.group (.ofBranches p.value.1) (some st.next) none, p.value.2), e.rest, by
      have := p.shorter; have := e.shorter; simp only [List.length_cons]; omega⟩
  | ⟨.nonCapture, _⟩ :: rest => do
    let p ← readBranches s st rest
    let e ← s.expect .rparen groupEnd p.rest
    return ⟨(.group (.ofBranches p.value.1) none none, p.value.2), e.rest, by
      have := p.shorter; have := e.shorter; simp only [List.length_cons]; omega⟩
  | ⟨.namedGroup name, offset⟩ :: rest => do
    let p ← readBranches s ((st.openGroup (s.site offset)).bind name st.next) rest
    let e ← s.expect .rparen groupEnd p.rest
    return ⟨(.group (.ofBranches p.value.1) (some st.next) (some name), p.value.2), e.rest, by
      have := p.shorter; have := e.shorter; simp only [List.length_cons]; omega⟩
  | ⟨.multiNode, _⟩ :: rest => do
    let p ← s.readMulti rest
    return (p.map (·, st)).weaken length_le_next
  | ⟨.backref id, offset⟩ :: rest =>
    .ok ⟨(.backref id, st.refer id offset), rest, length_lt_next⟩
  | ⟨.var name, offset⟩ :: rest =>
    if hn : s.isExpanding name then .error (.recursiveVariable name (s.site offset))
    else match hb : s.env.pattern? name with
      | none => .error (.unboundVariable name offset)
      | some (.compiled p) => .ok ⟨st.inline p (s.site offset), rest, length_lt_next⟩
      | some (.source text) => do
        let inner := s.entering name offset text
        let ls ← lexemes text
        have : inner.unexpanded < s.unexpanded :=
          unexpanded_entering_lt hb (Bool.eq_false_iff.2 hn)
        let p ← readBranches inner st ls
        inner.expectEnd p.rest
        return ⟨(.ofBranches p.value.1, p.value.2), rest, length_lt_next⟩
  | ⟨.caret, _⟩ :: rest => .ok ⟨(.anchor .start, st), rest, length_lt_next⟩
  | ⟨.dollar, _⟩ :: rest => .ok ⟨(.anchor .stop, st), rest, length_lt_next⟩
  | l :: rest =>
    match l.symbol with
    | .lbracket | .lbrace | .bang | .str _ | .regex _ | .func _ => do
      let p ← s.readElement (l :: rest)
      return p.map fun p => (.node p, st)
    | symbol => s.fault l.offset (.expectedAtom symbol)
  | [] => s.faultAt [] (.expectedAtom .eof)
termination_by (s.unexpanded, ls.length, 0)

end

end Scope

end Motif
