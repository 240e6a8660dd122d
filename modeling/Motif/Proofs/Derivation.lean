import Motif.Grammar.Sequence

/-!
# Derivations of patterns

The derivation trees of the pattern grammar. Each of them carries what its rule asks of the numbers
in it, so there is a tree exactly for what the grammar derives. A count is written with digits alone
and is in the range of counts; the words after a double colon are those of `Presence`.

    branches    := items ("|" items)*
    items       := (atom quantifier?)*
    quantifier  := ("*" | "+" | "?" | bounds) "?"?
    bounds      := "{" count ("," count?)? "}"      with the first count not above the second
    atom        := element | "(" branches ")" | "(?:" branches ")" | "(?$name" branches ")"
                 | "(?m)" bounds? "?"? (regex | literal) | "\" number | "^" | "$"
    element     := "[" disjunction? "]" | "{" disjunction? "}" | "!" element | leaf
    disjunction := conjunction ("|" conjunction)*
    conjunction := unary ("&" unary)*
    unary       := "!" unary | "(" disjunction ")" | term
    term        := name ":" value | name "::" presence | name relation number | leaf
    value       := literal | regex | name | number
    leaf        := literal | regex | function

* `Derivation.Branches` and the trees below it.
* `Branches.symbols`: the symbols that a tree derives.
* `Branches.Meant`: an environment has the functions and accepts the expressions that a tree names.
-/

namespace Motif

namespace Derivation

/-! ## Trees -/

/-- What is a test by itself. -/
inductive Leaf where
  | literal (text : String)
  | regex (source : String)
  | func (name : String)

/-- What the value of an attribute is compared with. -/
inductive Comparand where
  | literal (text : String)
  | regex (source : String)
  | name (word : String)
  | number (digits : String)

/-- The test of one attribute, or a leaf. -/
inductive Term where
  | value (name : String) (c : Comparand)
  | presence (name : String) (test : Presence)
  | compare (name : String) (relation : Relation) (digits : String)
  | leaf (l : Leaf)

mutual

/-- A part of a conjunction. -/
inductive Unary where
  | term (t : Term)
  | negation (u : Unary)
  | parens (d : Disjunction)

/-- Parts with `&` between them. -/
inductive Conjunction where
  | one (u : Unary)
  | cons (u : Unary) (c : Conjunction)

/-- Conjunctions with `|` between them. -/
inductive Disjunction where
  | one (c : Conjunction)
  | cons (c : Conjunction) (d : Disjunction)

end

/-- The test of one element. -/
inductive ElementTest where
  | brackets (d : Option Disjunction)
  | braces (d : Option Disjunction)
  | negation (e : ElementTest)
  | leaf (l : Leaf)

/-- A number of repetitions. -/
structure Count where
  /-- How it is written. -/
  digits : String
  /-- The number. -/
  value : Nat
  /-- The digits denote the number, which is in the range of counts. -/
  denotes : natOfDigits? digits.toList = some value

/-- Bounds of repetitions. -/
inductive Bounds where
  | exactly (n : Count)
  | atLeast (n : Count)
  | between (n m : Count) (ordered : n.value ≤ m.value)

/-- What a quantifier says without its greed. -/
inductive Times where
  | star
  | plus
  | question
  | bounds (b : Bounds)

/-- A quantifier. -/
structure Repetition where
  /-- How often. -/
  times : Times
  /-- Few repetitions come first. -/
  isLazy : Bool

/-- The text of a run of elements. -/
inductive RunText where
  | regex (source : String)
  | literal (text : String)

mutual

/-- What a quantifier may follow. -/
inductive Atom where
  | element (e : ElementTest)
  | group (b : Branches)
  | nonCapture (b : Branches)
  | named (name : String) (b : Branches)
  | run (bounds : Option Bounds) (isLazy : Bool) (text : RunText)
  | backref (id : Nat)
  | caret
  | dollar

/-- Atoms one after the other. -/
inductive Items where
  | nil
  | cons (a : Atom) (q : Option Repetition) (more : Items)

/-- Items with `|` between them. -/
inductive Branches where
  | one (i : Items)
  | cons (i : Items) (b : Branches)

end

/-! ## Symbols -/

/-- The symbol of a leaf. -/
def Leaf.symbol : Leaf → Symbol
  | .literal text => .str text
  | .regex source => .regex source
  | .func name => .func name

/-- The symbol of a comparand. -/
def Comparand.symbol : Comparand → Symbol
  | .literal text => .str text
  | .regex source => .regex source
  | .name word => .ident word
  | .number digits => .number digits

/-- The symbols of a term. -/
def Term.symbols : Term → List Symbol
  | .value name c => [.ident name, .colon, c.symbol]
  | .presence name test => [.ident name, .doubleColon, .ident test.keyword]
  | .compare name relation digits => [.ident name, .rel relation, .number digits]
  | .leaf l => [l.symbol]

mutual

/-- The symbols of a part of a conjunction. -/
def Unary.symbols : Unary → List Symbol
  | .term t => t.symbols
  | .negation u => .bang :: u.symbols
  | .parens d => .lparen :: (d.symbols ++ [.rparen])

/-- The symbols of a conjunction. -/
def Conjunction.symbols : Conjunction → List Symbol
  | .one u => u.symbols
  | .cons u c => u.symbols ++ .amp :: c.symbols

/-- The symbols of a disjunction. -/
def Disjunction.symbols : Disjunction → List Symbol
  | .one c => c.symbols
  | .cons c d => c.symbols ++ .pipe :: d.symbols

end

/-- The symbols between brackets. -/
def contentSymbols : Option Disjunction → List Symbol
  | .none => []
  | .some d => d.symbols

/-- The symbols of an element test. -/
def ElementTest.symbols : ElementTest → List Symbol
  | .brackets d => .lbracket :: (contentSymbols d ++ [.rbracket])
  | .braces d => .lbrace :: (contentSymbols d ++ [.rbrace])
  | .negation e => .bang :: e.symbols
  | .leaf l => [l.symbol]

/-- The symbol of a count. -/
def Count.symbol (n : Count) : Symbol := .number n.digits

/-- The symbols of bounds. -/
def Bounds.symbols : Bounds → List Symbol
  | .exactly n => [.lbrace, n.symbol, .rbrace]
  | .atLeast n => [.lbrace, n.symbol, .comma, .rbrace]
  | .between n m _ => [.lbrace, n.symbol, .comma, m.symbol, .rbrace]

/-- The symbols of bounds that may be missing. -/
def boundsSymbols : Option Bounds → List Symbol
  | .none => []
  | .some b => b.symbols

/-- The symbols of a quantifier without its greed. -/
def Times.symbols : Times → List Symbol
  | .star => [.star]
  | .plus => [.plus]
  | .question => [.question]
  | .bounds b => b.symbols

/-- The symbols of greed. -/
def greedSymbols (isLazy : Bool) : List Symbol := if isLazy then [.question] else []

/-- The symbols of a quantifier that may be missing. -/
def repetitionSymbols : Option Repetition → List Symbol
  | .none => []
  | .some q => q.times.symbols ++ greedSymbols q.isLazy

/-- The symbol of the text of a run. -/
def RunText.symbol : RunText → Symbol
  | .regex source => .regex source
  | .literal text => .str text

mutual

/-- The symbols of an atom. -/
def Atom.symbols : Atom → List Symbol
  | .element e => e.symbols
  | .group b => .lparen :: (b.symbols ++ [.rparen])
  | .nonCapture b => .nonCapture :: (b.symbols ++ [.rparen])
  | .named name b => .namedGroup name :: (b.symbols ++ [.rparen])
  | .run bounds isLazy text =>
    .multiNode :: (boundsSymbols bounds ++ (greedSymbols isLazy ++ [text.symbol]))
  | .backref id => [.backref id]
  | .caret => [.caret]
  | .dollar => [.dollar]

/-- The symbols of items. -/
def Items.symbols : Items → List Symbol
  | .nil => []
  | .cons a q more => a.symbols ++ (repetitionSymbols q ++ more.symbols)

/-- The symbols of alternatives. -/
def Branches.symbols : Branches → List Symbol
  | .one i => i.symbols
  | .cons i b => i.symbols ++ .pipe :: b.symbols

end

namespace Bounds

/-- A minimum is not above a maximum, if there is one. -/
def Ordered (min : Nat) : Option Nat → Prop
  | none => True
  | some max => min ≤ max

/-- The count at the front of bounds. -/
def min : Bounds → Count
  | exactly n | atLeast n | between n _ _ => n

/-- The greatest number of repetitions. -/
def max : Bounds → Option Nat
  | exactly n => some n.value
  | atLeast _ => none
  | between _ m _ => some m.value

/-- The symbols after the first count, without the brace. -/
def upper : Bounds → List Symbol
  | exactly _ => []
  | atLeast _ => [.comma]
  | between _ m _ => [.comma, m.symbol]

theorem symbols_eq (b : Bounds) :
    b.symbols = .lbrace :: b.min.symbol :: (b.upper ++ [.rbrace]) := by
  cases b <;> rfl

theorem ordered : (b : Bounds) → Ordered b.min.value b.max
  | exactly _ => Nat.le_refl _
  | atLeast _ => trivial
  | between _ _ hle => hle

end Bounds

end Derivation

/-! ## What derivations name -/

namespace Symbol

/-- The environment has what the symbol names. -/
def Meant (env : Environment) : Symbol → Prop
  | func name => (env.function? name).isSome
  | regex source => (env.regex? source).isSome
  | _ => True

end Symbol

namespace Derivation

/-- The environment has all that the symbols name. -/
def Meant (env : Environment) (xs : List Symbol) : Prop := ∀ x ∈ xs, x.Meant env

variable {env : Environment}

@[simp] theorem meant_nil : Meant env [] := nofun

@[simp] theorem meant_cons {x : Symbol} {xs : List Symbol} :
    Meant env (x :: xs) ↔ x.Meant env ∧ Meant env xs := List.forall_mem_cons

@[simp] theorem meant_append {xs ys : List Symbol} :
    Meant env (xs ++ ys) ↔ Meant env xs ∧ Meant env ys := List.forall_mem_append

/-- Where symbols ask for runs of elements, their literals stand for valid expressions. -/
def TextsMeant (env : Environment) (xs : List Symbol) : Prop :=
  .multiNode ∈ xs → ∀ text, .str text ∈ xs → (env.regex? (Regex.escape text)).isSome

/-- The text of a run stands for a valid expression. -/
def RunText.Meant (env : Environment) : RunText → Prop
  | regex source => (env.regex? source).isSome
  | literal text => (env.regex? (Regex.escape text)).isSome

mutual

/-- The environment has all that an atom names. -/
def Atom.Meant (env : Environment) : Atom → Prop
  | .element e => Derivation.Meant env e.symbols
  | .group b | .nonCapture b | .named _ b => b.Meant env
  | .run _ _ text => text.Meant env
  | .backref _ | .caret | .dollar => True

/-- The environment has all that items name. -/
def Items.Meant (env : Environment) : Items → Prop
  | .nil => True
  | .cons a _ more => a.Meant env ∧ more.Meant env

/-- The environment has all that alternatives name. -/
def Branches.Meant (env : Environment) : Branches → Prop
  | .one i => i.Meant env
  | .cons i b => i.Meant env ∧ b.Meant env

end

mutual

theorem Atom.meant {a : Atom} (h : Derivation.Meant env a.symbols)
    (ht : TextsMeant env a.symbols) : a.Meant env := by
  match a with
  | .element e => exact h
  | .group b | .nonCapture b | .named _ b =>
    simp only [Atom.symbols, meant_cons, meant_append] at h
    refine Branches.meant h.2.1 fun hm text hb => ht ?_ text ?_ <;> simp [Atom.symbols, *]
  | .run c l (.regex source) =>
    simp only [Atom.symbols, RunText.symbol, meant_cons, meant_append] at h
    exact h.2.2.2.1
  | .run c l (.literal text) =>
    exact ht List.mem_cons_self text (by simp [Atom.symbols, RunText.symbol])
  | .backref _ | .caret | .dollar => trivial

theorem Items.meant {i : Items} (h : Derivation.Meant env i.symbols)
    (ht : TextsMeant env i.symbols) : i.Meant env := by
  match i with
  | .nil => trivial
  | .cons a q more =>
    simp only [Items.symbols, meant_append] at h
    simp only [TextsMeant, Items.symbols, List.mem_append] at ht
    exact ⟨Atom.meant h.1 fun hm text hb => ht (.inl hm) text (.inl hb),
      Items.meant h.2.2 fun hm text hb => ht (.inr (.inr hm)) text (.inr (.inr hb))⟩

theorem Branches.meant {b : Branches} (h : Derivation.Meant env b.symbols)
    (ht : TextsMeant env b.symbols) : b.Meant env := by
  match b with
  | .one i => exact Items.meant h ht
  | .cons i b =>
    simp only [Branches.symbols, meant_append, meant_cons] at h
    simp only [TextsMeant, Branches.symbols, List.mem_append, List.mem_cons] at ht
    exact ⟨Items.meant h.1 fun hm text hb => ht (.inl hm) text (.inl hb),
      Branches.meant h.2.2 fun hm text hb => ht (.inr (.inr hm)) text (.inr (.inr hb))⟩

end

end Derivation

end Motif
