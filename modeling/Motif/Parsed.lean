/-!
# Parsed prefixes

A parser reads a prefix of its input and hands back a value and the rest. The rest is shorter than
a bound that the result carries: with the length of the input as the bound the prefix is not
empty, with one more it may be. Recursive parsers terminate because the rest is shorter.

* `Parsed`: a value, the rest of the input, and the bound.
* `Parsed.weaken`, `Parsed.map`: a larger bound, another value.
-/

namespace Motif

/-- A value read from a prefix of a list of `τ`, with the rest of the list. -/
structure Parsed (τ α : Type) (bound : Nat) where
  /-- What was read. -/
  value : α
  /-- The rest of the input. -/
  rest : List τ
  /-- The rest is shorter than the bound. -/
  shorter : rest.length < bound

theorem length_lt_next {τ : Type} {ls : List τ} : ls.length < ls.length + 1 := Nat.lt_succ_self _

theorem length_le_next {τ : Type} {ls : List τ} : ls.length ≤ ls.length + 1 := Nat.le_succ _

theorem length_lt_next_next {τ : Type} {ls : List τ} : ls.length < ls.length + 1 + 1 := by
  omega

theorem length_le_next_next {τ : Type} {ls : List τ} : ls.length ≤ ls.length + 1 + 1 := by
  omega

/-- One more than the length of a list is one less than with two items before it. -/
theorem length_next_le_next_next {τ : Type} {ls : List τ} :
    ls.length + 1 ≤ ls.length + 1 + 1 := Nat.le_succ _

theorem length_tail_lt_next {τ : Type} {ls : List τ} : ls.tail.length < ls.length + 1 := by
  rw [List.length_tail]; omega

namespace Parsed

variable {τ α β : Type} {m n : Nat}

/-- The same result under a larger bound. -/
def weaken (p : Parsed τ α m) (h : m ≤ n) : Parsed τ α n :=
  ⟨p.value, p.rest, Nat.lt_of_lt_of_le p.shorter h⟩

/-- Another value for the same prefix. -/
def map (f : α → β) (p : Parsed τ α n) : Parsed τ β n := ⟨f p.value, p.rest, p.shorter⟩

theorem rest_lt {x : τ} {xs : List τ} (p : Parsed τ α n) (h : p.rest = x :: xs) :
    xs.length < n := by
  have := p.shorter
  rw [h, List.length_cons] at this
  omega

/-- What follows the first item of a rest that may be the whole input is shorter than the input. -/
theorem next_lt {x : τ} {xs : List τ} (p : Parsed τ α (n + 1)) (h : p.rest = x :: xs) :
    xs.length < n := by
  have := p.shorter
  rw [h, List.length_cons] at this
  omega

/-- The rest after a prefix that is not empty and one that may be is shorter than the input. -/
theorem next_rest_lt (p : Parsed τ α n) (q : Parsed τ β (p.rest.length + 1)) :
    q.rest.length < n :=
  Nat.lt_of_le_of_lt (Nat.le_of_lt_succ q.shorter) p.shorter

end Parsed

end Motif
