/-!
# Binary floating-point numbers

Numbers are IEEE 754 binary64 data, kept as bit patterns: the sign of a zero and of a NaN is part
of the datum, and every comparison is decided on integers.

* `Binary64`: a number, by its bits.
* `Binary64.lt`, `Binary64.le`, `Binary64.eq`: the numeric comparisons, false for NaN.
* `Binary64.totalCompare`: the total order on bit patterns, negative NaNs first and positive NaNs
  last.
* `Binary64.ofRatio`: the number nearest to a quotient, a tie going to the even significand.
-/

namespace Motif

/-- An IEEE 754 binary64 datum. -/
structure Binary64 where
  /-- Sign, exponent and fraction, from the top. -/
  bits : UInt64
deriving DecidableEq

namespace Binary64

/-- The weight of the sign bit. -/
def signMagnitude : Nat := 0x8000000000000000

/-- The weight of the lowest bit of the exponent. -/
def exponentUnit : Nat := 0x10000000000000

/-- The sign bit. -/
def isNegative (x : Binary64) : Bool := signMagnitude ≤ x.bits.toNat

/-- The bits below the sign bit. -/
def magnitude (x : Binary64) : Nat := x.bits.toNat % signMagnitude

/-- The magnitude of the infinities; those of NaNs are larger. -/
def infinityMagnitude : Nat := 0x7FF0000000000000

/-- The datum with the given sign and magnitude. -/
def ofMagnitude (negative : Bool) (m : Nat) : Binary64 :=
  ⟨UInt64.ofNat (if negative then signMagnitude + m else m)⟩

/-- Positive zero. -/
def zero : Binary64 := ofMagnitude false 0

/-- The infinity of the given sign. -/
def infinity (negative : Bool) : Binary64 := ofMagnitude negative infinityMagnitude

/-- The quiet NaN of the given sign. -/
def nan (negative : Bool) : Binary64 := ofMagnitude negative 0x7FF8000000000000

instance : Inhabited Binary64 := ⟨zero⟩

/-- Not a number. -/
def isNaN (x : Binary64) : Bool := infinityMagnitude < x.magnitude

/-- One of the two infinities. -/
def isInfinite (x : Binary64) : Bool := x.magnitude == infinityMagnitude

/-- Neither infinite nor NaN. -/
def isFinite (x : Binary64) : Bool := x.magnitude < infinityMagnitude

/-! ## Order -/

/-- Numbers in numeric order, both zeros at `0`. -/
def key (x : Binary64) : Int := if x.isNegative then -(x.magnitude : Int) else x.magnitude

/-- Numeric `<`. -/
def lt (x y : Binary64) : Bool := !x.isNaN && !y.isNaN && decide (x.key < y.key)

/-- Numeric `≤`. -/
def le (x y : Binary64) : Bool := !x.isNaN && !y.isNaN && decide (x.key ≤ y.key)

/-- Numeric equality: the zeros are equal, a NaN equals nothing. -/
def eq (x y : Binary64) : Bool := !x.isNaN && !y.isNaN && decide (x.key = y.key)

/-- All data in the total order, `-0` below `+0` and NaNs outside the infinities. -/
def totalKey (x : Binary64) : Int :=
  if x.isNegative then -(x.magnitude : Int) - 1 else x.magnitude

/-- The total order on bit patterns. -/
def totalCompare (x y : Binary64) : Ordering := compare x.totalKey y.totalKey

/-! ## Value -/

/-- The integer significand of a finite number. -/
def significand (x : Binary64) : Nat :=
  if x.magnitude < exponentUnit then x.magnitude else x.magnitude % exponentUnit + exponentUnit

/-- The power of two that scales the significand. -/
def exponent (x : Binary64) : Int := (max (x.magnitude / exponentUnit) 1 : Nat) - 1075

/-- The finite number is whole. -/
def isWhole (x : Binary64) : Bool :=
  0 ≤ x.exponent || x.significand % Nat.pow 2 (-x.exponent).toNat == 0

/-- The absolute value of a finite number, rounded down. -/
def wholePart (x : Binary64) : Nat :=
  if 0 ≤ x.exponent then x.significand * Nat.pow 2 x.exponent.toNat
  else x.significand / Nat.pow 2 (-x.exponent).toNat

/-! ## Rounding -/

/-- The integer nearest to `n / d`, a tie going to the even one. -/
def roundHalfEven (n d : Nat) : Nat :=
  let q := n / d
  let r := n % d
  if 2 * r < d || (2 * r == d && q % 2 == 0) then q else q + 1

/-- `n / d` as a quotient of integers after division by `2 ^ e`. -/
def scaled (n d : Nat) (e : Int) : Nat × Nat :=
  if 0 ≤ e then (n, d * Nat.pow 2 e.toNat) else (n * Nat.pow 2 (-e).toNat, d)

/-- The largest `l` with `2 ^ l ≤ n / d`, for positive `n` and `d`. -/
def floorLog2 (n d : Nat) : Int :=
  let l : Int := (n.log2 : Int) - d.log2
  let (n', d') := scaled n d l
  if d' ≤ n' then l else l - 1

/-- The number nearest to `n / d`, a tie going to the even significand, and past the largest number
into infinity. -/
def ofRatio (negative : Bool) (n d : Nat) : Binary64 :=
  if n == 0 then ofMagnitude negative 0
  else
    let e := max (floorLog2 n d - 52) (-1074)
    let (n', d') := scaled n d e
    let m := (e + 1074).toNat * exponentUnit + roundHalfEven n' d'
    ofMagnitude negative (min m infinityMagnitude)

end Binary64

end Motif
