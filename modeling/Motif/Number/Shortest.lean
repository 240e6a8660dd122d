import Motif.Number.Binary64

/-!
# Writing numbers

A number is written with the fewest digits that read back as the same number, and of those the
digits nearest to it; of two equally near the larger. The notation is positional for every
exponent.

The decimals with `k` digits form a grid around the number. If some point of the grid reads back,
one of the two neighbours of the number on the grid does, so it is enough to look at those, for
`k = 1, 2, …`. Seventeen digits always suffice.

* `Binary64.Neighbourhood`: the reals that round to a number.
* `Binary64.shortest`: the digits of a number and the power of ten that scales them.
* `Binary64.toText`: the written form.
-/

namespace Motif.Binary64

/-- The reals that round to a finite positive number: those between `low / den` and `high / den`,
and the two ends when `closed`. -/
structure Neighbourhood where
  /-- Lower end. -/
  low : Nat
  /-- The number itself. -/
  mid : Nat
  /-- Upper end. -/
  high : Nat
  /-- Common denominator. -/
  den : Nat
  /-- The ends belong to it. -/
  closed : Bool

/-- The reals that round to a finite positive number. Below a power of two numbers are twice as
dense, so there the lower end is nearer. -/
def neighbourhood (x : Binary64) : Neighbourhood :=
  let m := x.significand
  let down := if m == exponentUnit && -1074 < x.exponent then 1 else 2
  let unit := Nat.pow 2 (x.exponent - 2).toNat
  { low := (4 * m - down) * unit, mid := 4 * m * unit, high := (4 * m + 2) * unit,
    den := Nat.pow 2 (2 - x.exponent).toNat, closed := m % 2 == 0 }

/-- The integer `digits` scaled by a power of ten. -/
structure Decimal where
  /-- The significant digits. -/
  digits : Nat
  /-- The power of ten. -/
  exponent : Int

/-- Numerator and denominator of a decimal. -/
def Decimal.ratio (d : Decimal) : Nat × Nat :=
  (d.digits * Nat.pow 10 d.exponent.toNat, Nat.pow 10 (-d.exponent).toNat)

namespace Neighbourhood

/-- The decimal reads back as the number. -/
def holds (b : Neighbourhood) (d : Decimal) : Bool :=
  let (n, q) := d.ratio
  if b.closed then b.low * q ≤ n * b.den && n * b.den ≤ b.high * q
  else b.low * q < n * b.den && n * b.den < b.high * q

/-- The number of digits before the point, counted negatively for zeros behind it: the least `p`
with the number below `10 ^ p`. -/
def width (b : Neighbourhood) : Int :=
  ((Nat.toDigits 10 (b.mid * Nat.pow 10 340 / b.den)).length : Int) - 340

/-- The neighbour of the number on the grid of `k` digits that reads back, the nearer one if both
do, or the upper one. -/
def onGrid? (b : Neighbourhood) (k : Nat) : Option Decimal :=
  let e := b.width - k
  let d := b.mid * Nat.pow 10 (-e).toNat / (b.den * Nat.pow 10 e.toNat)
  let below : Decimal := ⟨d, e⟩
  let above : Decimal := if d + 1 == Nat.pow 10 k then ⟨1, e + k⟩ else ⟨d + 1, e⟩
  let (n, q) := (⟨2 * d + 1, e⟩ : Decimal).ratio
  let nearerAbove := n * b.den ≤ 2 * b.mid * q
  if b.holds above && (nearerAbove || !b.holds below) then some above
  else if b.holds below then some below
  else none

end Neighbourhood

/-- The fewest digits that read back as a finite positive number. -/
def shortest (x : Binary64) : Decimal :=
  let b := x.neighbourhood
  ((List.range 17).findSome? fun k => b.onGrid? (k + 1)).getD ⟨b.mid / b.den, 0⟩

/-- A decimal in positional notation. -/
def Decimal.positional (d : Decimal) : List Char :=
  let ds := Nat.toDigits 10 d.digits
  if 0 ≤ d.exponent then ds ++ List.replicate d.exponent.toNat '0'
  else
    let places := (-d.exponent).toNat
    if places < ds.length then ds.take (ds.length - places) ++ '.' :: ds.drop (ds.length - places)
    else '0' :: '.' :: List.replicate (places - ds.length) '0' ++ ds

/-- The written form of a number. -/
def toText (x : Binary64) : String :=
  if x.isNaN then "NaN"
  else
    let sign := if x.isNegative then "-" else ""
    if x.isInfinite then sign ++ "inf"
    else if x.magnitude == 0 then sign ++ "0"
    else sign ++ String.ofList x.shortest.positional

end Motif.Binary64
