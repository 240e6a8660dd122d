import Motif.Number.Binary64

/-!
# Reading numbers

A number is written as an optional sign and then either a decimal with an optional exponent, or
one of the words `inf`, `infinity` and `nan` in any case. A decimal needs a digit before or after
its point. The number read is the one nearest to the decimal.

* `Binary64.ofDecimal`: the number nearest to `digits · 10 ^ exponent`.
* `Binary64.ofChars?`, `Binary64.ofText?`: reading a text.
* `natOfDigits?`: reading an unsigned integer of limited size.
-/

namespace Motif

/-- ASCII digits. -/
def isDigit (c : Char) : Bool := '0' ≤ c && c ≤ '9'

/-- The number that a run of digits denotes in base ten. -/
def natOfDigits (ds : List Char) : Nat := ds.foldl (fun n d => 10 * n + (d.toNat - '0'.toNat)) 0

/-- Counts, indices and group numbers are below this bound. -/
def indexBound : Nat := 0x10000000000000000

/-- Reads digits, all of them and at least one, as a number below `indexBound`. -/
def natOfDigits? (ds : List Char) : Option Nat :=
  if !ds.isEmpty && ds.all isDigit && natOfDigits ds < indexBound then some (natOfDigits ds)
  else none

/-- Reads a number that may follow a plus sign. -/
def unsignedOfText? (s : String) : Option Nat :=
  match s.toList with
  | '+' :: ds => natOfDigits? ds
  | ds => natOfDigits? ds

namespace Binary64

/-- The number nearest to `digits · 10 ^ exponent`. Exponents far outside the range of finite
numbers are decided by the number of digits alone. -/
def ofDecimal (negative : Bool) (digits : Nat) (exponent : Int) : Binary64 :=
  let width : Int := (Nat.toDigits 10 digits).length + exponent
  if digits == 0 || width < -400 then ofMagnitude negative 0
  else if 400 < width then infinity negative
  else if 0 ≤ exponent then ofRatio negative (digits * Nat.pow 10 exponent.toNat) 1
  else ofRatio negative digits (Nat.pow 10 (-exponent).toNat)

/-- Splits a sign off. -/
def splitSign : List Char → Bool × List Char
  | '-' :: cs => (true, cs)
  | '+' :: cs => (false, cs)
  | cs => (false, cs)

/-- The exponent at the end of a decimal; the empty text stands for no exponent. -/
def exponentOfChars? : List Char → Option Int
  | [] => some 0
  | e :: cs =>
    let (negative, ds) := splitSign cs
    if (e == 'e' || e == 'E') && !ds.isEmpty && ds.all isDigit then
      some (if negative then -(natOfDigits ds : Int) else natOfDigits ds)
    else none

/-- A decimal without its sign. -/
def decimalOfChars? (negative : Bool) (cs : List Char) : Option Binary64 :=
  let whole := cs.takeWhile isDigit
  let rest := cs.dropWhile isDigit
  let (fraction, tail) := match rest with
    | '.' :: r => (r.takeWhile isDigit, r.dropWhile isDigit)
    | r => ([], r)
  if whole.isEmpty && fraction.isEmpty then none
  else (exponentOfChars? tail).map fun e =>
    ofDecimal negative (natOfDigits (whole ++ fraction)) (e - fraction.length)

/-- One of the words for numbers without digits. -/
def wordOfChars? (negative : Bool) (cs : List Char) : Option Binary64 :=
  let word := String.ofList (cs.map Char.toLower)
  if word == "inf" || word == "infinity" then some (infinity negative)
  else if word == "nan" then some (nan negative)
  else none

/-- Reads a number. -/
def ofChars? (cs : List Char) : Option Binary64 :=
  let (negative, rest) := splitSign cs
  (decimalOfChars? negative rest).or (wordOfChars? negative rest)

/-- Reads a number from a text. -/
def ofText? (s : String) : Option Binary64 := ofChars? s.toList

end Binary64

end Motif
