/-!
# Elapsed time

* `elapsedText`: a span of time in the largest unit of which it has at least one, with as many
  decimals as it needs.
-/

namespace Motif.CommandLine

/-- Digits without the zeros at their end. -/
def trimZeros (ds : List Char) : List Char := (ds.reverse.dropWhile (· == '0')).reverse

/-- `n` thousandths, millionths and so on of a unit; `places` is the number of decimals. -/
def decimalText (n places : Nat) : String :=
  let fraction := Nat.toDigits 10 (n % Nat.pow 10 places)
  let decimals := trimZeros (List.replicate (places - fraction.length) '0' ++ fraction)
  toString (n / Nat.pow 10 places) ++
    (if decimals.isEmpty then "" else "." ++ String.ofList decimals)

/-- A number of nanoseconds in the largest unit of which there is at least one. -/
def elapsedText (nanoseconds : Nat) : String :=
  if 1000000000 ≤ nanoseconds then decimalText nanoseconds 9 ++ "s"
  else if 1000000 ≤ nanoseconds then decimalText nanoseconds 6 ++ "ms"
  else if 1000 ≤ nanoseconds then decimalText nanoseconds 3 ++ "µs"
  else toString nanoseconds ++ "ns"

end Motif.CommandLine
