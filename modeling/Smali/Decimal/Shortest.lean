import Smali.Binary.Format

/-!
# Shortest decimal text

A finite number is written with the fewest digits that still read back as that number; of several such
decimals the nearest is taken, and the upper one if two are equally near. Digits are written
positionally, never with an exponent, and an integral number has no point.
-/

namespace Smali.Decimal

open Smali.Binary (Format Number)

/-- The reals that round to a number: from `low` to `high` around `mid`, in units of one over `den`. -/
structure Interval where
  low : Nat
  mid : Nat
  high : Nat
  den : Nat
  /-- Whether the two ends round to the number as well. -/
  closed : Bool
  deriving Repr, DecidableEq

/-- The reals that round to `m · 2 ^ e`. Below a power of two the step is half as large. -/
def Interval.around (f : Format) (m : Nat) (e : Int) : Interval :=
  -- everything is counted in quarters of the last place, so that both half steps are whole
  let unit := if 2 ≤ e then 1 <<< (e - 2).toNat else 1
  let low := if m = 1 <<< f.fractionBits && f.minExponent < e then 4 * m - 1 else 4 * m - 2
  ⟨low * unit, 4 * m * unit, (4 * m + 2) * unit, if 2 ≤ e then 1 else 1 <<< (2 - e).toNat, m % 2 = 0⟩

/-- Whether `x` lies in the interval. -/
def Interval.contains (i : Interval) (x : Nat) : Bool :=
  if i.closed then i.low ≤ x && x ≤ i.high else i.low < x && x < i.high

/-- The interval in units of ten to the power `k`, and the size of that unit in it. -/
def Interval.onGrid (i : Interval) (k : Int) : Interval × Nat :=
  if 0 ≤ k then (i, Nat.pow 10 k.toNat * i.den)
  else
    let s := Nat.pow 10 (-k).toNat
    ({ i with low := i.low * s, mid := i.mid * s, high := i.high * s }, i.den)

/-- The multiple of ten to the power `k` that reads back and is nearest, if there is one. -/
def Interval.pick? (i : Interval) (k : Int) : Option Nat :=
  let (j, unit) := i.onGrid k
  let below := j.mid / unit
  let above := below + 1
  match j.contains (below * unit), j.contains (above * unit) with
  | true, true => some (if j.mid - below * unit < above * unit - j.mid then below else above)
  | true, false => some below
  | false, true => some above
  | false, false => none

/-- How many digits a positive number has. -/
def digitCount (n : Nat) : Nat :=
  (Nat.toDigits 10 n).length

/-- The exponent of the first digit of `num / den`, both positive. -/
def leadingExponent (num den : Nat) : Int :=
  if den ≤ num then digitCount (num / den) - 1 else -(digitCount ((den - 1) / num) : Int)

/-- The most digits that a number of any format needs. -/
def maxDigits : Nat := 17

/-- The digits of a decimal as a number, and the power of ten that they are multiplied with. -/
def shortest (f : Format) (m : Nat) (e : Int) : Nat × Int :=
  let i := Interval.around f m e
  let lead := leadingExponent i.mid i.den
  -- fewer digits first; seventeen always suffice
  let found := (List.range maxDigits).findSome? fun (n : Nat) =>
    (i.pick? (lead - n)).map fun c => (c, lead - n)
  found.getD (m, 0)

/-- Drops the zeros at the end of the digits. -/
def dropZeros (digits : List Char) : List Char :=
  (digits.reverse.dropWhile (· == '0')).reverse

/-- Writes digits with the point so many places from their end; `k` is the exponent of the last. -/
def positional (digits : List Char) (k : Int) : List Char :=
  let kept := dropZeros digits
  let k := k + (digits.length - kept.length : Nat)
  if 0 ≤ k then kept ++ List.replicate k.toNat '0'
  else
    let places := (-k).toNat
    if places < kept.length then
      kept.take (kept.length - places) ++ '.' :: kept.drop (kept.length - places)
    else
      '0' :: '.' :: List.replicate (places - kept.length) '0' ++ kept

/-- The text of a bit pattern. -/
def write (f : Format) (bits : Nat) : String :=
  match f.decode bits with
  | .nan => "NaN"
  | .infinite negative => if negative then "-inf" else "inf"
  | .finite negative m e =>
    let magnitude :=
      if m = 0 then ['0']
      else
        let (c, k) := shortest f m e
        positional (Nat.toDigits 10 c) k
    String.ofList (if negative then '-' :: magnitude else magnitude)

end Smali.Decimal
