import Smali.Binary.Format
import Smali.Text.Numeral

/-!
# Reading decimal fractions

A decimal fraction is an optional sign, digits with at most one point among or beside them, and an
optional exponent; `inf`, `infinity` and `nan` are read in any case. The result is the floating-point
number nearest to the fraction.
-/

namespace Smali.Decimal

open Smali.Binary (Format)

/-- Digits and the power of ten that they are multiplied with. -/
structure Scaled where
  /-- The digits without the point. -/
  digits : List Char
  exponent : Int
  deriving Repr, DecidableEq

/-- Whether the character is a decimal digit. -/
def isDigit (c : Char) : Bool :=
  '0' ≤ c && c ≤ '9'

/-- Reads the exponent behind the digits, if there is one. -/
def readExponent : List Char → Option Int
  | [] => some 0
  | c :: rest => if c == 'e' || c == 'E' then Text.readSigned rest else none

/-- Reads digits with an optional point and an optional exponent. -/
def readScaled (s : List Char) : Option Scaled :=
  let whole := s.takeWhile isDigit
  let (fraction, rest) :=
    match s.dropWhile isDigit with
    | '.' :: r => (r.takeWhile isDigit, r.dropWhile isDigit)
    | r => ([], r)
  if whole.isEmpty && fraction.isEmpty then none
  else (readExponent rest).map fun e => ⟨whole ++ fraction, e - fraction.length⟩

/-- Beyond this power of ten every format is infinite, and below its inverse every format is zero. -/
def exponentLimit : Int := 400

/-- The pattern nearest to a decimal fraction without sign. -/
def Scaled.nearest (f : Format) (d : Scaled) : Nat :=
  let digits := d.digits.dropWhile (· == '0')
  let n := (Text.digitsFrom 10 0 digits).getD 0
  -- the number lies between ten to the power `size - 1` and ten to the power `size`
  let size := digits.length + d.exponent
  if n = 0 || size < -exponentLimit then 0
  else if exponentLimit < size then f.infinity
  else if 0 ≤ d.exponent then f.nearest (n * Nat.pow 10 d.exponent.toNat) 1
  else f.nearest n (Nat.pow 10 (-d.exponent).toNat)

/-- The pattern of a text without sign. -/
def readMagnitude (f : Format) (s : List Char) : Option Nat :=
  match readScaled s with
  | some d => some (d.nearest f)
  | none =>
    let word := String.ofList (s.map Char.toLower)
    if word == "inf" || word == "infinity" then some f.infinity
    else if word == "nan" then some (f.infinity + f.quietBit)
    else none

/-- The pattern of the number nearest to the fraction that the text denotes. -/
def read (f : Format) : List Char → Option Nat
  | '-' :: r => (readMagnitude f r).map (f.withSign true)
  | '+' :: r => readMagnitude f r
  | s => readMagnitude f s

end Smali.Decimal
