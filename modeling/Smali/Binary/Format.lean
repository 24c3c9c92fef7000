/-!
# Binary floating-point numbers

A floating-point number is kept as its bit pattern, a natural number: a sign bit, an exponent field and a
fraction field. `Format.decode` says which number a pattern stands for and `Format.nearest` which pattern
stands for the number next to a given ratio; both work in exact arithmetic on natural numbers. Reading
decimals and the operations on doubles are built on these two.
-/

namespace Smali.Binary

/-- The widths of a binary interchange format. -/
structure Format where
  /-- Bits of the significand, the leading one included. -/
  precision : Nat
  /-- Bits of the exponent field. -/
  exponentBits : Nat
  deriving Repr, DecidableEq

namespace Format

/-- The format of 32 bits. -/
def single : Format := ⟨24, 8⟩

/-- The format of 64 bits. -/
def double : Format := ⟨53, 11⟩

/-- Bits of the fraction field. -/
def fractionBits (f : Format) : Nat := f.precision - 1

/-- The number of exponent fields; the last one marks infinities and NaNs. -/
def exponentFields (f : Format) : Nat := 1 <<< f.exponentBits

/-- The exponent of the smallest step: every finite number is a multiple of two to this power. -/
def minExponent (f : Format) : Int :=
  3 - (1 <<< (f.exponentBits - 1) : Nat) - f.precision

/-- The pattern of positive infinity. -/
def infinity (f : Format) : Nat := (f.exponentFields - 1) <<< f.fractionBits

/-- The sign bit. -/
def signBit (f : Format) : Nat := 1 <<< (f.fractionBits + f.exponentBits)

/-- The bit that tells a quiet NaN. -/
def quietBit (f : Format) : Nat := 1 <<< (f.fractionBits - 1)

/-- The pattern with the magnitude and the sign. -/
def withSign (f : Format) (negative : Bool) (magnitude : Nat) : Nat :=
  if negative then f.signBit + magnitude else magnitude

end Format

/-- What a bit pattern stands for. -/
inductive Number where
  | nan
  | infinite (negative : Bool)
  /-- `mantissa · 2 ^ exponent`, with a sign also for zero. -/
  | finite (negative : Bool) (mantissa : Nat) (exponent : Int)
  deriving Repr, DecidableEq

namespace Format

/-- What a bit pattern stands for. -/
def decode (f : Format) (bits : Nat) : Number :=
  let negative := bits / f.signBit % 2 == 1
  let field := (bits >>> f.fractionBits) % f.exponentFields
  let fraction := bits % (1 <<< f.fractionBits)
  if field = f.exponentFields - 1 then
    if fraction = 0 then .infinite negative else .nan
  else if field = 0 then
    .finite negative fraction f.minExponent
  else
    .finite negative ((1 <<< f.fractionBits) + fraction) (f.minExponent + (field - 1 : Nat))

/-- Rounds `num / den` to the nearest integer, a half to the even one. -/
def roundHalfEven (num den : Nat) : Nat :=
  let q := num / den
  let r := num % den
  if 2 * r < den || (2 * r = den && q % 2 = 0) then q else q + 1

/-- `(num, den)` divided by two to the power `e`. -/
def scaleDown (num den : Nat) (e : Int) : Nat × Nat :=
  if 0 ≤ e then (num, den <<< e.toNat) else (num <<< (-e).toNat, den)

/-- The exponent of the last place of the number next to `num / den`, both positive. -/
def lastPlace (f : Format) (num den : Nat) : Int :=
  let e : Int := num.log2 - den.log2 - f.precision
  -- scaled by this guess the quotient has as many bits as the precision, or one more
  let (n, d) := scaleDown num den e
  max f.minExponent (if n / d < 1 <<< f.precision then e else e + 1)

/-- The pattern of the number nearest to `num / den` with `den` positive; a half goes to the even
pattern, and what is too large becomes infinite. A carry out of the fraction moves on into the exponent
field, as it should. -/
def nearest (f : Format) (num den : Nat) : Nat :=
  if num = 0 then 0
  else
    let e := f.lastPlace num den
    let (n, d) := scaleDown num den e
    -- the leading bit of a normal number adds one to the exponent field
    min f.infinity (((e - f.minExponent).toNat <<< f.fractionBits) + roundHalfEven n d)

end Format

end Smali.Binary
