import Smali.Binary.Format

/-!
# Operations on floating-point numbers

Sum, difference, product and quotient are the exact results rounded once; the remainder is exact and has
the sign of the dividend. A NaN operand is passed on, the left one first, made quiet; an operation
without a result gives the negative quiet NaN. All operands and results are bit patterns.
-/

namespace Smali.Binary.Format

variable (f : Format)

/-- The pattern of an operation without a result. -/
def invalid : Nat :=
  f.withSign true (f.infinity + f.quietBit)

/-- A NaN made quiet. -/
def quiet (bits : Nat) : Nat :=
  bits ||| f.quietBit

/-- Passes on a NaN operand, or computes with what the operands stand for. -/
def combine (op : Number → Number → Nat) (x y : Nat) : Nat :=
  match f.decode x, f.decode y with
  | .nan, _ => f.quiet x
  | _, .nan => f.quiet y
  | a, b => op a b

/-- The pattern nearest to a signed multiple of two to the power `e`; `zeroSign` is the sign of zero. -/
def ofScaled (zeroSign : Bool) (n : Int) (e : Int) : Nat :=
  if n = 0 then f.withSign zeroSign 0
  else
    let (num, den) := if 0 ≤ e then (n.natAbs <<< e.toNat, 1) else (n.natAbs, 1 <<< (-e).toNat)
    f.withSign (n < 0) (f.nearest num den)

/-- A mantissa with its sign. -/
def signed (negative : Bool) (m : Nat) : Int :=
  if negative then -m else m

/-- The mantissa that belongs to the smaller exponent `e'`. -/
def shiftTo (m : Int) (e e' : Int) : Int :=
  m * (1 <<< (e - e').toNat : Nat)

/-- The sum. A sum that is exactly zero is negative only if both operands are. -/
def add (x y : Nat) : Nat :=
  f.combine (fun
    | .finite s m e, .finite t n d =>
      let low := min e d
      f.ofScaled (s && t) (shiftTo (signed s m) e low + shiftTo (signed t n) d low) low
    | .infinite s, .infinite t => if s = t then f.withSign s f.infinity else f.invalid
    | .infinite s, _ => f.withSign s f.infinity
    | _, .infinite t => f.withSign t f.infinity
    | _, _ => f.invalid) x y

/-- The number with the other sign. -/
def negate (x : Nat) : Nat :=
  match f.decode x with
  | .nan => x
  | _ => if x / f.signBit % 2 = 1 then x - f.signBit else x + f.signBit

/-- The difference. -/
def sub (x y : Nat) : Nat :=
  f.add x (f.negate y)

/-- The product. -/
def mul (x y : Nat) : Nat :=
  f.combine (fun
    | .finite s m e, .finite t n d => f.ofScaled (s != t) (signed (s != t) (m * n)) (e + d)
    | .infinite s, .infinite t => f.withSign (s != t) f.infinity
    | .infinite s, .finite t n _ | .finite t n _, .infinite s =>
      if n = 0 then f.invalid else f.withSign (s != t) f.infinity
    | _, _ => f.invalid) x y

/-- The quotient. -/
def div (x y : Nat) : Nat :=
  f.combine (fun
    | .finite s m e, .finite t n d =>
      if n = 0 then
        if m = 0 then f.invalid else f.withSign (s != t) f.infinity
      else
        let (num, den) := scaleDown m n (d - e)
        f.withSign (s != t) (f.nearest num den)
    | .infinite s, .finite t _ _ => f.withSign (s != t) f.infinity
    | .finite s _ _, .infinite t => f.withSign (s != t) 0
    | _, _ => f.invalid) x y

/-- The remainder of the quotient truncated toward zero. -/
def rem (x y : Nat) : Nat :=
  f.combine (fun
    | .finite s m e, .finite _ n d =>
      if n = 0 then f.invalid
      else
        let low := min e d
        let r := (shiftTo m e low).natAbs % (shiftTo n d low).natAbs
        f.ofScaled s (signed s r) low
    -- an infinite divisor leaves the dividend as it is
    | .finite _ _ _, .infinite _ => x
    | _, _ => f.invalid) x y

/-- The order of two numbers, none if one of them is a NaN. The two zeros are equal. -/
def compare? (x y : Nat) : Option Ordering :=
  match f.decode x, f.decode y with
  | .nan, _ | _, .nan => none
  | .infinite s, .infinite t =>
    some (if s = t then .eq else if s then .lt else .gt)
  | .infinite s, .finite _ _ _ => some (if s then .lt else .gt)
  | .finite _ _ _, .infinite t => some (if t then .gt else .lt)
  | .finite s m e, .finite t n d =>
    let low := min e d
    some (compare (shiftTo (signed s m) e low) (shiftTo (signed t n) d low))

end Smali.Binary.Format
