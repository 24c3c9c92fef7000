import Smali.Machine.Fault

/-!
# Integer arithmetic

The exact result of an operation is reduced to the width of the result in two's complement. Only the
division by zero fails. Shift distances count modulo the width.
-/

namespace Smali.Machine

/-- The representative of a number modulo two to the width, with sign. -/
def reduce (width : Width) (n : Int) : Int64 :=
  Int64.ofInt (n.bmod width.modulus)

/-- How far a shift goes. -/
def shiftDistance (width : Width) (rhs : Int64) : Nat :=
  (rhs.toInt % width.bits).toNat

/-- The exact result of an operation whose divisor is not zero. -/
def exactResult (op : BinaryOp) (width : Width) (lhs rhs : Int64) : Int :=
  match op with
  | .add => lhs.toInt + rhs.toInt
  | .sub => lhs.toInt - rhs.toInt
  | .rsub => rhs.toInt - lhs.toInt
  | .mul => lhs.toInt * rhs.toInt
  | .div => lhs.toInt.tdiv rhs.toInt
  | .rem => lhs.toInt.tmod rhs.toInt
  | .and => (lhs &&& rhs).toInt
  | .or => (lhs ||| rhs).toInt
  | .xor => (lhs ^^^ rhs).toInt
  -- the distance counts modulo the width, the shift itself is exact
  | .shl => lhs.toInt * (1 <<< shiftDistance width rhs : Nat)
  | .shr => lhs.toInt >>> shiftDistance width rhs
  | .ushr => (lhs.toInt % width.modulus).toNat >>> shiftDistance width rhs

/-- Whether the operation divides. -/
def divides : BinaryOp → Bool
  | .div | .rem => true
  | _ => false

/-- The result of an operation, reduced to the width. -/
def evaluate (op : BinaryOp) (width : Width) (lhs rhs : Int64) : Except Fault Int64 :=
  if divides op && rhs == 0 then .error .divisionByZero
  else .ok (reduce width (exactResult op width lhs rhs))

/-- The value of a literal that fits the field of its instruction. -/
def narrowLiteral (literal : Literal) : Except Fault Int64 :=
  let v := literal.value
  let bound : Nat := 1 <<< (literal.bits - 1)
  if 64 ≤ literal.bits then .ok v
  else if bound ≤ v.toInt then .error (.overflow v)
  else if v.toInt < -bound then .error (.underflow v)
  else .ok v

end Smali.Machine
