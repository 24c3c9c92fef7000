import Smali.Machine.Fault

/-!
# Values

A value is a 32-bit or 64-bit integer or a reference. Floating-point numbers are carried as their bits,
and the null reference is the integer zero. A 64-bit value that lives in two slots is split into a high
and a low half.
-/

namespace Smali.Machine

/-- A value of the machine. References are places on the heap. -/
inductive Value where
  | int (value : Int32)
  | long (value : Int64)
  | object (ref : Nat)
  | array (ref : Nat)
  deriving Repr, DecidableEq, Inhabited

namespace Value

/-- What the value is. -/
def variant : Value → Variant
  | int _ => .int
  | long _ => .long
  | object _ => .object
  | array _ => .array

/-- The 32-bit integer that the value has to be. -/
def asInt : Value → Except Fault Int32
  | int v => .ok v
  | other => mismatch (.expected .int other.variant)

/-- The 64-bit integer that the value has to be. -/
def asLong : Value → Except Fault Int64
  | long v => .ok v
  | other => mismatch (.expected .long other.variant)

/-- The object that the value has to be. -/
def asObject : Value → Except Fault Nat
  | object r => .ok r
  | other => mismatch (.expected .object other.variant)

/-- The array that the value has to be. -/
def asArray : Value → Except Fault Nat
  | array r => .ok r
  | other => mismatch (.expected .array other.variant)

/-- Whether the value is an object or an array. -/
def isReference : Value → Bool
  | object _ | array _ => true
  | _ => false

/-- Whether the value is the null reference. -/
def isNull (v : Value) : Bool :=
  v = int 0

/-- Whether the value can stand where a reference is expected. -/
def isReferenceOrNull (v : Value) : Bool :=
  v.isReference || v.isNull

/-- The value itself if it has an identity that can be locked. -/
def asReference : Value → Except Fault Value
  | object r => .ok (object r)
  | array r => .ok (array r)
  | other => mismatch (.expectedReference other.variant)

/-- The 64-bit value with the two halves. -/
def join (high low : Int32) : Int64 :=
  ((high.toUInt32.toUInt64 <<< 32) ||| low.toUInt32.toUInt64).toInt64

/-- The upper 32 bits. -/
def highHalf (v : Int64) : Int32 :=
  (v.toUInt64 >>> 32).toUInt32.toInt32

/-- The lower 32 bits. -/
def lowHalf (v : Int64) : Int32 :=
  v.toUInt64.toUInt32.toInt32

/-- A 32-bit integer with its sign in 64 bits. -/
def widen (v : Value) : Except Fault Value := do
  return long (← v.asInt).toInt64

/-- The lower half of a 64-bit integer. -/
def narrow (v : Value) : Except Fault Value := do
  return int (lowHalf (← v.asLong))

/-- The 64-bit value whose halves are the two values. -/
def pair (high low : Value) : Except Fault Value := do
  return long (join (← high.asInt) (← low.asInt))

/-- The two halves of a 64-bit value, the high one first. -/
def split (v : Value) : Except Fault (Value × Value) := do
  let v ← v.asLong
  return (int (highHalf v), int (lowHalf v))

/-- The bits of the double that a 64-bit value carries. -/
def doubleBits (v : Value) : Except Fault Nat := do
  return (← v.asLong).toUInt64.toNat

/-- The 64-bit value that carries the bits of a double. -/
def ofDoubleBits (bits : Nat) : Value :=
  long (Int64.ofNat bits)

/-- Zero of a type. -/
def zeroOf (d : Descriptor) : Value :=
  if d.isWide then long 0 else int 0

/-- Whether the value can be stored in a field, an element or a parameter of a type. -/
def fits (v : Value) : Descriptor → Bool
  | .long | .double => v.variant = .long
  | .object _ | .array _ => v.isReferenceOrNull
  | .void => false
  | _ => v.variant = .int

/-- The slots that the values take: a 64-bit value takes two. -/
def splitAll (vs : List Value) : List Value :=
  vs.flatMap fun
    | long v => [int (highHalf v), int (lowHalf v)]
    | v => [v]

end Value

/-! ## Narrow integers -/

/-- The lowest byte with its sign. -/
def toByte (v : Int32) : Int32 := v.toInt8.toInt32

/-- The lower sixteen bits with their sign. -/
def toShort (v : Int32) : Int32 := v.toInt16.toInt32

/-- The lower sixteen bits without sign. -/
def toChar (v : Int32) : Int32 := v &&& 0xFFFF

/-- The lowest byte without sign. -/
def toBoolean (v : Int32) : Int32 := v &&& 0xFF

/-- What an accessor stores of an integer. -/
def truncate (kind : AccessKind) (v : Int32) : Int32 :=
  match kind with
  | .byte => toByte v
  | .short => toShort v
  | .char => toChar v
  | .boolean => toBoolean v
  | _ => v

end Smali.Machine
