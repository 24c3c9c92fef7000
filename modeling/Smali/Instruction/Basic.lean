import Smali.Identifier
import Smali.Literal
import Smali.Slot

/-!
# Instructions

An instruction as it is kept in a method: operands are understood, labels are names. Kinds say which
values an instruction accepts and how many slots they take.
-/

namespace Smali

/-- What a move, a result or a return handles: one 32-bit value, one 64-bit value in two slots, or one
reference. -/
inductive ValueKind where
  | single
  | wide
  | object
  deriving Repr, DecidableEq, Inhabited

/-- What an accessor of a field or an array element handles. -/
inductive AccessKind where
  | int
  | wide
  | object
  | boolean
  | byte
  | char
  | short
  deriving Repr, DecidableEq, Inhabited

namespace AccessKind

/-- All kinds of accessors. -/
def all : List AccessKind := [int, wide, object, boolean, byte, char, short]

/-- What the kind adds to the mnemonic. -/
def suffix : AccessKind → String
  | int => ""
  | wide => "-wide"
  | object => "-object"
  | boolean => "-boolean"
  | byte => "-byte"
  | char => "-char"
  | short => "-short"

/-- The kind that adds this text to the mnemonic. -/
def ofSuffix? (s : String) : Option AccessKind :=
  all.find? (·.suffix == s)

/-- Whether an accessor of this kind may touch a location of the type. The plain accessor also moves the
raw bits of a float. -/
def accepts : AccessKind → Descriptor → Bool
  | int, .int | int, .float => true
  | wide, d => d.isWide
  | object, d => d.isReference
  | boolean, .boolean | byte, .byte | char, .char | short, .short => true
  | _, _ => false

/-- The kind of the value that an accessor moves between a location and a slot. -/
def valueKind : AccessKind → ValueKind
  | wide => .wide
  | object => .object
  | _ => .single

end AccessKind

/-- How the target of a call is found. -/
inductive InvokeKind where
  | static
  | direct
  | virtual
  deriving Repr, DecidableEq, Inhabited

namespace InvokeKind

/-- All kinds of calls. -/
def all : List InvokeKind := [static, direct, virtual]

/-- The word for a kind of call. -/
def text : InvokeKind → String
  | static => "static"
  | direct => "direct"
  | virtual => "virtual"

/-- The kind of call that a word names. -/
def ofText? (s : String) : Option InvokeKind :=
  all.find? (·.text == s)

end InvokeKind

/-- The comparison of a conditional branch. -/
inductive Comparison where
  | eq
  | ne
  | lt
  | ge
  | gt
  | le
  deriving Repr, DecidableEq, Inhabited

namespace Comparison

/-- All comparisons. -/
def all : List Comparison := [eq, ne, lt, ge, gt, le]

/-- The two letters of a comparison. -/
def text : Comparison → String
  | eq => "eq"
  | ne => "ne"
  | lt => "lt"
  | ge => "ge"
  | gt => "gt"
  | le => "le"

/-- The comparison that two letters name. -/
def ofText? (s : String) : Option Comparison :=
  all.find? (·.text == s)

/-- Whether the comparison holds for operands in the given order. -/
def holds : Comparison → Ordering → Bool
  | eq, o => o.isEq
  | ne, o => o.isNe
  | lt, o => o.isLT
  | ge, o => o.isGE
  | gt, o => o.isGT
  | le, o => o.isLE

/-- Equality and its opposite also compare references. -/
def isEquality : Comparison → Bool
  | eq | ne => true
  | _ => false

end Comparison

/-- A conversion between integer types. -/
inductive Conversion where
  | longToInt
  | intToLong
  | intToShort
  | intToByte
  | intToChar
  deriving Repr, DecidableEq, Inhabited

/-- The mnemonic of a conversion. -/
def Conversion.text : Conversion → String
  | longToInt => "long-to-int"
  | intToLong => "int-to-long"
  | intToShort => "int-to-short"
  | intToByte => "int-to-byte"
  | intToChar => "int-to-char"

/-- An operation on two numbers. -/
inductive BinaryOp where
  | add
  | sub
  /-- Subtraction with the operands exchanged. -/
  | rsub
  | mul
  | div
  | rem
  | and
  | or
  | xor
  | shl
  | shr
  | ushr
  deriving Repr, DecidableEq, Inhabited

namespace BinaryOp

/-- All operations. -/
def all : List BinaryOp := [add, sub, rsub, mul, div, rem, and, or, xor, shl, shr, ushr]

/-- The word for an operation. -/
def text : BinaryOp → String
  | add => "add"
  | sub => "sub"
  | rsub => "rsub"
  | mul => "mul"
  | div => "div"
  | rem => "rem"
  | and => "and"
  | or => "or"
  | xor => "xor"
  | shl => "shl"
  | shr => "shr"
  | ushr => "ushr"

/-- Whether the operation is a shift. -/
def isShift : BinaryOp → Bool
  | shl | shr | ushr => true
  | _ => false

/-- Whether the operation exists for doubles. -/
def isDouble : BinaryOp → Bool
  | add | sub | mul | div | rem => true
  | _ => false

/-- The operation that a word names. -/
def ofText? (s : String) : Option BinaryOp :=
  all.find? (·.text == s)

end BinaryOp

/-- The width of an integer: 32 or 64 bits. -/
inductive Width where
  | int
  | long
  deriving Repr, DecidableEq, Inhabited

namespace Width

/-- The number of bits. -/
def bits : Width → Nat
  | int => 32
  | long => 64

/-- How many integers there are of this width. -/
def modulus (w : Width) : Nat :=
  1 <<< w.bits

/-- The letter of the type of this width. -/
def text : Width → String
  | int => "I"
  | long => "J"

end Width

/-- The widths of the result, the left and the right operand. -/
structure Signature where
  result : Width
  lhs : Width
  rhs : Width
  deriving Repr, DecidableEq, Inhabited

/-- The right operand of an integer operation. -/
inductive Operand where
  | slot (slot : Slot)
  | literal (literal : Literal)
  deriving Repr, DecidableEq, Inhabited

/-- One instruction of a method. -/
inductive Instruction where
  | nop
  | const (dest : Slot) (literal : Literal)
  | constWide (dest : Slot) (literal : Literal)
  | constString (dest : Slot) (text : String)
  | move (kind : ValueKind) (dest src : Slot)
  | moveResult (kind : ValueKind) (dest : Slot)
  | returnVoid
  | returnValue (kind : ValueKind) (src : Slot)
  | staticGet (kind : AccessKind) (dest : Slot) (field : FieldId)
  | staticPut (kind : AccessKind) (src : Slot) (field : FieldId)
  | instanceGet (kind : AccessKind) (dest object : Slot) (field : FieldId)
  | instancePut (kind : AccessKind) (src object : Slot) (field : FieldId)
  | invoke (kind : InvokeKind) (args : List Slot) (method : MethodId)
  | ifZero (cmp : Comparison) (src : Slot) (label : String)
  | ifTest (cmp : Comparison) (a b : Slot) (label : String)
  | goto (label : String)
  | packedSwitch (src : Slot) (table : String)
  | compareLong (dest a b : Slot)
  | compareDouble (dest a b : Slot)
  | convert (conversion : Conversion) (dest src : Slot)
  | arithmetic (op : BinaryOp) (signature : Signature) (dest lhs : Slot) (rhs : Operand)
  | doubleArithmetic (op : BinaryOp) (dest lhs rhs : Slot)
  | newArray (dest length : Slot) (type : Descriptor)
  | arrayGet (kind : AccessKind) (dest array index : Slot)
  | arrayPut (kind : AccessKind) (src array index : Slot)
  | arrayLength (dest array : Slot)
  | newInstance (dest : Slot) (className : String)
  | monitorEnter (slot : Slot)
  | monitorExit (slot : Slot)
  | checkCast (src : Slot) (type : Descriptor)
  /-- A mnemonic that is not in the instruction table. -/
  | unsupported (mnemonic : String)
  deriving Repr, DecidableEq, Inhabited

/-- The label to which an instruction may jump; the targets of a switch stand in its table. -/
def Instruction.branchLabel? : Instruction → Option String
  | ifZero _ _ label | ifTest _ _ _ label | goto label => some label
  | _ => none

end Smali
