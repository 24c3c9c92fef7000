import Smali.Binary.Arithmetic
import Smali.Machine.Arithmetic
import Smali.Machine.Heap
import Smali.Machine.Slots

/-!
# Frames

The frame of a call in progress: its method, the place of the next instruction, its registers and its
parameters. Reading and writing check that a value suits the kind that the instruction asks for; where a
message shows a value, the heap is needed.
-/

namespace Smali.Machine

/-- A call of a method with code. -/
structure Frame where
  method : Method
  code : Code
  /-- The number of the next instruction. -/
  pc : Nat := 0
  registers : Slots
  parameters : Slots
  deriving Repr, DecidableEq, Inhabited

namespace Frame

/-- The frame of a call that starts. -/
def enter (method : Method) (code : Code) (receiver? : Option Value) (args : List Value) : Frame :=
  { method, code
    registers := .registers code.registerCount
    parameters := .parameters receiver? args }

/-- The slots of the kind of a slot. -/
def file (f : Frame) : Slot → Slots
  | .register _ => f.registers
  | .parameter _ => f.parameters

/-- Changes the slots of the kind of a slot. -/
def update (f : Frame) (slot : Slot) (change : Slots → Except Fault Slots) : Except Fault Frame :=
  match f, slot with
  | ⟨method, code, pc, registers, parameters⟩, .register _ => do
    return ⟨method, code, pc, ← change registers, parameters⟩
  | ⟨method, code, pc, registers, parameters⟩, .parameter _ => do
    return ⟨method, code, pc, registers, ← change parameters⟩

/-- The value in a slot. -/
def read (f : Frame) (slot : Slot) : Except Fault Value :=
  (f.file slot).get slot.index

/-- Writes a slot. -/
def write (f : Frame) (slot : Slot) (v : Value) : Except Fault Frame :=
  f.update slot (·.set slot.index v)

/-- The 64-bit value in a slot and the next. -/
def readWide (f : Frame) (slot : Slot) : Except Fault Value :=
  (f.file slot).getWide slot.index

/-- Writes a 64-bit value into a slot and the next. -/
def writeWide (f : Frame) (slot : Slot) (v : Value) : Except Fault Frame :=
  f.update slot (·.setWide slot.index v)

/-- The 32-bit integer in a slot. -/
def readInt (f : Frame) (slot : Slot) : Except Fault Int32 := do
  (← f.read slot).asInt

/-- The 64-bit integer in a slot and the next. -/
def readLong (f : Frame) (slot : Slot) : Except Fault Int64 := do
  (← f.readWide slot).asLong

/-- The bits of the double in a slot and the next. -/
def readDouble (f : Frame) (slot : Slot) : Except Fault Nat := do
  (← f.readWide slot).doubleBits

/-- The reference in a slot, which may be null. -/
def readReference (f : Frame) (h : Heap) (slot : Slot) : Except Fault Value := do
  let v ← f.read slot
  if v.isReferenceOrNull then return v else mismatch (.notAReference slot (h.shown v))

/-- The value of a kind in a slot. -/
def readKind (f : Frame) (h : Heap) (kind : ValueKind) (slot : Slot) : Except Fault Value :=
  match kind with
  | .single => return .int (← f.readInt slot)
  | .wide => f.readWide slot
  | .object => f.readReference h slot

/-- Writes a value that has to be of a kind. -/
def writeKind (f : Frame) (h : Heap) (kind : ValueKind) (slot : Slot) (v : Value) :
    Except Fault Frame :=
  match kind, v with
  | .wide, .long _ => f.writeWide slot v
  | .single, .int _ => f.write slot v
  | .object, _ =>
    if v.isReferenceOrNull then f.write slot v else mismatch (.wrongKind .object (h.shown v))
  | kind, _ => mismatch (.wrongKind kind (h.shown v))

/-- The value in a slot as an accessor stores it. -/
def readAccess (f : Frame) (h : Heap) (kind : AccessKind) (slot : Slot) : Except Fault Value :=
  match kind with
  | .wide => f.readWide slot
  | .object => f.readReference h slot
  | kind => return .int (truncate kind (← f.readInt slot))

/-- The integer of a width in a slot. -/
def readWidth (f : Frame) (width : Width) (slot : Slot) : Except Fault Int64 :=
  match width with
  | .int => return (← f.readInt slot).toInt64
  | .long => f.readLong slot

/-- Writes an integer of a width. -/
def writeWidth (f : Frame) (width : Width) (slot : Slot) (v : Int64) : Except Fault Frame :=
  match width with
  | .int => f.write slot (.int v.toInt32)
  | .long => f.writeWide slot (.long v)

/-- The instruction that a label stands in front of. -/
def target (f : Frame) (label : String) : Except Fault Nat :=
  match f.code.labels.get? label with
  | some i => .ok i
  | none => .error (.labelNotFound (label ++ " in " ++ f.method.text))

end Frame

end Smali.Machine
