import Smali.Machine.Value

/-!
# Slots of a call

The registers and the parameters of a call are slots, numbered from zero. A slot holds a 32-bit integer or
a reference; a 64-bit value takes two neighbouring slots, the high half first.

A slot file is seen through `cells`. Main statements: `size_set` and `size_setWide` (writing never changes
the capacity).
-/

namespace Smali.Machine

/-- A fixed number of slots, some of them not yet written. -/
structure Slots where
  cells : Array (Option Value)
  deriving Repr, DecidableEq, Inhabited

namespace Slots

/-- Slots for registers: at least one, none written. -/
def registers (count : Nat) : Slots :=
  ⟨Array.replicate (max count 1) none⟩

/-- Slots for parameters: the receiver, if any, then the arguments. -/
def parameters (receiver? : Option Value) (args : List Value) : Slots :=
  ⟨((receiver?.toList ++ Value.splitAll args).map some).toArray⟩

/-- The number of slots. -/
def size (s : Slots) : Nat := s.cells.size

/-- Fails unless the index lies inside. -/
def checkIndex (s : Slots) (index : Nat) : Except Fault Unit :=
  if index < s.size then .ok () else .error (.outOfBounds index s.size)

/-- The value in a slot. -/
def get (s : Slots) (index : Nat) : Except Fault Value :=
  match s.cells[index]? with
  | some (some v) => .ok v
  | some none => mismatch (.neverWritten index)
  | none => .error (.outOfBounds index s.size)

/-- Writes a value that takes one slot. -/
def set (s : Slots) (index : Nat) (v : Value) : Except Fault Slots :=
  if index < s.size then
    if v.variant = .long then mismatch (.wideInSlot index)
    else .ok ⟨s.cells.setIfInBounds index (some v)⟩
  else .error (.outOfBounds index s.size)

/-- The 64-bit value in a slot and the next. -/
def getWide (s : Slots) (index : Nat) : Except Fault Value := do
  Value.pair (← s.get index) (← s.get (index + 1))

/-- Writes a 64-bit value into a slot and the next. -/
def setWide (s : Slots) (index : Nat) (v : Value) : Except Fault Slots := do
  let (high, low) ← v.split
  if index + 1 < s.size then
    return ⟨(s.cells.setIfInBounds index (some high)).setIfInBounds (index + 1) (some low)⟩
  else .error (.outOfBounds (index + 1) s.size)

/-! ## Capacity -/

theorem size_set {s t : Slots} {index : Nat} {v : Value} (h : s.set index v = .ok t) :
    t.size = s.size := by
  unfold set mismatch at h
  split at h
  · split at h
    · simp at h
    · obtain rfl := Except.ok.inj h
      simp [size]
  · simp at h

theorem size_setWide {s t : Slots} {index : Nat} {v : Value} (h : s.setWide index v = .ok t) :
    t.size = s.size := by
  unfold setWide at h
  cases hv : v.split with
  | error e => simp [hv, bind, Except.bind] at h
  | ok p =>
    simp only [hv, bind, Except.bind] at h
    split at h
    · obtain rfl := Except.ok.inj h
      simp [size]
    · simp at h

end Slots

end Smali.Machine
