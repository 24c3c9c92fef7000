import Smali.Proofs.Flow

/-!
# What can be an element of an array

A value suits a type if it is of the variant that the type asks for and, for the types that are narrower
than a slot, in the range of the type. What accessors store and what a new array is filled with suits the
element type: an accessor cuts an integer down to its own width, and accepts no array of another.

## Key results

- `suits_of_readAccess`: what an accessor stores suits every type that it accepts
- `suits_defaultValue`: so does the value of an element that nobody has written
-/

namespace Smali

/-- Whether a number is in the range of a type that is narrower than a slot. -/
def Descriptor.inRange : Descriptor → Int → Bool
  | byte, n => -128 ≤ n && n ≤ 127
  | short, n => -32768 ≤ n && n ≤ 32767
  | char, n => 0 ≤ n && n ≤ 65535
  | boolean, n => 0 ≤ n && n ≤ 255
  | _, _ => true

namespace Machine

/-- Whether the value is no integer outside of the range of the type. -/
def Value.inRange (v : Value) (d : Descriptor) : Bool :=
  match v with
  | .int n => d.inRange n.toInt
  | _ => true

/-- Whether the value fits the type and is in its range. -/
def Value.suits (v : Value) (d : Descriptor) : Bool :=
  v.fits d && v.inRange d

/-! ## Ranges -/

/-- Under a mask without sign a number is not negative and not above the mask. -/
theorem toInt_and_mask (v mask : Int32) (hmask : mask.toBitVec.msb = false) :
    0 ≤ (v &&& mask).toInt ∧ (v &&& mask).toInt ≤ mask.toInt := by
  have hmsb : (v &&& mask).toBitVec.msb = false := by
    rw [Int32.toBitVec_and, BitVec.msb_and, hmask, Bool.and_false]
  -- without a sign both are their bits read as a number
  have hmasked : (v &&& mask).toInt = ((v.toBitVec &&& mask.toBitVec).toNat : Int) :=
    BitVec.toInt_eq_toNat_of_msb hmsb
  have hbound : mask.toInt = (mask.toBitVec.toNat : Int) := BitVec.toInt_eq_toNat_of_msb hmask
  have hle : (v.toBitVec &&& mask.toBitVec).toNat ≤ mask.toBitVec.toNat := by
    rw [BitVec.toNat_and]
    exact Nat.and_le_right
  omega

/-- What is cut to a byte is one. -/
theorem inRange_toByte (v : Int32) : Descriptor.byte.inRange (toByte v).toInt = true := by
  have hlow := v.toInt8.le_toInt
  have hhigh := v.toInt8.toInt_lt
  simp only [Descriptor.inRange, toByte, Int8.toInt_toInt32, Bool.and_eq_true, decide_eq_true_eq]
  omega

/-- What is cut to a short is one. -/
theorem inRange_toShort (v : Int32) : Descriptor.short.inRange (toShort v).toInt = true := by
  have hlow := v.toInt16.le_toInt
  have hhigh := v.toInt16.toInt_lt
  simp only [Descriptor.inRange, toShort, Int16.toInt_toInt32, Bool.and_eq_true, decide_eq_true_eq]
  omega

/-- What is cut to a character is one. -/
theorem inRange_toChar (v : Int32) : Descriptor.char.inRange (toChar v).toInt = true := by
  obtain ⟨hlow, hhigh⟩ := toInt_and_mask v 0xFFFF (by decide)
  have hmask : (0xFFFF : Int32).toInt = 65535 := by decide
  exact Bool.and_eq_true_iff.2 ⟨decide_eq_true hlow, decide_eq_true (hmask ▸ hhigh)⟩

/-- What is cut to the lowest byte is in the range for booleans. -/
theorem inRange_toBoolean (v : Int32) : Descriptor.boolean.inRange (toBoolean v).toInt = true := by
  obtain ⟨hlow, hhigh⟩ := toInt_and_mask v 0xFF (by decide)
  have hmask : (0xFF : Int32).toInt = 255 := by decide
  exact Bool.and_eq_true_iff.2 ⟨decide_eq_true hlow, decide_eq_true (hmask ▸ hhigh)⟩

/-- An accessor cuts an integer down to the range of every type that it accepts. -/
theorem inRange_truncate {kind : AccessKind} {d : Descriptor} (h : kind.accepts d = true) (v : Int32) :
    d.inRange (truncate kind v).toInt = true := by
  -- a narrow type is accepted by its own accessor only
  cases d with
  | byte =>
    cases kind with
    | byte => exact inRange_toByte v
    | _ => cases h
  | short =>
    cases kind with
    | short => exact inRange_toShort v
    | _ => cases h
  | char =>
    cases kind with
    | char => exact inRange_toChar v
    | _ => cases h
  | boolean =>
    cases kind with
    | boolean => exact inRange_toBoolean v
    | _ => cases h
  | int | long | float | double | void | object | array => rfl

/-! ## Values -/

variable {d : Descriptor} {v : Value}

theorem suits_int {n : Int32} (hfits : (Value.int n).fits d = true)
    (hrange : d.inRange n.toInt = true) : (Value.int n).suits d = true := by
  rw [Value.suits, hfits]
  exact hrange

theorem fits_of_suits (h : v.suits d = true) : v.fits d = true := by
  rw [Value.suits, Bool.and_eq_true] at h
  exact h.1

/-- The types that are handled by reference or take two slots have no range to keep to. -/
theorem inRange_of_not_narrow (h : d.isWide = true ∨ d.isReference = true) (n : Int) :
    d.inRange n = true := by
  cases d with
  | byte | short | char | boolean => simp [Descriptor.isWide, Descriptor.isReference] at h
  | int | long | float | double | void | object | array => rfl

/-- What fits a type without a range suits it. -/
theorem suits_of_not_narrow (hfits : v.fits d = true) (h : d.isWide = true ∨ d.isReference = true) :
    v.suits d = true := by
  cases v with
  | int n => exact suits_int hfits (inRange_of_not_narrow h n.toInt)
  | long | object | array =>
    rw [Value.suits, hfits]
    rfl

/-- What an accessor stores suits every type that it accepts. -/
theorem suits_of_readAccess {f : Frame} {h : Heap} {kind : AccessKind} {slot : Slot}
    (hv : f.readAccess h kind slot = .ok v) (haccepts : kind.accepts d = true)
    (hfits : v.fits d = true) : v.suits d = true := by
  cases kind with
  | wide => exact suits_of_not_narrow hfits (.inl haccepts)
  | object => exact suits_of_not_narrow hfits (.inr haccepts)
  -- the integer of the slot has been cut down
  | int | boolean | byte | char | short =>
    obtain ⟨n, _, hv⟩ := bind_eq_ok.1 hv
    obtain rfl := Except.ok.inj hv
    exact suits_int hfits (inRange_truncate haccepts n)

/-- The zero of a type suits it. -/
theorem suits_zeroOf (hd : d ≠ .void) : (Value.zeroOf d).suits d = true := by
  cases d with
  | void => exact absurd rfl hd
  | boolean | byte | short | char | int | long | float | double | object | array => rfl

/-- The value of an element that nobody has written suits its type. -/
theorem suits_defaultValue (s : State) (hd : d ≠ .void) : (s.defaultValue d).2.suits d = true := by
  unfold State.defaultValue
  split
  · next hstring =>
    rw [hstring]
    rfl
  · exact suits_zeroOf hd

end Machine

end Smali
