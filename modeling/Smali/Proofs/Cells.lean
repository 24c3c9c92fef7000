import Mathlib.Algebra.Group.Int.Defs
import Mathlib.Algebra.Group.Nat.Defs
import Smali.Proofs.SlotWrites
import Smali.Proofs.StaticTypes

/-!
# Locations

The values of a run are kept in static fields, in the fields of instances and in the elements of arrays.
`Cell` names one of these locations and `State.cell?` is the value in it. Every operation that stores a value
is seen through this view: it changes one location and no other (`State.Writes`).

What an accessor stores of an integer is given as arithmetic by `AccessKind.reduce`: the remainder modulo the
size of the type, with or without sign. The conversions between integer types come to the same numbers.

## Key results

- `readAccess_eq`: an accessor stores the value of a slot, reduced to its kind
- `convert_reduce`: a conversion reduces in the same way
- `readKind_of_writeKind`: what is written into a frame is read from it again
- `writes_setStatic`, `writes_setField`, `writes_setElement`: what stores change
-/

namespace Smali

/-- What is left of an integer in a location for an accessor of this kind. -/
def AccessKind.reduce : AccessKind → Int → Int
  | .byte, n => n.bmod (2 ^ 8)
  | .short, n => n.bmod (2 ^ 16)
  | .char, n => n % 2 ^ 16
  | .boolean, n => n % 2 ^ 8
  | .int, n | .wide, n | .object, n => n

/-- The conversion to the type that an accessor of this kind is for, if there is one. -/
def AccessKind.conversion? : AccessKind → Option Conversion
  | .byte => some .intToByte
  | .short => some .intToShort
  | .char => some .intToChar
  | .boolean | .int | .wide | .object => none

namespace Machine

/-- What is left of a value in a location for an accessor of this kind. -/
def Value.reduce (kind : AccessKind) : Value → Value
  | .int n => .int (Int32.ofInt (kind.reduce n.toInt))
  | v => v

variable {p : Program} {s s' : State} {f f' : Frame} {kind : AccessKind}

/-! ## Narrow integers -/

/-- The lower bits of an integer are its remainder. -/
theorem toInt_and_ones (v mask : Int32) {bits : Nat} (hbits : bits < 32)
    (hmask : mask.toBitVec.toNat = 2 ^ bits - 1) : (v &&& mask).toInt = v.toInt % 2 ^ bits := by
  have hnat : (v &&& mask).toBitVec.toNat = v.toBitVec.toNat % 2 ^ bits := by
    rw [Int32.toBitVec_and, BitVec.toNat_and, hmask, Nat.and_two_pow_sub_one_eq_mod]
  -- what is left has no sign
  have hsmall : (v &&& mask).toBitVec.toNat < 2 ^ 31 := by
    have hmod := Nat.mod_lt v.toBitVec.toNat (Nat.two_pow_pos bits)
    have hpow : 2 ^ bits ≤ 2 ^ 31 := Nat.pow_le_pow_right (by decide) (by omega)
    omega
  have hleft : (v &&& mask).toInt = ((v &&& mask).toBitVec.toNat : Int) := by
    show (v &&& mask).toBitVec.toInt = _
    rw [BitVec.toInt_eq_toNat_cond, if_pos (by omega)]
  have hright : (v.toBitVec.toNat : Int) = v.toInt % 2 ^ 32 := by
    have hlt := v.toBitVec.isLt
    show _ = v.toBitVec.toInt % 2 ^ 32
    rw [BitVec.toInt_eq_toNat_cond]
    split <;> omega
  have hdvd : (2 : Int) ^ bits ∣ 2 ^ 32 := by
    exact_mod_cast Nat.pow_dvd_pow 2 (show bits ≤ 32 by omega)
  rw [hleft, hnat, Int.natCast_emod, hright, Int.natCast_pow]
  exact Int.emod_emod_of_dvd _ hdvd

/-- An accessor keeps the remainder of an integer. -/
theorem toInt_truncate (kind : AccessKind) (n : Int32) :
    (truncate kind n).toInt = kind.reduce n.toInt := by
  cases kind with
  | byte => simp [truncate, toByte, AccessKind.reduce]
  | short => simp [truncate, toShort, AccessKind.reduce]
  | char => exact toInt_and_ones n 0xFFFF (by decide) (by decide)
  | boolean => exact toInt_and_ones n 0xFF (by decide) (by decide)
  | int | wide | object => rfl

/-- What an accessor keeps is the number with that remainder. -/
theorem truncate_eq (kind : AccessKind) (n : Int32) :
    truncate kind n = Int32.ofInt (kind.reduce n.toInt) := by
  rw [← toInt_truncate, Int32.ofInt_toInt]

/-- The other kinds store a value as it is. -/
theorem reduce_self (hkind : kind = .int ∨ kind = .wide ∨ kind = .object) (v : Value) :
    v.reduce kind = v := by
  cases v with
  | int n =>
    have hsame : kind.reduce n.toInt = n.toInt := by
      rcases hkind with rfl | rfl | rfl <;> rfl
    rw [Value.reduce, hsame, Int32.ofInt_toInt]
  | long | object | array => rfl

/-- An accessor stores the value of a slot, reduced to its kind. -/
theorem readAccess_eq (f : Frame) (h : Heap) (kind : AccessKind) (slot : Slot) :
    f.readAccess h kind slot = Value.reduce kind <$> f.readKind h kind.valueKind slot := by
  -- three kinds take the value as it is, the others are for integers
  have hsame (hkind : kind = .int ∨ kind = .wide ∨ kind = .object) (x : Except Fault Value) :
      Value.reduce kind <$> x = x := by
    cases x with
    | error e => rfl
    | ok v => exact congrArg Except.ok (reduce_self hkind v)
  cases kind with
  | wide => exact (hsame (by decide) _).symm
  | object => exact (hsame (by decide) _).symm
  | int | boolean | byte | char | short =>
    simp only [Frame.readAccess, Frame.readKind, AccessKind.valueKind, truncate_eq]
    cases f.readInt slot <;> rfl

/-- A conversion reduces an integer in the same way as the accessor for its type. -/
theorem convert_reduce {conversion : Conversion} (hkind : kind.conversion? = some conversion)
    {src : Slot} {n : Int32} (hsrc : f.readInt src = .ok n) (dest : Slot) :
    convert f conversion dest src = f.write dest ((Value.int n).reduce kind) := by
  rw [Value.reduce, ← truncate_eq]
  cases kind with
  | byte | short | char =>
    obtain rfl := Option.some.inj hkind
    simp only [convert, hsrc]
    rfl
  | boolean | int | wide | object => cases hkind

/-! ## Slots -/

/-- A 64-bit integer is put together from its halves again. -/
theorem or_halves (x : UInt64) :
    ((x >>> 32).toUInt32.toUInt64 <<< 32) ||| x.toUInt32.toUInt64 = x := by
  have hx : x.toNat < 2 ^ 64 := x.toNat_lt
  have hlow : x.toNat % 2 ^ 32 < 2 ^ 32 := Nat.mod_lt _ (by decide)
  have hhigh : x.toNat / 2 ^ 32 % 2 ^ 32 * 2 ^ 32 < 2 ^ 64 := by omega
  have hshift : (32 : UInt64).toNat % 64 = 32 := by decide
  apply UInt64.toNat_inj.1
  simp only [UInt64.toNat_or, UInt64.toNat_shiftLeft, UInt64.toNat_shiftRight, UInt32.toNat_toUInt64,
    UInt64.toNat_toUInt32, hshift, Nat.shiftRight_eq_div_pow]
  -- the two halves have no bit in common, so they can be added
  rw [Nat.shiftLeft_eq, Nat.mod_eq_of_lt hhigh, ← Nat.shiftLeft_eq,
    ← Nat.shiftLeft_add_eq_or_of_lt hlow, Nat.shiftLeft_eq]
  omega

/-- The halves of a 64-bit value are joined to the value. -/
theorem join_halves (n : Int64) : Value.join (Value.highHalf n) (Value.lowHalf n) = n := by
  simp only [Value.join, Value.highHalf, Value.lowHalf, UInt32.toUInt32_toInt32]
  rw [or_halves]
  rfl

/-- The file that is put into a frame is found there. -/
theorem file_setFile (f : Frame) (slot : Slot) (file : Slots) : (f.setFile slot file).file slot = file := by
  cases slot <;> rfl

/-- A slot with a value can be read. -/
theorem get_of_cells {file : Slots} {index : Nat} {v : Value}
    (h : file.cells[index]? = some (some v)) : file.get index = .ok v := by
  rw [Slots.get, h]

/-- What is written into a slot is read from it. -/
theorem read_of_write {slot : Slot} {v : Value} (h : f.write slot v = .ok f') :
    f'.read slot = .ok v := by
  rw [Frame.write, update_eq] at h
  obtain ⟨file, hfile, rfl⟩ := map_eq_ok.1 h
  obtain ⟨hindex, _, rfl⟩ := Slots.set_ok hfile
  rw [Frame.read, file_setFile]
  exact get_of_cells (Array.getElem?_setIfInBounds_self_of_lt hindex)

/-- What is written into two slots is read from them. -/
theorem readWide_of_writeWide {slot : Slot} {v : Value} (h : f.writeWide slot v = .ok f') :
    f'.readWide slot = .ok v := by
  rw [Frame.writeWide, update_eq] at h
  obtain ⟨file, hfile, rfl⟩ := map_eq_ok.1 h
  obtain ⟨n, rfl, hindex, rfl⟩ := Slots.setWide_ok hfile
  replace hindex : slot.index + 1 < (f.file slot).cells.size := hindex
  rw [Frame.readWide, file_setFile]
  -- both halves are where they were put
  refine bind_eq_ok.2 ⟨.int (Value.highHalf n), get_of_cells ?_, bind_eq_ok.2
    ⟨.int (Value.lowHalf n), get_of_cells ?_, ?_⟩⟩
  · -- the second write is next to the first
    rw [Array.getElem?_setIfInBounds_ne (by omega)]
    exact Array.getElem?_setIfInBounds_self_of_lt (by omega)
  · exact Array.getElem?_setIfInBounds_self_of_lt (by simpa using hindex)
  · show Except.ok (Value.long (Value.join _ _)) = _
    rw [join_halves]

/-- What is written as a value of a kind is read as one. -/
theorem readKind_of_writeKind {h : Heap} {kind : ValueKind} {slot : Slot} {v : Value}
    (hwrite : f.writeKind h kind slot v = .ok f') (h' : Heap) : f'.readKind h' kind slot = .ok v := by
  -- a wide value, an integer, or a reference
  unfold Frame.writeKind at hwrite
  split at hwrite
  · exact readWide_of_writeWide hwrite
  · next n =>
    have hread : f'.readInt slot = .ok n := bind_eq_ok.2 ⟨.int n, read_of_write hwrite, rfl⟩
    exact bind_eq_ok.2 ⟨n, hread, rfl⟩
  · split at hwrite
    · next href => exact bind_eq_ok.2 ⟨v, read_of_write hwrite, if_pos href⟩
    · cases hwrite
  · cases hwrite

/-! ## Locations -/

/-- A location in which a value is kept. -/
inductive Cell where
  | static (classId : Nat) (name : String)
  | field (ref : Nat) (name : String)
  | element (ref index : Nat)
  deriving Repr, DecidableEq, Inhabited

/-- The value of a field of an instance. -/
def Object.field? (o : Object) (name : String) : Option Value :=
  match o.body with
  | .fields fields => fields.get? name
  | .host _ => none

/-- The value in a location. -/
def State.cell? (s : State) : Cell → Option Value
  | .static id name => s.static? id name
  | .field ref name => s.heap.objects[ref]?.bind (·.field? name)
  | .element ref index => s.heap.arrays[ref]?.bind (·.values[index]?)

/-- The states differ in the value of one location and in nothing else: all other locations have the same
values, and objects and arrays to which the location does not belong are the same. -/
structure State.Writes (c : Cell) (v : Value) (s s' : State) : Prop where
  written : s'.cell? c = some v
  others : ∀ c', c' ≠ c → s'.cell? c' = s.cell? c'
  objects : ∀ ref : Nat, (∀ name, c ≠ .field ref name) →
    s'.heap.objects[ref]? = s.heap.objects[ref]?
  arrays : ∀ ref : Nat, (∀ index, c ≠ .element ref index) →
    s'.heap.arrays[ref]? = s.heap.arrays[ref]?
  rest : s' = { s with heap := s'.heap, statics := s'.statics }

/-- A store of a static field changes that field. -/
theorem writes_setStatic (s : State) (id : Nat) (name : String) (v : Value) :
    s.Writes (.static id name) v (s.setStatic id name v) where
  written := by
    rw [State.cell?, static?_setStatic, if_pos ⟨rfl, rfl⟩]
  others c hc := by
    cases c with
    | static id' name' =>
      have hne : ¬ (id' = id ∧ name' = name) := by
        rintro ⟨rfl, rfl⟩
        exact hc rfl
      rw [State.cell?, static?_setStatic, if_neg hne]
      rfl
    | field | element => rfl
  objects _ _ := rfl
  arrays _ _ := rfl
  rest := rfl

/-- Only instances have fields. -/
theorem fields_ok {o : Object} {fields : Table String Value} (h : o.fields = .ok fields) :
    o.body = .fields fields := by
  unfold Object.fields at h
  split at h
  · next hbody => rw [hbody, Except.ok.inj h]
  · cases h

/-- A store of a field of an instance changes that field. -/
theorem writes_setField {ref : Nat} {name : String} {v : Value} {heap : Heap}
    (hset : s.heap.setField ref name v = .ok heap) :
    s.Writes (.field ref name) v { s with heap } := by
  obtain ⟨o, ho, hset⟩ := bind_eq_ok.1 hset
  obtain ⟨fields, hfields, hset⟩ := bind_eq_ok.1 hset
  obtain rfl := Except.ok.inj hset
  have hplace := object_ok ho
  have hlt : ref < s.heap.objects.size := (Array.getElem?_eq_some_iff.1 hplace).1
  refine ⟨?_, fun c hc => ?_, fun ref' hc => ?_, fun _ _ => rfl, rfl⟩
  · simp [State.cell?, Object.field?, hlt]
  · cases c with
    | static | element => rfl
    | field ref' name' =>
      -- another field of the object, or a field of another object
      by_cases href : ref = ref'
      · subst href
        have hne : name' ≠ name := by
          rintro rfl
          exact hc rfl
        rw [State.cell?, State.cell?, hplace]
        dsimp only
        rw [Array.getElem?_setIfInBounds_self_of_lt hlt]
        simp [Object.field?, fields_ok hfields, hne]
      · simp [State.cell?, href]
  · have hne : ref ≠ ref' := by
      rintro rfl
      exact hc name rfl
    exact Array.getElem?_setIfInBounds_ne hne

/-- An index is in range. -/
theorem place_ok {a : ArrayObject} {index : Int} {i : Nat} (h : a.place index = .ok i) :
    (0 ≤ index ∧ index < a.values.size) ∧ i = index.toNat := by
  unfold ArrayObject.place at h
  split at h
  · next hinside => exact ⟨hinside, (Except.ok.inj h).symm⟩
  · cases h

/-- A store of an element changes that element. -/
theorem writes_setElement {ref : Nat} {index : Int} {v : Value} {heap : Heap}
    (hset : s.heap.setElement ref index v = .ok heap) :
    s.Writes (.element ref index.toNat) v { s with heap } := by
  obtain ⟨a, ha, hset⟩ := bind_eq_ok.1 hset
  obtain ⟨i, hi, hset⟩ := bind_eq_ok.1 hset
  obtain rfl := Except.ok.inj hset
  obtain ⟨hinside, rfl⟩ := place_ok hi
  have hplace := array_ok ha
  have hlt : index.toNat < a.values.size := by omega
  refine ⟨?_, fun c hc => ?_, fun _ _ => rfl, fun ref' hc => ?_, rfl⟩
  · simp [State.cell?, Array.getElem?_modify, hplace, hlt]
  · cases c with
    | static | field => rfl
    | element ref' index' =>
      -- another element of the array, or an element of another array
      by_cases href : ref = ref'
      · subst href
        have hne : index.toNat ≠ index' := by
          rintro rfl
          exact hc rfl
        simp [State.cell?, Array.getElem?_modify, hplace, Array.getElem?_setIfInBounds_ne hne]
      · simp [State.cell?, Array.getElem?_modify, href]
  · have hne : ref ≠ ref' := by
      rintro rfl
      exact hc _ rfl
    simp [Array.getElem?_modify, hne]

end Machine

end Smali
