import Smali.Proofs.Cells
import Smali.Proofs.InPlace

/-!
# Slot files over time

A slot file is written in place, by single writes and by wide ones, some of which fail. What a slot holds
after any sequence of writes is given by the last one that succeeded and left something there
(`lastWrite?`), so a 64-bit value can be read back from two slots exactly if the last writes left 32-bit
integers in both.

What a write does is said on bits: the halves of a 64-bit number are bits 63 to 32 and bits 31 to 0 of it.
A wide write is two single ones, of which the second cannot fail, since the room for both is checked before
the first (`perform_eq`).

## Key results

- `perform_eq`: a write in place is done as a whole or not at all
- `cells_after`: what is in a slot after a sequence of writes
- `split_eq_ok_iff`: to split and to pair are inverse to each other
- `wide_slots`: 64-bit values in a slot file
-/

namespace Smali.Machine

/-! ## Halves -/

/-- Bits 63 to 32. -/
def upper (n : Int64) : Int32 := Int32.ofBitVec (n.toBitVec.extractLsb' 32 32)

/-- Bits 31 to 0. -/
def lower (n : Int64) : Int32 := Int32.ofBitVec (n.toBitVec.extractLsb' 0 32)

/-- The number with the given bits 63 to 32 and 31 to 0. -/
def ofHalves (high low : Int32) : Int64 := Int64.ofBitVec (high.toBitVec ++ low.toBitVec)

/-- The high half is bits 63 to 32. -/
theorem highHalf_eq (n : Int64) : Value.highHalf n = upper n := by
  apply Int32.toBitVec_inj.1
  apply BitVec.eq_of_getLsbD_eq
  intro i hi
  simp [Value.highHalf, upper]

/-- The low half is bits 31 to 0. -/
theorem lowHalf_eq (n : Int64) : Value.lowHalf n = lower n := by
  apply Int32.toBitVec_inj.1
  apply BitVec.eq_of_getLsbD_eq
  intro i hi
  simp [Value.lowHalf, lower]

/-- The upper half is the first of two halves. -/
theorem upper_ofHalves (high low : Int32) : upper (ofHalves high low) = high :=
  Int32.toBitVec_inj.1 BitVec.extractLsb'_append_eq_left

/-- The lower half is the second of two halves. -/
theorem lower_ofHalves (high low : Int32) : lower (ofHalves high low) = low :=
  Int32.toBitVec_inj.1 BitVec.extractLsb'_append_eq_right

/-- A number is made of its halves. -/
theorem ofHalves_upper_lower (n : Int64) : ofHalves (upper n) (lower n) = n := by
  apply Int64.toBitVec_inj.1
  show n.toBitVec.extractLsb' 32 32 ++ n.toBitVec.extractLsb' 0 32 = n.toBitVec
  rw [BitVec.extractLsb'_append_extractLsb'_eq_extractLsb' (show 32 = 0 + 32 from rfl)]
  exact BitVec.extractLsb'_eq_self

/-- Halves are joined to the number with these bits. -/
theorem join_eq (high low : Int32) : Value.join high low = ofHalves high low := by
  have h := join_halves (ofHalves high low)
  rwa [highHalf_eq, lowHalf_eq, upper_ofHalves, lower_ofHalves] at h

/-- What is split is a 64-bit number, into its halves. -/
theorem split_eq_ok {v high low : Value} :
    v.split = .ok (high, low) ↔ ∃ n, v = .long n ∧ high = .int (upper n) ∧ low = .int (lower n) := by
  cases v with
  | long n =>
    show Except.ok (Value.int (Value.highHalf n), Value.int (Value.lowHalf n)) = _ ↔ _
    rw [highHalf_eq, lowHalf_eq]
    constructor
    · rintro ⟨⟩
      exact ⟨n, rfl, rfl, rfl⟩
    · rintro ⟨m, ⟨⟩, rfl, rfl⟩
      rfl
  -- nothing but a 64-bit number is split
  | int | object | array =>
    constructor
    · intro h
      cases h
    · rintro ⟨n, h, -⟩
      cases h

/-- Only 32-bit integers are taken for such. -/
theorem asInt_eq_ok {v : Value} {n : Int32} : v.asInt = .ok n ↔ v = .int n := by
  cases v <;> simp [Value.asInt, mismatch]

/-- What is paired are two 32-bit numbers, to the number with these halves. -/
theorem pair_eq_ok {v high low : Value} :
    Value.pair high low = .ok v ↔
      ∃ hi lo, high = .int hi ∧ low = .int lo ∧ v = .long (ofHalves hi lo) := by
  constructor
  · intro h
    obtain ⟨hi, hhigh, h⟩ := bind_eq_ok.1 h
    obtain ⟨lo, hlow, h⟩ := bind_eq_ok.1 h
    obtain rfl := asInt_eq_ok.1 hhigh
    obtain rfl := asInt_eq_ok.1 hlow
    exact ⟨hi, lo, rfl, rfl, by rw [← join_eq, ← Except.ok.inj h]⟩
  · rintro ⟨hi, lo, rfl, rfl, rfl⟩
    rw [← join_eq]
    rfl

/-- To split and to pair are inverse to each other. -/
theorem split_eq_ok_iff {v high low : Value} :
    v.split = .ok (high, low) ↔ Value.pair high low = .ok v := by
  rw [split_eq_ok, pair_eq_ok]
  constructor
  · rintro ⟨n, rfl, rfl, rfl⟩
    exact ⟨upper n, lower n, rfl, rfl, by rw [ofHalves_upper_lower]⟩
  · rintro ⟨hi, lo, rfl, rfl, rfl⟩
    exact ⟨ofHalves hi lo, rfl, by rw [upper_ofHalves], by rw [lower_ofHalves]⟩

/-! ## Writes -/

/-- A wide write of a 64-bit number, written out. -/
theorem Slots.setWide_long (file : Slots) (index : Nat) (n : Int64) :
    file.setWide index (.long n) =
      if index + 1 < file.size then
        .ok ⟨(file.cells.setIfInBounds index (some (.int (Value.highHalf n)))).setIfInBounds
          (index + 1) (some (.int (Value.lowHalf n)))⟩
      else .error (.outOfBounds ((index + 1 : Nat) : Int) file.size) :=
  rfl

/-- A write to a slot file. -/
inductive SlotWrite where
  | set (index : Nat) (v : Value)
  | setWide (index : Nat) (v : Value)

/-- A computation on a slot file that is changed in place: what was written before a failure stays
written. -/
abbrev OnSlots := EStateM Fault Slots

namespace OnSlots

/-- Goes on with a result, or fails. -/
def get (x : Except Fault α) : OnSlots α := fun file =>
  match x with
  | .ok a => .ok a file
  | .error e => .error e file

/-- Writes one slot. -/
def put (index : Nat) (v : Value) : OnSlots Unit := fun file =>
  match file.set index v with
  | .ok file' => .ok () file'
  | .error e => .error e file

end OnSlots

namespace SlotWrite

/-- Performs the write in place, slot by slot. -/
def perform : SlotWrite → OnSlots Unit
  | set index v => OnSlots.put index v
  | setWide index v => do
    let halves ← OnSlots.get v.split
    let file ← EStateM.get
    OnSlots.get (file.checkIndex (index + 1))
    OnSlots.put index halves.1
    OnSlots.put (index + 1) halves.2

/-- The new slot file, if the write succeeds. -/
def apply : SlotWrite → Slots → Except Fault Slots
  | set index v, file => file.set index v
  | setWide index v, file => file.setWide index v

/-- Whether a file with so many slots takes the write. -/
def fits (size : Nat) : SlotWrite → Bool
  | set index v => decide (index < size) && v.variant != .long
  | setWide index v => decide (index + 1 < size) && v.variant == .long

/-- What the write leaves in a slot. -/
def leaves? (k : Nat) : SlotWrite → Option Value
  | set index v => if k = index then some v else none
  | setWide index (.long n) =>
    if k = index then some (.int (upper n)) else if k = index + 1 then some (.int (lower n)) else none
  | setWide _ _ => none

/-- A write in place is done as a whole or not at all. -/
theorem perform_eq (w : SlotWrite) (file : Slots) :
    w.perform file = match w.apply file with
      | .ok file' => .ok () file'
      | .error e => .error e file := by
  cases w with
  | set index v => rfl
  | setWide index v =>
    -- without a 64-bit number the write fails before it touches a slot
    cases v with
    | int | object | array => rfl
    | long n =>
      have hsplit : (Value.long n).split =
          .ok (.int (Value.highHalf n), .int (Value.lowHalf n)) := rfl
      have hfile : (EStateM.get : OnSlots Slots) file = .ok file file := rfl
      by_cases hroom : index + 1 < file.size
      · -- with room for both the first write does not take the second away
        obtain ⟨file', hhigh, hlow⟩ := Slots.set_set hroom n
        simp only [perform, apply, bind, EStateM.bind, OnSlots.get, OnSlots.put, hsplit, hfile,
          Slots.checkIndex, if_pos hroom, hhigh, hlow, Slots.setWide_long]
      · simp only [perform, apply, bind, EStateM.bind, OnSlots.get, hsplit, hfile,
          Slots.checkIndex, if_neg hroom, Slots.setWide_long]

/-- A write that succeeds in place leaves the new slot file. -/
theorem perform_eq_ok {w : SlotWrite} {file file' : Slots} :
    w.perform file = .ok () file' ↔ w.apply file = .ok file' := by
  rw [perform_eq]
  cases w.apply file <;> simp

/-- A write that fails changes no slot. -/
theorem perform_eq_error {w : SlotWrite} {file file' : Slots} {e : Fault} :
    w.perform file = .error e file' ↔ w.apply file = .error e ∧ file' = file := by
  rw [perform_eq]
  cases w.apply file <;> simp [eq_comm]

/-- A write succeeds exactly if it fits. -/
theorem apply_eq_ok_iff (w : SlotWrite) (file : Slots) :
    (∃ file', w.apply file = .ok file') ↔ w.fits file.size = true := by
  constructor
  · rintro ⟨file', h⟩
    cases w with
    | set index v =>
      obtain ⟨hindex, hv, -⟩ := Slots.set_ok h
      simp [fits, hindex, hv]
    | setWide index v =>
      obtain ⟨n, rfl, hindex, -⟩ := Slots.setWide_ok h
      simp [fits, hindex, Value.variant]
  -- a write that fits passes the check of the index and that of the value
  · intro h
    cases w with
    | set index v =>
      simp only [fits, Bool.and_eq_true, decide_eq_true_eq, bne_iff_ne] at h
      exact ⟨_, (if_pos h.1).trans (if_neg h.2)⟩
    | setWide index v =>
      simp only [fits, Bool.and_eq_true, decide_eq_true_eq, beq_iff_eq] at h
      cases v with
      | long n => exact ⟨_, (Slots.setWide_long ..).trans (if_pos h.1)⟩
      | int | object | array => cases h.2

/-- What is in the slots after a write that succeeds. -/
theorem cells_apply {w : SlotWrite} {file file' : Slots} (h : w.apply file = .ok file') (k : Nat) :
    file'.cells[k]? = file.cells[k]?.map fun old => (w.leaves? k).or old := by
  cases w with
  | set index v =>
    obtain ⟨hindex, -, rfl⟩ := Slots.set_ok h
    simp only [leaves?]
    grind [Slots.size]
  | setWide index v =>
    obtain ⟨n, rfl, hindex, rfl⟩ := Slots.setWide_ok h
    simp only [leaves?, highHalf_eq, lowHalf_eq]
    grind [Slots.size]

end SlotWrite

/-! ## Sequences of writes -/

/-- The slots that a computation leaves, whether it fails or not. -/
def slotsOf : EStateM.Result Fault Slots α → Slots
  | .ok _ file => file
  | .error _ file => file

/-- The slot file after a sequence of writes. -/
def Slots.after (file : Slots) (writes : List SlotWrite) : Slots :=
  writes.foldl (fun file w => slotsOf (w.perform file)) file

/-- What the last write that succeeded and left something in a slot left there, in a file with so many
slots. -/
def lastWrite? (size k : Nat) (writes : List SlotWrite) : Option Value :=
  (writes.reverse.filter (·.fits size)).findSome? (·.leaves? k)

/-- A write changes a slot if it fits and leaves something there. -/
theorem cells_perform (w : SlotWrite) (file : Slots) (k : Nat) :
    (slotsOf (w.perform file)).cells[k]? =
      file.cells[k]?.map fun old => (lastWrite? file.size k [w]).or old := by
  -- a write that fails does not fit, so it does not count as the last one
  cases h : w.apply file with
  | ok file' =>
    have hfits : w.fits file.size = true := (w.apply_eq_ok_iff file).1 ⟨file', h⟩
    rw [SlotWrite.perform_eq_ok.2 h, slotsOf, SlotWrite.cells_apply h k]
    simp [lastWrite?, hfits]
  | error e =>
    have hfits : w.fits file.size = false := by
      rw [Bool.eq_false_iff, Ne, ← w.apply_eq_ok_iff file]
      rintro ⟨file', h'⟩
      cases h.symm.trans h'
    rw [SlotWrite.perform_eq_error.2 ⟨h, rfl⟩, slotsOf]
    simp [lastWrite?, hfits]

/-- A write keeps the number of slots. -/
theorem size_perform (w : SlotWrite) (file : Slots) : (slotsOf (w.perform file)).size = file.size := by
  cases h : w.apply file with
  | ok file' =>
    rw [SlotWrite.perform_eq_ok.2 h, slotsOf]
    cases w with
    | set index v => exact Slots.size_set h
    | setWide index v => exact Slots.size_setWide h
  | error e => rw [SlotWrite.perform_eq_error.2 ⟨h, rfl⟩, slotsOf]

/-- Later writes come before earlier ones. -/
theorem lastWrite?_cons (size k : Nat) (w : SlotWrite) (writes : List SlotWrite) :
    lastWrite? size k (w :: writes) = (lastWrite? size k writes).or (lastWrite? size k [w]) := by
  simp [lastWrite?, List.filter_append, List.findSome?_append]

/-- What is in a slot after a sequence of writes: what the last of them left there, or else what was there
before. -/
theorem cells_after (writes : List SlotWrite) (file : Slots) (k : Nat) :
    (file.after writes).cells[k]? =
      file.cells[k]?.map fun old => (lastWrite? file.size k writes).or old := by
  -- the induction is on the writes, the first of which gives the file for the rest
  induction writes generalizing file with
  | nil => simp [Slots.after, lastWrite?]
  | cons w writes ih =>
    have hstep := ih (slotsOf (w.perform file))
    rw [cells_perform, size_perform, Option.map_map] at hstep
    rw [show file.after (w :: writes) = (slotsOf (w.perform file)).after writes from rfl, hstep,
      lastWrite?_cons _ _ w writes]
    simp only [Function.comp_def, Option.or_assoc]

/-- What is in a register after a sequence of writes. -/
theorem cells_registers_after (count : Nat) (writes : List SlotWrite) (k : Nat) :
    ((Slots.registers count).after writes).cells[k]? =
      if k < max count 1 then some (lastWrite? (max count 1) k writes) else none := by
  have hsize : (Slots.registers count).size = max count 1 := Array.size_replicate
  rw [cells_after, hsize, Slots.registers, Array.getElem?_replicate]
  split <;> simp

/-- What is read from a slot is what it holds. -/
theorem get_eq_ok {file : Slots} {k : Nat} {v : Value} :
    file.get k = .ok v ↔ file.cells[k]? = some (some v) := by
  refine ⟨fun h => ?_, get_of_cells⟩
  unfold Slots.get at h
  split at h
  · next hcell =>
    obtain rfl := Except.ok.inj h
    exact hcell
  · cases h
  · cases h

/-- A 64-bit value is read from two slots that hold 32-bit integers. -/
theorem getWide_eq_ok {file : Slots} {k : Nat} {v : Value} :
    file.getWide k = .ok v ↔ ∃ hi lo, file.cells[k]? = some (some (.int hi)) ∧
      file.cells[k + 1]? = some (some (.int lo)) ∧ v = .long (ofHalves hi lo) := by
  constructor
  · intro h
    obtain ⟨high, hhigh, h⟩ := bind_eq_ok.1 h
    obtain ⟨low, hlow, h⟩ := bind_eq_ok.1 h
    obtain ⟨hi, lo, rfl, rfl, rfl⟩ := pair_eq_ok.1 h
    exact ⟨hi, lo, get_eq_ok.1 hhigh, get_eq_ok.1 hlow, rfl⟩
  · rintro ⟨hi, lo, hhigh, hlow, rfl⟩
    exact bind_eq_ok.2 ⟨_, get_eq_ok.2 hhigh, bind_eq_ok.2
      ⟨_, get_eq_ok.2 hlow, pair_eq_ok.2 ⟨hi, lo, rfl, rfl, rfl⟩⟩⟩

/-! ## Single writes in a sequence -/

/-- A slot in which a write leaves nothing stays as it is. -/
theorem cells_of_perform {w : SlotWrite} {file file' : Slots} (h : w.perform file = .ok () file')
    {k : Nat} (hk : w.leaves? k = none) : file'.cells[k]? = file.cells[k]? := by
  rw [SlotWrite.cells_apply (SlotWrite.perform_eq_ok.1 h), hk]
  simp

/-- What a write leaves in a slot is found there. -/
theorem get_of_perform {w : SlotWrite} {file file' : Slots} (h : w.perform file = .ok () file')
    {k : Nat} {v : Value} (hk : w.leaves? k = some v) : file'.get k = .ok v := by
  have happly := SlotWrite.perform_eq_ok.1 h
  -- a write leaves something only in slots that are there
  have hinside : k < file.cells.size := by
    cases w with
    | set index u =>
      obtain ⟨hindex, -⟩ := Slots.set_ok happly
      grind [SlotWrite.leaves?, Slots.size]
    | setWide index u =>
      obtain ⟨n, rfl, hindex, -⟩ := Slots.setWide_ok happly
      grind [SlotWrite.leaves?, Slots.size]
  rw [get_eq_ok, SlotWrite.cells_apply happly, hk, Array.getElem?_eq_getElem hinside]
  simp

/-- What was in a slot in which a write leaves nothing is found there after it. -/
theorem get_of_perform_none {w : SlotWrite} {file file' : Slots} (h : w.perform file = .ok () file')
    {k : Nat} {v : Value} (hk : w.leaves? k = none) (hv : file.get k = .ok v) :
    file'.get k = .ok v := by
  rw [get_eq_ok] at hv ⊢
  rw [cells_of_perform h hk, hv]

/-- A wide write fails exactly if the value is none of 64 bits or has no room. -/
theorem setWide_fails_iff (file : Slots) (i : Nat) (v : Value) :
    (∃ e file', (SlotWrite.setWide i v).perform file = .error e file') ↔
      v.variant ≠ .long ∨ file.size ≤ i + 1 := by
  have hok := SlotWrite.apply_eq_ok_iff (.setWide i v) file
  simp only [SlotWrite.fits, Bool.and_eq_true, decide_eq_true_eq, beq_iff_eq] at hok
  rw [SlotWrite.perform_eq]
  cases h : (SlotWrite.setWide i v).apply file with
  | ok file' =>
    have hfits := hok.1 ⟨file', h⟩
    simp only [reduceCtorEq, exists_const, false_iff]
    rintro (hv | hsize)
    · exact hv hfits.2
    · omega
  | error e =>
    simp only [EStateM.Result.error.injEq, exists_and_left, exists_eq', and_true, true_iff]
    -- with a 64-bit number and room for it the write would succeed
    by_contra hneither
    rw [not_or, Decidable.not_not, Nat.not_le] at hneither
    obtain ⟨file', h'⟩ := hok.2 ⟨hneither.2, hneither.1⟩
    cases h.symm.trans h'

/-- When a 64-bit value is read from registers, after any sequence of writes. -/
theorem getWide_after_iff (count : Nat) (writes : List SlotWrite) (i : Nat) (v : Value) :
    ((Slots.registers count).after writes).getWide i = .ok v ↔
      i + 1 < max count 1 ∧ ∃ hi lo, lastWrite? (max count 1) i writes = some (.int hi) ∧
        lastWrite? (max count 1) (i + 1) writes = some (.int lo) ∧ v = .long (ofHalves hi lo) := by
  rw [getWide_eq_ok]
  simp only [cells_registers_after]
  constructor
  -- the second slot is there, so the first is too
  · rintro ⟨hi, lo, hhigh, hlow, rfl⟩
    obtain ⟨hroom, hlow⟩ := Option.ite_none_right_eq_some.1 hlow
    obtain ⟨-, hhigh⟩ := Option.ite_none_right_eq_some.1 hhigh
    exact ⟨hroom, hi, lo, Option.some.inj hhigh, Option.some.inj hlow, rfl⟩
  · rintro ⟨hroom, hi, lo, hhigh, hlow, rfl⟩
    refine ⟨hi, lo, ?_, ?_, rfl⟩
    · rw [if_pos (by omega), hhigh]
    · rw [if_pos hroom, hlow]

/-- The two halves that a wide write leaves. -/
theorem halves_of_perform {file file' : Slots} {i : Nat} {v : Value}
    (h : (SlotWrite.setWide i v).perform file = .ok () file') :
    ∃ n, v = .long n ∧ file'.get i = .ok (.int (upper n)) ∧
      file'.get (i + 1) = .ok (.int (lower n)) := by
  obtain ⟨n, rfl, -⟩ := Slots.setWide_ok (SlotWrite.perform_eq_ok.1 h)
  exact ⟨n, rfl, get_of_perform h (by simp [SlotWrite.leaves?]),
    get_of_perform h (by simp [SlotWrite.leaves?])⟩

/-- 64-bit values in a slot file.
- After any sequence of writes to fresh registers a 64-bit value is read from two slots exactly if the last
  writes that succeeded left 32-bit integers there, and these are its halves.
- A wide write fails exactly if the value is none of 64 bits or has no room, and a write that fails changes
  no slot.
- A wide write that succeeds changes two slots and is read back from them; a later write to one of the two,
  single or wide, replaces one half and keeps the other.
- To split and to pair are inverse to each other. -/
theorem wide_slots (count : Nat) (writes : List SlotWrite) (i : Nat) :
    (∀ w file, (∃ file', SlotWrite.perform w file = .ok () file') ↔ w.fits file.size = true) ∧
    (∀ v, ((Slots.registers count).after writes).getWide i = .ok v ↔
      i + 1 < max count 1 ∧ ∃ hi lo, lastWrite? (max count 1) i writes = some (.int hi) ∧
        lastWrite? (max count 1) (i + 1) writes = some (.int lo) ∧ v = .long (ofHalves hi lo)) ∧
    (∀ file v, (∃ e file', (SlotWrite.setWide i v).perform file = .error e file') ↔
      v.variant ≠ .long ∨ file.size ≤ i + 1) ∧
    (∀ w file e file', SlotWrite.perform w file = .error e file' → file' = file) ∧
    (∀ file v file', (SlotWrite.setWide i v).perform file = .ok () file' →
      file'.getWide i = .ok v ∧
      (∀ k, k ≠ i → k ≠ i + 1 → file'.cells[k]? = file.cells[k]?) ∧
      ∃ n, v = .long n ∧
        (∀ u t, (SlotWrite.set i u).perform file' = .ok () t →
          t.get i = .ok u ∧ t.get (i + 1) = .ok (.int (lower n))) ∧
        (∀ u t, (SlotWrite.set (i + 1) u).perform file' = .ok () t →
          t.get i = .ok (.int (upper n)) ∧ t.get (i + 1) = .ok u) ∧
        (∀ j m t, j + 1 = i → (SlotWrite.setWide j (.long m)).perform file' = .ok () t →
          t.get i = .ok (.int (lower m)) ∧ t.get (i + 1) = .ok (.int (lower n))) ∧
        ∀ m t, (SlotWrite.setWide (i + 1) (.long m)).perform file' = .ok () t →
          t.get i = .ok (.int (upper n)) ∧ t.get (i + 1) = .ok (.int (upper m))) ∧
    (∀ v high low, Value.split v = .ok (high, low) ↔ Value.pair high low = .ok v) ∧
    (∀ n, ∃ hi lo, Value.split (.long n) = .ok (.int hi, .int lo)) ∧
    ∀ hi lo, ∃ n, Value.pair (.int hi) (.int lo) = .ok (.long n) := by
  refine ⟨fun w file => ?_, getWide_after_iff count writes i, fun file => setWide_fails_iff file i,
    fun w file e file' h => (SlotWrite.perform_eq_error.1 h).2, fun file v file' h => ?_,
    fun v high low => split_eq_ok_iff, fun n => ⟨_, _, split_eq_ok.2 ⟨n, rfl, rfl, rfl⟩⟩,
    fun hi lo => ⟨_, pair_eq_ok.2 ⟨hi, lo, rfl, rfl, rfl⟩⟩⟩
  · rw [← w.apply_eq_ok_iff file]
    exact exists_congr fun file' => SlotWrite.perform_eq_ok
  · obtain ⟨n, rfl, hhigh, hlow⟩ := halves_of_perform h
    -- what a later write leaves in one of the two slots is read there, and the other is as it was
    refine ⟨?_, fun k hk hk' => cells_of_perform h (by simp [SlotWrite.leaves?, hk, hk']), n, rfl,
      fun u t ht => ⟨?_, ?_⟩, fun u t ht => ⟨?_, ?_⟩, ?_, fun m t ht => ⟨?_, ?_⟩⟩
    · refine getWide_eq_ok.2 ⟨upper n, lower n, get_eq_ok.1 hhigh, get_eq_ok.1 hlow, ?_⟩
      rw [ofHalves_upper_lower]
    · exact get_of_perform ht (by simp [SlotWrite.leaves?])
    · exact get_of_perform_none ht (by simp [SlotWrite.leaves?]) hlow
    · exact get_of_perform_none ht (by simp [SlotWrite.leaves?]) hhigh
    · exact get_of_perform ht (by simp [SlotWrite.leaves?])
    · rintro j m t rfl ht
      exact ⟨get_of_perform ht (by simp [SlotWrite.leaves?]),
        get_of_perform_none ht (by simp [SlotWrite.leaves?]; omega) hlow⟩
    · exact get_of_perform_none ht (by simp [SlotWrite.leaves?]; omega) hhigh
    · exact get_of_perform ht (by simp [SlotWrite.leaves?])

end Smali.Machine
