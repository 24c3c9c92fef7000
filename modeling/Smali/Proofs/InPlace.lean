import Smali.Proofs.SlotWrites

/-!
# Instructions performed in place

A frame can also be changed in place, one slot after the other. Then what was written before a failure stays
written: a 64-bit value takes two writes, of which the first might be done and the second fail. It does not
come to that, since the room for both is checked before (`poke_eq`). So an instruction that is performed in
place does the same as one that gives a new frame, and if it fails it leaves the frame as it was.

## Key results

- `poke_eq`: a write in place writes all its slots or none
- `perform_eq`, `performAccess_eq`: so does an instruction
-/

namespace Smali.Machine

/-- A computation that changes a frame in place: what it has written before it fails stays written. -/
abbrev InPlace := EStateM Fault Frame

namespace InPlace

/-- Looks at the frame. -/
def look (x : Frame → Except Fault α) : InPlace α := fun f =>
  match x f with
  | .ok a => .ok a f
  | .error e => .error e f

/-- Writes one slot. -/
def put (slot : Slot) (v : Value) : InPlace Unit := fun f =>
  match f.write slot v with
  | .ok f' => .ok () f'
  | .error e => .error e f

end InPlace

open InPlace

/-- Writes slot by slot. -/
def Write.poke : Write → InPlace Unit
  | nothing => pure ()
  | single slot v => put slot v
  | wide slot v => do
    let halves ← look fun _ => v.split
    look fun f => (f.file slot).checkIndex (slot.index + 1)
    put slot halves.1
    put slot.next halves.2

/-- Executes an instruction in place, up to the set-up of its class. -/
def perform (p : Program) (s : State) (i : Instruction) : InPlace Unit := do
  let w ← look fun f => plan p s f i
  w.poke

/-- Executes the rest of an instruction in place once its class is set up. -/
def performAccess (p : Program) (s : State) (i : Instruction) : InPlace Unit := do
  let w ← look fun f => planAccess p s f i
  w.poke

/-- The frame is replaced as a whole or stays as it was. -/
def allOrNothing (f : Frame) : Except Fault Frame → EStateM.Result Fault Frame Unit
  | .ok f' => .ok () f'
  | .error e => .error e f

theorem look_bind (x : Frame → Except Fault α) (k : α → InPlace Unit) (f : Frame) :
    (look x >>= k) f = match x f with
      | .ok a => k a f
      | .error e => .error e f := by
  simp only [look, bind, EStateM.bind]
  cases x f <;> rfl

/-- A 64-bit value that has room can be written in two steps, the high half first. -/
theorem Slots.set_set {file : Slots} {index : Nat} (hroom : index + 1 < file.size) (n : Int64) :
    ∃ file', file.set index (.int (Value.highHalf n)) = .ok file' ∧
      file'.set (index + 1) (.int (Value.lowHalf n)) = file.setWide index (.long n) := by
  have hfirst : index < file.size := by omega
  have hvariant (v : Int32) : (Value.int v).variant ≠ .long := fun h => by cases h
  refine ⟨⟨file.cells.setIfInBounds index (some (.int (Value.highHalf n)))⟩, ?_, ?_⟩
  · rw [Slots.set, if_pos hfirst, if_neg (hvariant _)]
  · have hsecond : index + 1 <
        (⟨file.cells.setIfInBounds index (some (.int (Value.highHalf n)))⟩ : Slots).size := by
      simpa [Slots.size] using hroom
    rw [Slots.set, if_pos hsecond, if_neg (hvariant _)]
    exact (if_pos hroom).symm

/-- A 64-bit value that has room in a frame can be written in two steps. -/
theorem write_write (f : Frame) (slot : Slot) (n : Int64)
    (hroom : slot.index + 1 < (f.file slot).size) :
    ∃ f', f.write slot (.int (Value.highHalf n)) = .ok f' ∧
      f'.write slot.next (.int (Value.lowHalf n)) = f.writeWide slot (.long n) := by
  obtain ⟨file, hhigh, hlow⟩ := Slots.set_set hroom n
  refine ⟨f.setFile slot file, ?_, ?_⟩
  · rw [Frame.write, update_eq, hhigh]
    rfl
  · rw [Frame.writeWide, update_eq, ← hlow]
    -- the next slot is in the same file
    cases slot with
    | register i => exact update_eq _ (.register (i + 1)) _
    | parameter i => exact update_eq _ (.parameter (i + 1)) _

theorem writeWide_error (f : Frame) (slot : Slot) (n : Int64)
    (hroom : ¬ slot.index + 1 < (f.file slot).size) :
    f.writeWide slot (.long n) = .error (.outOfBounds (slot.index + 1) (f.file slot).size) := by
  rw [Frame.writeWide, update_eq]
  exact congrArg (f.setFile slot <$> ·) (if_neg hroom)

/-- A write in place writes all its slots or none. -/
theorem poke_eq (w : Write) (f : Frame) : w.poke f = allOrNothing f (w.apply f) := by
  cases w with
  | nothing => rfl
  | single slot v =>
    rw [Write.poke, Write.apply, put]
    cases f.write slot v <;> rfl
  | wide slot v =>
    rw [Write.poke, look_bind, Write.apply]
    cases v with
    -- nothing but a 64-bit value is split, and nothing has been written yet
    | int | object | array =>
      rw [Frame.writeWide, update_eq]
      rfl
    | long n =>
      show (look _ >>= _) f = _
      rw [look_bind, Slots.checkIndex]
      by_cases hroom : slot.index + 1 < (f.file slot).size
      · obtain ⟨f', hhigh, hlow⟩ := write_write f slot n hroom
        -- the second write has been checked for, so it does not fail after the first
        obtain ⟨f'', hwide⟩ := writeWide_ok hroom n
        rw [hwide] at hlow ⊢
        rw [if_pos hroom]
        simp only [bind, EStateM.bind, put, hhigh, hlow, allOrNothing]
      · rw [if_neg hroom, writeWide_error f slot n hroom]
        rfl

/-- Performed in place, an instruction that fails leaves the frame as it was. -/
theorem perform_eq (p : Program) (s : State) (i : Instruction) (f : Frame) :
    perform p s i f = allOrNothing f (frameAfter f (exec p s f i).2) := by
  rw [perform, look_bind, exec_plan]
  cases plan p s f i with
  | error e => rfl
  | ok w => exact poke_eq w f

/-- So does the rest of an instruction once its class is set up. -/
theorem performAccess_eq (p : Program) (s : State) (i : Instruction) (f : Frame) :
    performAccess p s i f = allOrNothing f (frameAfter f (access p s f i).2) := by
  rw [performAccess, look_bind, access_plan]
  cases planAccess p s f i with
  | error e => rfl
  | ok w => exact poke_eq w f

end Smali.Machine
