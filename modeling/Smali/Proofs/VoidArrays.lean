import Smali.Proofs.Lines

/-!
# No array of void

No value is of type void, so that an array of it could not be filled. The type cannot be written down
either: a descriptor that is read is no array of void, hence neither is the type of an array that an
instruction of a loaded program makes.

## Key results

- `ne_array_void_of_parse`: no descriptor that is read is an array of void
- `loadProgram_voidless`: no method of a loaded program makes such an array
-/

namespace Smali

/-! ## Descriptors -/

theorem ne_array_void_of_readOne {s rest : List Char} {d : Descriptor}
    (h : Descriptor.readOne s = .ok (d, rest)) : d ≠ .array .void := by
  rintro rfl
  unfold Descriptor.readOne at h
  split at h <;> try cases h
  -- the name of a class
  · split at h <;> cases h
  -- behind the bracket stands an element type, which is looked at
  · split at h
    · cases h
    · next hne _ =>
      obtain ⟨helement, _⟩ := Prod.mk.inj (Except.ok.inj h)
      exact hne (Descriptor.array.inj helement)
    · cases h

/-- No descriptor that is read is an array of void. -/
theorem ne_array_void_of_parse {s : List Char} {d : Descriptor} (h : Descriptor.parse s = .ok d) :
    d ≠ .array .void := by
  unfold Descriptor.parse at h
  split at h
  · next hread =>
    obtain rfl := Except.ok.inj h
    exact ne_array_void_of_readOne hread
  · cases h
  · cases h

/-! ## Instructions -/

/-- Whether the instruction makes an array of void. -/
def Instruction.makesVoidArray : Instruction → Bool
  | .newArray _ _ type => type = .array .void
  | _ => false

/-- The type of an array that an instruction makes was read as a descriptor. -/
theorem parse_of_build {form : Form} {ops : Operands} {dest length : Slot} {type : Descriptor}
    (h : form.build ops = .ok (.newArray dest length type)) : ∃ s, Descriptor.parse s = .ok type := by
  unfold Form.build at h
  -- all forms but one end with an instruction that is seen to be another one
  split at h <;> simp only [Machine.bind_eq_ok, pure, Except.pure, Except.ok.injEq, reduceCtorEq,
    and_false, exists_false] at h
  obtain ⟨_, _, _, _, _, _, type', hread, h⟩ := h
  obtain ⟨_, _, rfl⟩ := Instruction.newArray.inj h
  obtain ⟨token, _, htype⟩ := Operands.read_eq_ok_iff.1 hread
  obtain ⟨text, _, hparse⟩ := Machine.bind_eq_ok.1 htype
  exact ⟨text.toList, hparse⟩

/-- No line is an instruction that makes an array of void. -/
theorem makesVoidArray_of_ofLine {line : List Char} {i : Instruction}
    (h : Instruction.ofLine line = .ok i) : i.makesVoidArray = false := by
  cases i with
  | newArray dest length type =>
    obtain ⟨tokens, _, h⟩ := Instruction.ofLine_eq_ok_iff.1 h
    unfold Instruction.decode at h
    split at h
    · obtain ⟨s, hs⟩ := parse_of_build h
      exact decide_eq_false (ne_array_void_of_parse hs)
    · cases h
  | _ => rfl

/-! ## Programs -/

/-- No instruction makes an array of void. -/
def Code.Voidless (c : Code) : Prop :=
  ∀ i ∈ c.instructions, i.makesVoidArray = false

instance (c : Code) : Decidable c.Voidless :=
  inferInstanceAs (Decidable (∀ i ∈ c.instructions, i.makesVoidArray = false))

theorem voidless_invariant : CodeInvariant Code.Voidless Code.Voidless where
  empty i hi := absurd hi (Array.not_mem_empty i)
  setRegisters _ _ h := h
  addLabel _ _ h := h
  addTable _ _ _ h := h
  addInstruction c line i hi h := by
    intro i' hi'
    cases Array.mem_push.1 hi' with
    | inl hold => exact h i' hold
    | inr hnew => exact hnew ▸ makesVoidArray_of_ofLine hi
  finish _ h _ := h

/-- No method of a program that is loaded from sources makes an array of void. -/
theorem loadProgram_voidless {sources : List String} {p : Program}
    (h : Machine.loadProgram sources = .ok p) {m : Method} (hm : p.HasMethod m) :
    m.CodeAll Code.Voidless :=
  voidless_invariant.loadProgram h hm

end Smali
