import Smali.Proofs.Faults
import Smali.Proofs.Walks

/-!
# Where a run goes on after an instruction

An instruction leaves the method, the code and the place of its frame alone: only slots change
(`SlotsOnly`). So the flow that it gives is one of a few kinds, each tied to the program: a jump goes to a
place that a label named by the instruction stands for, a call is made by an instruction for calls and is to
a method of a class of the program, a call ends with a value exactly if its method is not void, a class is
asked for by an instruction that names a field of it. `Continues` lists these kinds; every later statement
about runs starts from it and does not look into the instructions again.

## Key results

- `exec_continues`: the flow of an instruction is of one of the kinds
- `access_resumes`: the second half of a field access goes on with the next instruction
- `plain_exec`: an instruction whose names are defined never fails for want of a label
- `plain_access`: the second half of a field access never does
-/

namespace Smali

/-- A method of a class of the program. -/
def Program.HasMethod (p : Program) (m : Method) : Prop :=
  ∃ c ∈ p.classes, m ∈ c.methods

/-- A field of a class of the program. -/
def Program.HasField (p : Program) (c : LoadedClass) (f : Field) : Prop :=
  c ∈ p.classes ∧ f ∈ c.fields.values

/-- The class that an instruction needs to touch a field. -/
def Instruction.fieldClass? : Instruction → Option String
  | .staticGet _ _ id | .staticPut _ _ id | .instanceGet _ _ _ id | .instancePut _ _ _ id =>
    some id.className
  | _ => none

/-- Whether the instruction makes a call. -/
def Instruction.isInvoke : Instruction → Bool
  | .invoke _ _ _ => true
  | _ => false

/-- The instruction names the label: it may jump there, at once or through its switch table. -/
def Code.Names (c : Code) (i : Instruction) (label : String) : Prop :=
  i.branchLabel? = some label ∨
    ∃ src table t, i = .packedSwitch src table ∧ c.switchTables.get? table = some t ∧ label ∈ t.labels

/-- The code of a method has the property, if there is any. -/
def Method.CodeAll (G : Code → Prop) (m : Method) : Prop :=
  ∀ code, m.body = .code code → G code

instance (G : Code → Prop) [DecidablePred G] (m : Method) : Decidable (m.CodeAll G) :=
  match h : m.body with
  | .code code => decidable_of_iff (G code) (by simp [Method.CodeAll, h])
  | .native => .isTrue (by simp [Method.CodeAll, h])

namespace Machine

/-! ## Successful sequences -/

/-- A sequence succeeds exactly if both of its halves do. -/
theorem bind_eq_ok {x : Except ε α} {k : α → Except ε β} {b : β} :
    (x >>= k) = .ok b ↔ ∃ a, x = .ok a ∧ k a = .ok b := by
  cases x <;> simp [bind, Except.bind]

/-- A mapped computation succeeds exactly if the computation does. -/
theorem map_eq_ok {g : α → β} {x : Except ε α} {b : β} :
    g <$> x = .ok b ↔ ∃ a, x = .ok a ∧ g a = b := by
  cases x <;> simp [Functor.map, Except.map]

/-! ## Frames in which only slots change -/

/-- The computation, if it succeeds, changes nothing of the frame but its slots. -/
def SlotsOnly (f : Frame) (x : Except Fault Frame) : Prop :=
  ∀ f', x = .ok f' → f'.method = f.method ∧ f'.code = f.code ∧ f'.pc = f.pc

/-- A failure leaves no frame behind. -/
@[simp] theorem slotsOnly_error (f : Frame) (e : Fault) : SlotsOnly f (.error e) := by
  intro f' h
  cases h

/-- A mismatch leaves no frame behind. -/
@[simp] theorem slotsOnly_mismatch (f : Frame) (cause : Mismatch) : SlotsOnly f (mismatch cause) :=
  slotsOnly_error f _

/-- What comes first in a sequence gives no frame, so only the rest counts. -/
@[simp] theorem slotsOnly_bind (f : Frame) (x : Except Fault α) (k : α → Except Fault Frame) :
    SlotsOnly f (x >>= k) ↔ ∀ a, x = .ok a → SlotsOnly f (k a) := by
  cases x <;> simp [SlotsOnly, bind, Except.bind]

/-- A choice changes only slots if both of its branches do. -/
@[simp] theorem slotsOnly_ite (f : Frame) (c : Prop) [Decidable c] (x y : Except Fault Frame) :
    SlotsOnly f (if c then x else y) ↔ (c → SlotsOnly f x) ∧ (¬c → SlotsOnly f y) := by
  by_cases h : c <;> simp [h]

/-- Changing the registers or the parameters keeps the method, the code and the place. -/
theorem slotsOnly_update (f : Frame) (slot : Slot) (change : Slots → Except Fault Slots) :
    SlotsOnly f (f.update slot change) := by
  intro f' h
  cases slot with
  | register _ =>
    obtain ⟨_, _, h⟩ := bind_eq_ok.1 h
    obtain rfl := Except.ok.inj h
    exact ⟨rfl, rfl, rfl⟩
  | parameter _ =>
    obtain ⟨_, _, h⟩ := bind_eq_ok.1 h
    obtain rfl := Except.ok.inj h
    exact ⟨rfl, rfl, rfl⟩

/-- Writing a slot changes only slots. -/
@[simp] theorem slotsOnly_write (f : Frame) (slot : Slot) (v : Value) :
    SlotsOnly f (f.write slot v) :=
  slotsOnly_update f slot _

/-- Writing a pair of slots changes only slots. -/
@[simp] theorem slotsOnly_writeWide (f : Frame) (slot : Slot) (v : Value) :
    SlotsOnly f (f.writeWide slot v) :=
  slotsOnly_update f slot _

/-- Writing a value of a kind changes only slots. -/
@[simp] theorem slotsOnly_writeKind (f : Frame) (h : Heap) (kind : ValueKind) (slot : Slot)
    (v : Value) : SlotsOnly f (f.writeKind h kind slot v) := by
  cases kind <;> cases v <;> simp [Frame.writeKind]

/-- Writing an integer of a width changes only slots. -/
@[simp] theorem slotsOnly_writeWidth (f : Frame) (width : Width) (slot : Slot) (v : Int64) :
    SlotsOnly f (f.writeWidth width slot v) := by
  cases width <;> simp [Frame.writeWidth]

/-- A conversion changes only slots. -/
@[simp] theorem slotsOnly_convert (f : Frame) (conversion : Conversion) (dest src : Slot) :
    SlotsOnly f (convert f conversion dest src) := by
  cases conversion <;> simp [convert]

/-- An operation on integers changes only slots. -/
@[simp] theorem slotsOnly_integerOperation (f : Frame) (op : BinaryOp) (sig : Signature)
    (dest lhs : Slot) (rhs : Operand) : SlotsOnly f (integerOperation f op sig dest lhs rhs) := by
  cases rhs <;> simp [integerOperation]

/-- An operation on doubles changes only slots. -/
@[simp] theorem slotsOnly_doubleOperation (f : Frame) (op : BinaryOp) (dest lhs rhs : Slot) :
    SlotsOnly f (doubleOperation f op dest lhs rhs) := by
  cases op <;> simp [doubleOperation]

/-- A comparison of doubles changes only slots. -/
@[simp] theorem slotsOnly_compareDoubles (f : Frame) (dest a b : Slot) :
    SlotsOnly f (compareDoubles f dest a b) := by
  simp [compareDoubles]

/-- Reading an element of an array changes only slots. -/
@[simp] theorem slotsOnly_arrayGet (h : Heap) (f : Frame) (kind : AccessKind)
    (dest array index : Slot) : SlotsOnly f (arrayGet h f kind dest array index) := by
  simp [arrayGet]

/-- Reading a static field changes only slots. -/
@[simp] theorem slotsOnly_staticGet (p : Program) (s : State) (f : Frame) (kind : AccessKind)
    (dest : Slot) (id : FieldId) : SlotsOnly f (staticGet p s f kind dest id) := by
  simp only [staticGet, slotsOnly_bind]
  intro place _
  split <;> simp

/-! ## What is found in the program -/

/-- The method that is selected in a class is one of its methods. -/
theorem mem_of_selectMethod? {c : Class} {id : MethodId} {static : Bool} {m : Method}
    (h : selectMethod? c id static = some m) : m ∈ c.methods := by
  unfold selectMethod? at h
  split at h
  · cases h
  -- a single candidate is in the filtered list, and so in the list
  · next m' hm =>
    obtain rfl := Option.some.inj h
    have hmem : m' ∈ c.methods.filter _ := hm ▸ List.mem_singleton_self m'
    exact (List.mem_filter.1 hmem).1
  · exact (List.mem_filter.1 (List.mem_of_find?_eq_some h)).1

/-- The target of a static or direct call is a method of the program. -/
theorem hasMethod_of_lookupDeclared {p : Program} {id : MethodId} {static : Bool} {m : Method}
    (h : lookupDeclared p id static = .ok m) : p.HasMethod m := by
  obtain ⟨c, hc, h⟩ := bind_eq_ok.1 h
  split at h
  · next m' hm =>
    obtain rfl := Except.ok.inj h
    exact ⟨c, mem_of_findClass hc, mem_of_selectMethod? hm⟩
  · cases h

/-- What a walk up the superclass links finds, it finds in a class of the program. -/
theorem searchUp_found {p : Program} {pick : LoadedClass → Option α} {steps : Nat} {c : LoadedClass}
    {a : α} (hc : c ∈ p.classes) (h : searchUp p pick steps c = .found (some a)) :
    ∃ c' ∈ p.classes, pick c' = some a := by
  -- the induction is on the links that may still be followed; the class in hand stays in the program
  induction steps generalizing c with
  | zero => cases h
  | succ steps ih =>
    unfold searchUp at h
    split at h
    · next a' ha =>
      obtain rfl := Option.some.inj (Search.found.inj h)
      exact ⟨c, hc, ha⟩
    · split at h
      · next above habove =>
        -- a link goes to a place in the array of classes
        have hmem : above ∈ p.classes := by
          unfold superclass? at habove
          split at habove
          · exact Array.mem_of_getElem? (Except.ok.inj habove)
          · cases habove
          · cases Except.ok.inj habove
        exact ih hmem h
      · cases Search.found.inj h
      · cases h

/-- The target of a virtual call is a method of the program. -/
theorem hasMethod_of_lookupVirtual {p : Program} {runtimeClass : String} {id : MethodId} {m : Method}
    (h : lookupVirtual p runtimeClass id = .found m) : p.HasMethod m := by
  unfold lookupVirtual at h
  split at h
  · cases h
  · cases h
  -- only a walk that starts and finds something gives a method
  · next c _ hc =>
    split at h
    · next m' hm =>
      obtain rfl := Search.found.inj h
      obtain ⟨c', hc', hpick⟩ := searchUp_found (mem_of_findClass hc) hm
      exact ⟨c', hc', mem_of_selectMethod? hpick⟩
    · cases h
    · cases h
    · cases h

/-- The static field that is found is declared by the named class itself. -/
theorem lookupStaticField_ok {p : Program} {id : FieldId} {c : LoadedClass} {f : Field}
    (h : lookupStaticField p id = .ok (c, f)) :
    findClass p id.className = .ok c ∧ c.fields.get? id.name = some f ∧ f.isStatic = true := by
  obtain ⟨c', hc, h⟩ := bind_eq_ok.1 h
  split at h
  · next f' hf =>
    obtain ⟨rfl, rfl⟩ := Prod.mk.inj (Except.ok.inj h)
    -- the lookup filters what it finds by the static flag
    obtain ⟨hf, hs⟩ := Option.filter_eq_some_iff.1 hf
    exact ⟨hc, hf, hs⟩
  · cases h

/-- The static field that is found is a static field of the program. -/
theorem hasField_of_lookupStaticField {p : Program} {id : FieldId} {c : LoadedClass} {f : Field}
    (h : lookupStaticField p id = .ok (c, f)) : p.HasField c f ∧ f.isStatic = true := by
  obtain ⟨hc, hf, hs⟩ := lookupStaticField_ok h
  exact ⟨⟨mem_of_findClass hc, Table.mem_values_of_get? hf⟩, hs⟩

/-! ## The kinds of flow -/

/-- How a run may go on after an instruction of a frame. -/
inductive Continues (p : Program) (f : Frame) (i : Instruction) : Flow → Prop
  | next (f' : Frame) (hm : f'.method = f.method) (hc : f'.code = f.code) (hpc : f'.pc = f.pc) :
    Continues p f i (.next f')
  | jump (label : String) (pc : Nat) (hn : f.code.Names i label)
    (h : f.code.labels.get? label = some pc) : Continues p f i (.jump f pc)
  | leave (value? : Option Value) (h : value?.isSome = true ↔ f.method.returnType ≠ .void) :
    Continues p f i (.leave value?)
  | call (m : Method) (receiver? : Option Value) (args : List Value) (h : p.HasMethod m)
    (hi : i.isInvoke = true) : Continues p f i (.call f m receiver? args)
  | needClass (className : String) (h : i.fieldClass? = some className) :
    Continues p f i (.needClass f className)
  | endless (h : ¬ p.Acyclic) : Continues p f i .endless

/-- How a run may go on after the second half of a field access. -/
inductive Resumes (p : Program) (f : Frame) : Flow → Prop
  | next (f' : Frame) (hm : f'.method = f.method) (hc : f'.code = f.code) (hpc : f'.pc = f.pc) :
    Resumes p f (.next f')
  | endless (h : ¬ p.Acyclic) : Resumes p f .endless

/-- What may follow the second half of a field access may follow any instruction. -/
theorem Resumes.continues {p : Program} {f : Frame} {flow : Flow} (h : Resumes p f flow)
    (i : Instruction) : Continues p f i flow := by
  cases h with
  | next f' hm hc hpc => exact .next f' hm hc hpc
  | endless h => exact .endless h

variable {p : Program} {s : State} {f : Frame} {i : Instruction} {flow : Flow}

/-- A computation that changes only slots is followed by the next instruction. -/
theorem resumes_of_proceed {x : Except Fault Frame} (hx : SlotsOnly f x)
    (h : (proceed s x).2 = .ok flow) : Resumes p f flow := by
  obtain ⟨f', hf', rfl⟩ := map_eq_ok.1 h
  obtain ⟨hm, hc, hpc⟩ := hx f' hf'
  exact .next f' hm hc hpc

/-- `resumes_of_proceed`, for an instruction as a whole. -/
theorem continues_of_proceed {x : Except Fault Frame} (hx : SlotsOnly f x)
    (h : (proceed s x).2 = .ok flow) : Continues p f i flow :=
  (resumes_of_proceed hx h).continues i

/-- An attempt goes on only if its fallible part succeeds. -/
theorem attempt_ok {r : Except Fault α} {k : α → State × Except Fault Flow}
    (h : (attempt s r k).2 = .ok flow) : ∃ a, r = .ok a ∧ (k a).2 = .ok flow := by
  cases r with
  | error e => cases h
  | ok a => exact ⟨a, rfl, h⟩

/-- Going on with the frame as it is. -/
theorem resumes_next (h : (Except.ok (.next f) : Except Fault Flow) = .ok flow) :
    Resumes p f flow := by
  obtain rfl := Except.ok.inj h
  exact .next f rfl rfl rfl

/-- `resumes_next`, for an instruction as a whole. -/
theorem continues_next (h : (Except.ok (.next f) : Except Fault Flow) = .ok flow) :
    Continues p f i flow :=
  (resumes_next h).continues i

/-- The target of a jump is the place that its label stands for. -/
theorem target_ok {label : String} {pc : Nat} (h : f.target label = .ok pc) :
    f.code.labels.get? label = some pc := by
  unfold Frame.target at h
  split at h
  · next pc' hpc =>
    obtain rfl := Except.ok.inj h
    exact hpc
  · cases h

/-- A branch jumps to the label that its instruction names, or goes on. -/
theorem continues_of_branch {taken : Bool} {label : String} (hi : i.branchLabel? = some label)
    (h : branch f taken label = .ok flow) : Continues p f i flow := by
  unfold branch at h
  split at h
  · obtain ⟨pc, hpc, h⟩ := bind_eq_ok.1 h
    obtain rfl := Except.ok.inj h
    exact .jump label pc (.inl hi) (target_ok hpc)
  · exact continues_next h

/-- A branch on one value jumps to the label that it names, or goes on. -/
theorem continues_of_branchZero {heap : Heap} {cmp : Comparison} {src : Slot} {label : String}
    (hi : i.branchLabel? = some label) (h : branchZero heap f cmp src label = .ok flow) :
    Continues p f i flow := by
  obtain ⟨v, _, h⟩ := bind_eq_ok.1 h
  split at h
  -- integers are compared with zero, references can only be tested for equality
  · exact continues_of_branch hi h
  · split at h
    · exact continues_of_branch hi h
    · cases h

/-- A branch on two values jumps to the label that it names, or goes on. -/
theorem continues_of_branchTest {heap : Heap} {cmp : Comparison} {a b : Slot} {label : String}
    (hi : i.branchLabel? = some label) (h : branchTest heap f cmp a b label = .ok flow) :
    Continues p f i flow := by
  obtain ⟨x, _, h⟩ := bind_eq_ok.1 h
  obtain ⟨y, _, h⟩ := bind_eq_ok.1 h
  split at h
  -- the same two ways as for one value
  · exact continues_of_branch hi h
  · split at h
    · exact continues_of_branch hi h
    · cases h

/-- The label that a switch table has for a key is one of its labels. -/
theorem mem_labels_of_target? {t : SwitchTable} {key : Int32} {label : String}
    (h : t.target? key = some label) : label ∈ t.labels := by
  unfold SwitchTable.target? at h
  split at h
  · exact List.mem_of_getElem? h
  · cases h

/-- A switch jumps to a label of its table, or goes on. -/
theorem continues_of_switch {src : Slot} {table : String} (h : switch f src table = .ok flow) :
    Continues p f (.packedSwitch src table) flow := by
  obtain ⟨key, _, h⟩ := bind_eq_ok.1 h
  split at h
  · cases h
  · next t ht =>
    split at h
    · next label hlabel =>
      obtain ⟨pc, hpc, h⟩ := bind_eq_ok.1 h
      obtain rfl := Except.ok.inj h
      -- the instruction names the label through the table
      have hn : f.code.Names (.packedSwitch src table) label :=
        .inr ⟨src, table, t, rfl, ht, mem_labels_of_target? hlabel⟩
      exact .jump label pc hn (target_ok hpc)
    · exact continues_next h

/-- An access to an instance field asks for the class that the field is named with. -/
theorem continues_of_needFieldClass {kind : AccessKind} {id : FieldId}
    (hi : i.fieldClass? = some id.className) (h : needFieldClass p f kind id = .ok flow) :
    Continues p f i flow := by
  unfold needFieldClass at h
  split at h
  · obtain ⟨_, _, h⟩ := bind_eq_ok.1 h
    obtain rfl := Except.ok.inj h
    exact .needClass id.className hi
  · cases h
  -- only a circle of superclass links lets the walk to the field go on for ever
  · next hwalk =>
    obtain rfl := Except.ok.inj h
    exact .endless fun hp => lookupInstanceField_ne_endless hp id hwalk

/-- A call is to a method of the program. -/
theorem continues_of_dispatch {kind : InvokeKind} {args : List Slot} {id : MethodId}
    (h : (dispatch p s f kind args id).2 = .ok flow) : Continues p f (.invoke kind args id) flow := by
  obtain ⟨values, _, h⟩ := attempt_ok h
  cases kind with
  | static =>
    obtain ⟨m, hm, h⟩ := attempt_ok h
    obtain rfl := Except.ok.inj h
    exact .call m none values (hasMethod_of_lookupDeclared hm) rfl
  | direct =>
    obtain ⟨m, hm, h⟩ := attempt_ok h
    obtain rfl := Except.ok.inj h
    exact .call m values.head? values.tail (hasMethod_of_lookupDeclared hm) rfl
  -- the search starts at the class of the receiver and may run into a circle
  | virtual =>
    obtain ⟨c, _, h⟩ := attempt_ok h
    split at h
    · next m hm =>
      obtain rfl := Except.ok.inj h
      exact .call m values.head? values.tail (hasMethod_of_lookupVirtual hm) rfl
    · cases h
    · next hwalk =>
      obtain rfl := Except.ok.inj h
      exact .endless fun hp => lookupVirtual_ne_endless hp c id hwalk

/-- The flow of an instruction is of one of the kinds. -/
theorem exec_continues (h : (exec p s f i).2 = .ok flow) : Continues p f i flow := by
  -- most instructions write slots and go on; the others jump, leave, call or ask for a class
  cases i with
  | nop => exact continues_next h
  | const dest literal | constWide dest literal =>
    exact continues_of_proceed (by simp) h
  | constString dest text => exact continues_of_proceed (slotsOnly_write f dest _) h
  | move kind dest src => exact continues_of_proceed (by simp) h
  | moveResult kind dest =>
    simp only [exec] at h
    split at h
    · exact continues_of_proceed (slotsOnly_writeKind f _ kind dest _) h
    · cases h
  | returnVoid =>
    simp only [exec, returnVoid] at h
    split at h
    -- the two instructions that end a call each check the return type of the method
    · next hvoid =>
      obtain rfl := Except.ok.inj h
      exact .leave none (by simp [hvoid])
    · cases h
  | returnValue kind src =>
    simp only [exec, returnValue] at h
    split at h
    · cases h
    · next hvoid =>
      obtain ⟨v, _, h⟩ := bind_eq_ok.1 h
      obtain rfl := Except.ok.inj h
      exact .leave (some v) (by simp [hvoid])
  | staticGet kind slot id | staticPut kind slot id =>
    obtain rfl := Except.ok.inj h
    exact .needClass id.className rfl
  | instanceGet kind slot object id | instancePut kind slot object id =>
    exact continues_of_needFieldClass rfl h
  | invoke kind args id => exact continues_of_dispatch h
  | ifZero cmp src label => exact continues_of_branchZero rfl h
  | ifTest cmp a b label => exact continues_of_branchTest rfl h
  | goto label => exact continues_of_branch rfl (show branch f true label = .ok flow from h)
  | packedSwitch src table => exact continues_of_switch h
  | compareLong dest a b => exact continues_of_proceed (by simp) h
  | compareDouble dest a b => exact continues_of_proceed (slotsOnly_compareDoubles f dest a b) h
  | convert conversion dest src =>
    exact continues_of_proceed (slotsOnly_convert f conversion dest src) h
  | arithmetic op sig dest lhs rhs =>
    exact continues_of_proceed (slotsOnly_integerOperation f op sig dest lhs rhs) h
  | doubleArithmetic op dest lhs rhs =>
    exact continues_of_proceed (slotsOnly_doubleOperation f op dest lhs rhs) h
  -- a negative length and a type without elements are refused before anything is written
  | newArray dest length type =>
    obtain ⟨n, _, h⟩ := attempt_ok h
    split at h
    · cases h
    · split at h
      · cases h
      · exact continues_of_proceed (slotsOnly_write f dest _) h
  | arrayGet kind dest array index =>
    exact continues_of_proceed (slotsOnly_arrayGet s.heap f kind dest array index) h
  | arrayPut kind src array index =>
    obtain ⟨heap, _, h⟩ := attempt_ok h
    exact continues_next h
  | arrayLength dest array => exact continues_of_proceed (by simp) h
  | newInstance dest className =>
    simp only [exec] at h
    split at h
    · exact continues_of_proceed (slotsOnly_write f dest _) h
    · cases h
  | monitorEnter slot | monitorExit slot =>
    obtain ⟨s', _, h⟩ := attempt_ok h
    exact continues_next h
  | checkCast src type =>
    obtain ⟨_, _, h⟩ := bind_eq_ok.1 h
    exact continues_next h
  | unsupported mnemonic => cases h

/-- The second half of a field access goes on with the next instruction, or never. -/
theorem access_resumes (h : (access p s f i).2 = .ok flow) : Resumes p f flow := by
  unfold access at h
  split at h
  · exact resumes_of_proceed (slotsOnly_staticGet p s f _ _ _) h
  · obtain ⟨s', _, h⟩ := attempt_ok h
    exact resumes_next h
  -- an instance field is found by a walk, which may be endless
  · split at h
    · obtain ⟨fields, _, h⟩ := attempt_ok h
      exact resumes_of_proceed (slotsOnly_writeKind f _ _ _ _) h
    · cases h
    · next hwalk =>
      obtain rfl := Except.ok.inj h
      exact .endless fun hp => lookupInstanceField_ne_endless hp _ hwalk
  · split at h
    · obtain ⟨heap, _, h⟩ := attempt_ok h
      exact resumes_next h
    · cases h
    · next hwalk =>
      obtain rfl := Except.ok.inj h
      exact .endless fun hp => lookupInstanceField_ne_endless hp _ hwalk
  · exact resumes_next h

/-! ## Instructions whose names are defined -/

/-- Every name that the instruction uses is there, and so is every label in the switch tables. -/
def Defines (code : Code) (i : Instruction) : Prop :=
  code.missingName? i = none ∧
    ∀ name t, code.switchTables.get? name = some t → ∀ label ∈ t.labels,
      code.labels.contains label = true

/-- A label that is there has a target. -/
theorem plain_target {label : String} (h : f.code.labels.contains label = true) :
    Plain (f.target label) := by
  obtain ⟨pc, hpc⟩ := Option.isSome_iff_exists.1 h
  simp [Frame.target, hpc]

/-- A branch to a label that is there does not fail for want of it. -/
theorem plain_branch {label : String} (h : f.code.labels.contains label = true) (taken : Bool) :
    Plain (branch f taken label) := by
  simp [branch, plain_target h]

/-- A branch on one value, to a label that is there, fails at most for its operand. -/
theorem plain_branchZero {label : String} (h : f.code.labels.contains label = true) (heap : Heap)
    (cmp : Comparison) (src : Slot) : Plain (branchZero heap f cmp src label) := by
  simp only [branchZero, plain_bind, Frame.plain_read, true_and]
  -- reading is plain, and a value that cannot be tested is a mismatch
  intro v _
  split
  · exact plain_branch h _
  · split
    · exact plain_branch h _
    · exact plain_mismatch _

/-- A branch on two values, to a label that is there, fails at most for its operands. -/
theorem plain_branchTest {label : String} (h : f.code.labels.contains label = true) (heap : Heap)
    (cmp : Comparison) (a b : Slot) : Plain (branchTest heap f cmp a b label) := by
  simp only [branchTest, plain_bind, Frame.plain_read, true_and]
  intro x _ y _
  split
  · exact plain_branch h _
  · split
    · exact plain_branch h _
    · exact plain_mismatch _

/-- A switch whose table and labels are there fails at most for the key. -/
theorem plain_switch {src : Slot} {table : String} (h : Defines f.code (.packedSwitch src table)) :
    Plain (switch f src table) := by
  simp only [switch, plain_bind, Frame.plain_readInt, true_and]
  intro key _
  obtain ⟨htable, hlabels⟩ := h
  split
  · -- the table that the instruction names is there
    next hnone =>
    simp [Code.missingName?, Table.contains, hnone] at htable
  · next t ht =>
    split
    · next label hlabel =>
      simp [plain_target (hlabels table t ht label (mem_labels_of_target? hlabel))]
    · exact plain_ok _

/-- An attempt fails for want of a label only if one of its parts does. -/
theorem plain_attempt {r : Except Fault α} {k : α → State × Except Fault Flow} (hr : Plain r)
    (hk : ∀ a, r = .ok a → Plain (k a).2) : Plain (attempt s r k).2 := by
  cases r with
  -- the fault is the same, only the type of the failed computation differs
  | error e => exact (plain_error e).2 ((plain_error e).1 hr)
  | ok a => exact hk a rfl

/-- Going on with a frame fails only as the computation of the frame does. -/
theorem plain_proceed {x : Except Fault Frame} (hx : Plain x) : Plain (proceed s x).2 :=
  (plain_map Flow.next x).2 hx

/-- Asking for the class of a field does not look up a label. -/
theorem plain_needFieldClass (p : Program) (f : Frame) (kind : AccessKind) (id : FieldId) :
    Plain (needFieldClass p f kind id) := by
  unfold needFieldClass
  split
  · simp
  · next e he => exact (plain_error e).2 (lookupInstanceField_failed he)
  · exact plain_ok _

/-- A call does not look up a label. -/
theorem plain_dispatch (p : Program) (s : State) (f : Frame) (kind : InvokeKind) (args : List Slot)
    (id : MethodId) : Plain (dispatch p s f kind args id).2 := by
  refine plain_attempt (plain_mapM_read f args) fun values _ => ?_
  cases kind with
  | static => exact plain_attempt (plain_lookupDeclared p id true) fun m _ => plain_ok _
  | direct => exact plain_attempt (plain_lookupDeclared p id false) fun m _ => plain_ok _
  | virtual =>
    refine plain_attempt (plain_runtimeClass s.heap id values) fun c _ => ?_
    split
    · exact plain_ok _
    · next e he => exact (plain_error e).2 (lookupVirtual_failed he)
    · exact plain_ok _

/-- The label of a branch whose names are defined. -/
theorem Defines.label {label : String} (h : Defines f.code i) (hi : i.branchLabel? = some label) :
    f.code.labels.contains label = true := by
  have h := h.1
  -- a switch names a table and no label, every other branch a label and no table
  unfold Code.missingName? at h
  split at h
  · cases hi
  · simpa [hi, Option.filter] using h

/-- An instruction whose names are defined does not fail for want of a label. -/
theorem plain_exec (h : Defines f.code i) : Plain (exec p s f i).2 := by
  -- only the branches use `h`: no other instruction looks up a label
  cases i with
  | nop => exact plain_ok _
  | const dest literal | constWide dest literal => exact plain_proceed (by simp)
  | constString dest text => exact plain_proceed (Frame.plain_write f dest _)
  | move kind dest src => exact plain_proceed (by simp)
  | moveResult kind dest =>
    simp only [exec]
    split
    · exact plain_proceed (Frame.plain_writeKind f _ kind dest _)
    · exact plain_mismatch _
  | returnVoid => exact plain_returnVoid f
  | returnValue kind src => exact plain_returnValue s.heap f kind src
  | staticGet kind slot id | staticPut kind slot id => exact plain_ok _
  | instanceGet kind slot object id | instancePut kind slot object id =>
    exact plain_needFieldClass p f kind id
  | invoke kind args id => exact plain_dispatch p s f kind args id
  | ifZero cmp src label => exact plain_branchZero (h.label rfl) s.heap cmp src
  | ifTest cmp a b label => exact plain_branchTest (h.label rfl) s.heap cmp a b
  | goto label => exact plain_branch (h.label rfl) true
  | packedSwitch src table => exact plain_switch h
  | compareLong dest a b => exact plain_proceed (by simp)
  | compareDouble dest a b => exact plain_proceed (plain_compareDoubles f dest a b)
  | convert conversion dest src => exact plain_proceed (plain_convert f conversion dest src)
  | arithmetic op sig dest lhs rhs =>
    exact plain_proceed (plain_integerOperation f op sig dest lhs rhs)
  | doubleArithmetic op dest lhs rhs => exact plain_proceed (plain_doubleOperation f op dest lhs rhs)
  -- an index out of bounds and a mismatch are no control faults
  | newArray dest length type =>
    refine plain_attempt (Frame.plain_readInt f length) fun n _ => ?_
    split
    · simp [Fault.isControl]
    · split
      · exact plain_mismatch _
      · exact plain_proceed (Frame.plain_write f dest _)
  | arrayGet kind dest array index =>
    exact plain_proceed (plain_arrayGet s.heap f kind dest array index)
  | arrayPut kind src array index =>
    exact plain_attempt (plain_arrayPut s.heap f kind src array index) fun heap _ => plain_ok _
  | arrayLength dest array => exact plain_proceed (by simp)
  | newInstance dest className =>
    simp only [exec]
    split
    · exact plain_proceed (Frame.plain_write f dest _)
    · next e he =>
      exact (plain_error e).2 (plain_newObject p s className e (congrArg Prod.snd he))
  | monitorEnter slot | monitorExit slot => exact plain_attempt (by simp) fun s' _ => plain_ok _
  | checkCast src type => simp [exec]
  | unsupported mnemonic => simp [exec, Fault.isControl]

/-- The second half of a field access does not fail for want of a label. -/
theorem plain_access (p : Program) (s : State) (f : Frame) (i : Instruction) :
    Plain (access p s f i).2 := by
  unfold access
  split
  · exact plain_proceed (plain_staticGet p s f _ _ _)
  · exact plain_attempt (plain_staticPut p s f _ _ _) fun s' _ => plain_ok _
  · split
    · exact plain_attempt (by simp) fun fields _ => plain_proceed (Frame.plain_writeKind f _ _ _ _)
    · next e he => exact (plain_error e).2 (lookupInstanceField_failed he)
    · exact plain_ok _
  · split
    · exact plain_attempt (plain_instancePut s.heap f _ _ _ _) fun heap _ => plain_ok _
    · next e he => exact (plain_error e).2 (lookupInstanceField_failed he)
    · exact plain_ok _
  · exact plain_ok _

end Machine

end Smali
