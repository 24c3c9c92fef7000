import Smali.Machine.Exec

/-!
# The faults of the parts of an instruction

Two faults have to do with where a run goes: a label that is not there and a call that goes too deep.
All that an instruction reads, checks and writes fails, if at all, for another reason. `Plain` says this of
one fallible part; it passes through sequencing (`plain_bind`), so that the statement for a composed part
follows from the statements for its pieces.

## Key results

- `plain_bind`: a sequence is plain if its parts are
- `plain_lookupDeclared`, `plain_lookupStaticField`, `plain_findClass`: looking things up is plain
- `plain_convert`, `plain_integerOperation`, `plain_arrayGet`, …: so is the work of the instructions
-/

namespace Smali.Machine

/-- Whether a fault is about where a run goes. -/
def Fault.isControl : Fault → Bool
  | .labelNotFound _ | .stackOverflow _ => true
  | _ => false

/-- The computation may fail, but not for a reason of control. -/
def Plain (x : Except Fault α) : Prop :=
  ∀ e, x = .error e → e.isControl = false

/-! ## Sequencing -/

/-- What succeeds does not fail. -/
@[simp] theorem plain_ok (a : α) : Plain (.ok a : Except Fault α) := by
  intro e h
  cases h

/-- A result that is only handed on does not fail. -/
@[simp] theorem plain_pure (a : α) : Plain (pure a : Except Fault α) := plain_ok a

/-- A failure is plain exactly if its fault is not about control. -/
@[simp] theorem plain_error (e : Fault) :
    Plain (.error e : Except Fault α) ↔ e.isControl = false := by
  simp [Plain]

/-- Something of the wrong type is not a matter of control. -/
@[simp] theorem plain_mismatch (cause : Mismatch) : Plain (mismatch cause : Except Fault α) := by
  simp [mismatch, Fault.isControl]

/-- A sequence is plain exactly if its first part is and, where that succeeds, so is the second. -/
@[simp] theorem plain_bind (x : Except Fault α) (k : α → Except Fault β) :
    Plain (x >>= k) ↔ Plain x ∧ ∀ a, x = .ok a → Plain (k a) := by
  cases x <;> simp [Plain, bind, Except.bind]

/-- Changing the result afterwards makes no new failure. -/
@[simp] theorem plain_map (g : α → β) (x : Except Fault α) : Plain (g <$> x) ↔ Plain x := by
  cases x <;> simp [Functor.map, Except.map]

/-- Of the two branches only the one that is taken counts. -/
@[simp] theorem plain_ite (c : Prop) [Decidable c] (x y : Except Fault α) :
    Plain (if c then x else y) ↔ (c → Plain x) ∧ (¬c → Plain y) := by
  by_cases h : c <;> simp [h]

/-! ## Values -/

namespace Value

/-- A value that is no int is a mismatch. -/
@[simp] theorem plain_asInt (v : Value) : Plain v.asInt := by
  cases v <;> simp [asInt]

/-- A value that is no long is a mismatch. -/
@[simp] theorem plain_asLong (v : Value) : Plain v.asLong := by
  cases v <;> simp [asLong]

/-- A value that is no object is a mismatch. -/
@[simp] theorem plain_asObject (v : Value) : Plain v.asObject := by
  cases v <;> simp [asObject]

/-- A value that is no array is a mismatch. -/
@[simp] theorem plain_asArray (v : Value) : Plain v.asArray := by
  cases v <;> simp [asArray]

/-- A value that is no reference is a mismatch. -/
@[simp] theorem plain_asReference (v : Value) : Plain v.asReference := by
  cases v <;> simp [asReference]

/-- Two halves make a long unless one of them is no int. -/
@[simp] theorem plain_pair (high low : Value) : Plain (pair high low) := by
  simp [pair]

end Value

/-! ## Slots and frames -/

/-- Reading a slot fails for an index outside or for a slot that was never written. -/
@[simp] theorem Slots.plain_get (s : Slots) (index : Nat) : Plain (s.get index) := by
  unfold Slots.get
  split <;> simp [Fault.isControl]

/-- Reading two slots fails as reading each of them does. -/
@[simp] theorem Slots.plain_getWide (s : Slots) (index : Nat) : Plain (s.getWide index) := by
  simp [Slots.getWide]

/-- Writing a slot fails for an index outside or for a long, which needs two slots. -/
@[simp] theorem Slots.plain_set (s : Slots) (index : Nat) (v : Value) : Plain (s.set index v) := by
  simp [Slots.set, Fault.isControl]

/-- Writing two slots fails for an index outside or for a value that cannot be split. -/
@[simp] theorem Slots.plain_setWide (s : Slots) (index : Nat) (v : Value) :
    Plain (s.setWide index v) := by
  simp [Slots.setWide, Value.split, Fault.isControl]

namespace Frame

/-- Changing one of the two files of a frame fails only as the change does. -/
@[simp] theorem plain_update (f : Frame) (slot : Slot) (change : Slots → Except Fault Slots)
    (h : ∀ s, Plain (change s)) : Plain (f.update slot change) := by
  cases slot <;> simp [update, h]

/-- A frame reads in one of its files. -/
@[simp] theorem plain_read (f : Frame) (slot : Slot) : Plain (f.read slot) := by
  simp [read]

/-- A frame reads two slots in one of its files. -/
@[simp] theorem plain_readWide (f : Frame) (slot : Slot) : Plain (f.readWide slot) := by
  simp [readWide]

/-- A frame writes into one of its files. -/
@[simp] theorem plain_write (f : Frame) (slot : Slot) (v : Value) : Plain (f.write slot v) := by
  simp [write]

/-- A frame writes two slots in one of its files. -/
@[simp] theorem plain_writeWide (f : Frame) (slot : Slot) (v : Value) :
    Plain (f.writeWide slot v) := by
  simp [writeWide]

/-- Reading an int may also meet a value that is none. -/
@[simp] theorem plain_readInt (f : Frame) (slot : Slot) : Plain (f.readInt slot) := by
  simp [readInt]

/-- Reading a long may also meet halves that are none. -/
@[simp] theorem plain_readLong (f : Frame) (slot : Slot) : Plain (f.readLong slot) := by
  simp [readLong]

/-- A double is read as the long with its bits. -/
@[simp] theorem plain_readDouble (f : Frame) (slot : Slot) : Plain (f.readDouble slot) := by
  simp [readDouble, Value.doubleBits]

/-- Reading a reference may also meet a number. -/
@[simp] theorem plain_readReference (f : Frame) (h : Heap) (slot : Slot) :
    Plain (f.readReference h slot) := by
  simp [readReference]

/-- Moves read a slot, two slots or a reference, by their kind. -/
@[simp] theorem plain_readKind (f : Frame) (h : Heap) (kind : ValueKind) (slot : Slot) :
    Plain (f.readKind h kind slot) := by
  cases kind <;> simp [readKind]

/-- Accessors read a slot, two slots or a reference, by their kind. -/
@[simp] theorem plain_readAccess (f : Frame) (h : Heap) (kind : AccessKind) (slot : Slot) :
    Plain (f.readAccess h kind slot) := by
  cases kind <;> simp [readAccess]

/-- Operands are read as ints or as longs. -/
@[simp] theorem plain_readWidth (f : Frame) (width : Width) (slot : Slot) :
    Plain (f.readWidth width slot) := by
  cases width <;> simp [readWidth]

/-- Moves check the value against their kind before they write it. -/
@[simp] theorem plain_writeKind (f : Frame) (h : Heap) (kind : ValueKind) (slot : Slot) (v : Value) :
    Plain (f.writeKind h kind slot v) := by
  -- each kind with each kind of value
  cases kind <;> cases v <;> simp [writeKind]

/-- Results are written as ints or as longs. -/
@[simp] theorem plain_writeWidth (f : Frame) (width : Width) (slot : Slot) (v : Int64) :
    Plain (f.writeWidth width slot v) := by
  cases width <;> simp [writeWidth]

end Frame

/-! ## The heap and the state -/

/-- A reference to no object is a fault of its own. -/
@[simp] theorem Heap.plain_object (h : Heap) (ref : Nat) : Plain (h.object ref) := by
  unfold Heap.object
  split <;> simp [Fault.isControl]

/-- A reference to no array is a fault of its own. -/
@[simp] theorem Heap.plain_array (h : Heap) (ref : Nat) : Plain (h.array ref) := by
  unfold Heap.array
  split <;> simp [Fault.isControl]

/-- A host object has no fields. -/
@[simp] theorem Object.plain_fields (o : Object) : Plain o.fields := by
  unfold Object.fields
  split <;> simp

/-- An instance has nothing of the host. -/
@[simp] theorem Object.plain_hostData (o : Object) : Plain o.hostData := by
  unfold Object.hostData
  split <;> simp

/-- A property that the host has not set is a missing field. -/
@[simp] theorem Object.plain_property (o : Object) (key : String) (get : HostData → Option α) :
    Plain (o.property key get) := by
  simp only [Object.property, plain_bind, plain_hostData, true_and]
  intro data _
  split <;> simp [Fault.isControl]

/-- The text of a string is such a property. -/
@[simp] theorem Object.plain_contents (o : Object) : Plain o.contents := by
  simp [Object.contents]

/-- An index outside of the array is out of bounds. -/
@[simp] theorem ArrayObject.plain_place (a : ArrayObject) (index : Int) : Plain (a.place index) := by
  simp [ArrayObject.place, Fault.isControl]

/-- Reading an element fails for its index only. -/
@[simp] theorem ArrayObject.plain_get (a : ArrayObject) (index : Int) : Plain (a.get index) := by
  simp only [ArrayObject.get, plain_bind, plain_place, true_and]
  intro i _
  split <;> simp [Fault.isControl]

namespace Heap

/-- A field cannot be written in a host object or behind a dangling reference. -/
@[simp] theorem plain_setField (h : Heap) (ref : Nat) (name : String) (v : Value) :
    Plain (h.setField ref name v) := by
  simp [setField]

/-- The host cannot write into an instance or behind a dangling reference. -/
@[simp] theorem plain_setHostData (h : Heap) (ref : Nat) (change : HostData → HostData) :
    Plain (h.setHostData ref change) := by
  simp [setHostData]

/-- An element cannot be written outside of its array. -/
@[simp] theorem plain_setElement (h : Heap) (ref : Nat) (index : Int) (v : Value) :
    Plain (h.setElement ref index v) := by
  simp [setElement]

/-- The text behind a reference, in the object if there is one. -/
@[simp] theorem plain_contents (h : Heap) (ref : Nat) : Plain (h.textOf ref "contents") := by
  simp [textOf_contents]

/-- A value has a text if it is an object that has one. -/
@[simp] theorem plain_stringOf (h : Heap) (v : Value) : Plain (h.stringOf v) := by
  simp [stringOf]

end Heap

/-- What is locked cannot be locked again. -/
@[simp] theorem State.plain_lock (s : State) (v : Value) : Plain (s.lock v) := by
  simp [State.lock, Fault.isControl]

/-- What is not locked cannot be unlocked. -/
@[simp] theorem State.plain_unlock (s : State) (v : Value) : Plain (s.unlock v) := by
  simp [State.unlock, Fault.isControl]

/-! ## Lookups -/

/-- A class may not be there. -/
@[simp] theorem plain_findClass (p : Program) (name : String) : Plain (findClass p name) := by
  unfold findClass
  split <;> simp [Fault.isControl]

/-- The class that another one extends may not be there. -/
@[simp] theorem plain_superclass? (p : Program) (c : LoadedClass) : Plain (superclass? p c) := by
  unfold superclass?
  split <;> simp [Fault.isControl]

/-- A method is looked for in one class, where it may not be declared. -/
@[simp] theorem plain_lookupDeclared (p : Program) (id : MethodId) (static : Bool) :
    Plain (lookupDeclared p id static) := by
  simp only [lookupDeclared, plain_bind, plain_findClass, true_and]
  intro c _
  split <;> simp [Fault.isControl]

/-- A static field is looked for in one class, where it may not be declared. -/
@[simp] theorem plain_lookupStaticField (p : Program) (id : FieldId) :
    Plain (lookupStaticField p id) := by
  simp only [lookupStaticField, plain_bind, plain_findClass, true_and]
  intro c _
  split <;> simp [Fault.isControl]

/-- A walk up the superclass links fails at a class that is not there. -/
theorem searchUp_failed {p : Program} {pick : LoadedClass → Option α} {steps : Nat} {c : LoadedClass}
    {e : Fault} (h : searchUp p pick steps c = .failed e) : e.isControl = false := by
  induction steps generalizing c with
  -- a walk whose steps are used up is endless, which is not a failure
  | zero => cases h
  | succ steps ih =>
    unfold searchUp at h
    split at h
    · cases h
    · split at h
      -- the superclass is there, and the walk goes on from it
      · exact ih h
      · cases h
      · next e' he =>
        obtain rfl := Search.failed.inj h
        exact plain_superclass? p c e' he

/-- A virtual method is not found for want of one of two classes, of a superclass or of the method itself.
-/
theorem lookupVirtual_failed {p : Program} {runtimeClass : String} {id : MethodId} {e : Fault}
    (h : lookupVirtual p runtimeClass id = .failed e) : e.isControl = false := by
  -- the failures stand in the order of the lookup: the two classes, then what the walk comes to
  unfold lookupVirtual at h
  split at h
  · next e' he =>
    obtain rfl := Search.failed.inj h
    exact plain_findClass p _ e' he
  · next e' _ he =>
    obtain rfl := Search.failed.inj h
    exact plain_findClass p _ e' he
  · split at h
    · cases h
    · obtain rfl := Search.failed.inj h
      rfl
    · next e' he =>
      obtain rfl := Search.failed.inj h
      exact searchUp_failed he
    · cases h

/-- A field of an object is not found for want of a class or of the field, or because it is static. -/
theorem lookupInstanceField_failed {p : Program} {id : FieldId} {e : Fault}
    (h : lookupInstanceField p id = .failed e) : e.isControl = false := by
  unfold lookupInstanceField at h
  split at h
  · next e' he =>
    obtain rfl := Search.failed.inj h
    exact plain_findClass p _ e' he
  -- a field that is found must not be static
  · split at h
    · split at h
      · obtain rfl := Search.failed.inj h
        rfl
      · cases h
    · obtain rfl := Search.failed.inj h
      rfl
    · next e' he =>
      obtain rfl := Search.failed.inj h
      exact searchUp_failed he
    · cases h

/-! ## The work of the instructions -/

/-- A literal may be too large or too small for its field. -/
@[simp] theorem plain_narrowLiteral (literal : Literal) : Plain (narrowLiteral literal) := by
  unfold narrowLiteral
  dsimp only
  split
  -- a field of 64 bits has room for every literal
  · exact plain_ok _
  · split
    · simp [Fault.isControl]
    · split <;> simp [Fault.isControl]

/-- Integers may be divided by zero. -/
@[simp] theorem plain_evaluate (op : BinaryOp) (width : Width) (lhs rhs : Int64) :
    Plain (evaluate op width lhs rhs) := by
  simp [evaluate, Fault.isControl]

/-- A conversion reads, computes and writes, and computing does not fail. -/
@[simp] theorem plain_convert (f : Frame) (conversion : Conversion) (dest src : Slot) :
    Plain (convert f conversion dest src) := by
  cases conversion <;> simp [convert, Value.narrow, Value.widen]

/-- An operation fails as its operands, its evaluation or its destination do. -/
@[simp] theorem plain_integerOperation (f : Frame) (op : BinaryOp) (sig : Signature) (dest lhs : Slot)
    (rhs : Operand) : Plain (integerOperation f op sig dest lhs rhs) := by
  cases rhs <;> simp [integerOperation]

/-- Some operations do not exist for doubles. -/
@[simp] theorem plain_doubleOperation (f : Frame) (op : BinaryOp) (dest lhs rhs : Slot) :
    Plain (doubleOperation f op dest lhs rhs) := by
  cases op <;> simp [doubleOperation, Fault.isControl]

/-- A comparison of doubles fails as its operands or its destination do. -/
@[simp] theorem plain_compareDoubles (f : Frame) (dest a b : Slot) :
    Plain (compareDoubles f dest a b) := by
  simp [compareDoubles]

/-- Reading an element into a slot, with all checks. -/
@[simp] theorem plain_arrayGet (h : Heap) (f : Frame) (kind : AccessKind) (dest array index : Slot) :
    Plain (arrayGet h f kind dest array index) := by
  simp [arrayGet]

/-- A value that does not fit a type is a mismatch. -/
@[simp] theorem plain_checkFits (h : Heap) (v : Value) (type : Descriptor) :
    Plain (checkFits h v type) := by
  simp [checkFits]

/-- Writing an element from a slot, with all checks. -/
@[simp] theorem plain_arrayPut (h : Heap) (f : Frame) (kind : AccessKind) (src array index : Slot) :
    Plain (arrayPut h f kind src array index) := by
  simp [arrayPut]

/-- A cast may fail for the type of the value. -/
@[simp] theorem plain_checkCast (h : Heap) (f : Frame) (src : Slot) (type : Descriptor) :
    Plain (checkCast h f src type) := by
  simp only [checkCast, plain_bind, Frame.plain_read, true_and]
  intro v _
  -- a number cannot be cast, and a reference must have the very type
  cases v <;> simp

/-- An accessor of the wrong kind is a mismatch. -/
@[simp] theorem plain_checkAccessor (kind : AccessKind) (field : Field) (id : FieldId) :
    Plain (checkAccessor kind field id) := by
  simp [checkAccessor]

/-- Looking a static field up for an accessor. -/
@[simp] theorem plain_staticField (p : Program) (kind : AccessKind) (id : FieldId) :
    Plain (staticField p kind id) := by
  simp [staticField]

/-- A static field may also be without a value. -/
@[simp] theorem plain_staticGet (p : Program) (s : State) (f : Frame) (kind : AccessKind) (dest : Slot)
    (id : FieldId) : Plain (staticGet p s f kind dest id) := by
  simp only [staticGet, plain_bind, plain_staticField, true_and]
  intro place _
  split <;> simp [Fault.isControl]

/-- Writing a static field from a slot, with all checks. -/
@[simp] theorem plain_staticPut (p : Program) (s : State) (f : Frame) (kind : AccessKind) (src : Slot)
    (id : FieldId) : Plain (staticPut p s f kind src id) := by
  simp [staticPut]

/-- Writing a field of an object from a slot, with all checks. -/
@[simp] theorem plain_instancePut (h : Heap) (f : Frame) (kind : AccessKind) (src object : Slot)
    (field : Field) : Plain (instancePut h f kind src object field) := by
  simp [instancePut]

/-- The class of the receiver, which may be missing among the arguments. -/
@[simp] theorem plain_runtimeClass (h : Heap) (id : MethodId) (values : List Value) :
    Plain (runtimeClass h id values) := by
  unfold runtimeClass
  split <;> simp

/-- Returning nothing from a method that declares a result is a mismatch. -/
@[simp] theorem plain_returnVoid (f : Frame) : Plain (returnVoid f) := by
  simp [returnVoid]

/-- Returning a value that the method does not declare is a mismatch. -/
@[simp] theorem plain_returnValue (h : Heap) (f : Frame) (kind : ValueKind) (src : Slot) :
    Plain (returnValue h f kind src) := by
  simp [returnValue]

/-- The class of a new object may not be there. -/
@[simp] theorem plain_newObject (p : Program) (s : State) (className : String) :
    Plain (newObject p s className).2 := by
  unfold newObject
  split
  -- the only fault is that of looking the class up
  · next e he => exact (plain_error e).2 (plain_findClass p className e he)
  · exact plain_ok _

/-- Reading the slots of the arguments one after the other. -/
@[simp] theorem plain_mapM_read (f : Frame) (args : List Slot) : Plain (args.mapM f.read) := by
  induction args with
  | nil => simp
  | cons slot rest ih => simp [List.mapM_cons, ih]

end Smali.Machine
