import Smali.Proofs.HeapTyping

/-!
# What an instruction writes into its frame

An instruction works out what it has to write and where, and then writes it. `plan` is the first part: it
reads the frame and comes to a `Write`, or fails. Executing an instruction is planning and then applying the
plan, and a plan writes no slot but the destination of its instruction.

## Key results

- `exec_plan`, `access_plan`: an instruction plans and then writes
- `plan_slots`, `planAccess_slots`: it plans to write its destination only
- `exec_sameOutside`, `access_sameOutside`: an instruction leaves all other slots alone
-/

namespace Smali

/-- The slot of the same kind with another index. -/
def Slot.withIndex (slot : Slot) (index : Nat) : Slot :=
  match slot with
  | .register _ => .register index
  | .parameter _ => .parameter index

/-- A slot with its own index is the slot. -/
theorem Slot.withIndex_index (slot : Slot) : slot.withIndex slot.index = slot := by
  cases slot <;> rfl

/-- The slot after a slot. -/
def Slot.next (slot : Slot) : Slot :=
  slot.withIndex (slot.index + 1)

/-- The slots that a value of a kind takes, from the given one on. -/
def ValueKind.slots (slot : Slot) : ValueKind → List Slot
  | .wide => [slot, slot.next]
  | .single | .object => [slot]

/-- The slots that an integer of a width takes, from the given one on. -/
def Width.slots (slot : Slot) : Width → List Slot
  | .int => [slot]
  | .long => [slot, slot.next]

/-- The destination of an instruction: the slot that it names, and for a 64-bit value the next one too. -/
def Instruction.footprint : Instruction → List Slot
  | .const dest _ | .constString dest _ | .compareLong dest _ _ | .compareDouble dest _ _
  | .newArray dest _ _ | .arrayLength dest _ | .newInstance dest _ => [dest]
  | .constWide dest _ | .doubleArithmetic _ dest _ _ => [dest, dest.next]
  | .move kind dest _ | .moveResult kind dest => kind.slots dest
  | .staticGet kind dest _ | .instanceGet kind dest _ _ | .arrayGet kind dest _ _ =>
    kind.valueKind.slots dest
  | .convert .intToLong dest _ => [dest, dest.next]
  | .convert _ dest _ => [dest]
  | .arithmetic _ sig dest _ _ => sig.result.slots dest
  | _ => []

namespace Machine

/-! ## Writes -/

/-- What an instruction has to write into its frame. -/
inductive Write where
  | nothing
  | single (slot : Slot) (v : Value)
  /-- A 64-bit value. -/
  | wide (slot : Slot) (v : Value)
  deriving Repr, DecidableEq, Inhabited

namespace Write

/-- The slots that are written. -/
def slots : Write → List Slot
  | nothing => []
  | single slot _ => [slot]
  | wide slot _ => [slot, slot.next]

/-- The frame after the write. -/
def apply (f : Frame) : Write → Except Fault Frame
  | nothing => .ok f
  | single slot v => f.write slot v
  | wide slot v => f.writeWide slot v

/-- The write of a value that has to be of a kind. -/
def ofKind (h : Heap) (kind : ValueKind) (slot : Slot) (v : Value) : Except Fault Write :=
  match kind, v with
  | .wide, .long _ => .ok (wide slot v)
  | .single, .int _ => .ok (single slot v)
  | .object, _ =>
    if v.isReferenceOrNull then .ok (single slot v) else mismatch (.wrongKind .object (h.shown v))
  | kind, _ => mismatch (.wrongKind kind (h.shown v))

/-- The write of an integer of a width. -/
def ofWidth (width : Width) (slot : Slot) (v : Int64) : Write :=
  match width with
  | .int => single slot (.int v.toInt32)
  | .long => wide slot (.long v)

/-- Writing a value of a kind is finding the write, then making it. -/
theorem writeKind_eq (f : Frame) (h : Heap) (kind : ValueKind) (slot : Slot) (v : Value) :
    f.writeKind h kind slot v = ofKind h kind slot v >>= apply f := by
  cases kind with
  | object =>
    simp only [Frame.writeKind, ofKind]
    split
    · rfl
    · rfl
  | single | wide => cases v <;> rfl

/-- Writing an integer of a width is making its write. -/
theorem writeWidth_eq (f : Frame) (width : Width) (slot : Slot) (v : Int64) :
    f.writeWidth width slot v = (ofWidth width slot v).apply f := by
  cases width <;> rfl

/-- A value of a kind takes the slots of the kind. -/
theorem slots_ofKind {h : Heap} {kind : ValueKind} {slot : Slot} {v : Value} {w : Write}
    (hw : ofKind h kind slot v = .ok w) : w.slots = kind.slots slot := by
  unfold ofKind at hw
  -- a wide and a single value of the right variant, then a reference, then a value of another kind
  split at hw
  · rw [← Except.ok.inj hw]
    rfl
  · rw [← Except.ok.inj hw]
    rfl
  · split at hw
    · rw [← Except.ok.inj hw]
      rfl
    · cases hw
  · cases hw

/-- An integer of a width takes the slots of the width. -/
theorem slots_ofWidth (width : Width) (slot : Slot) (v : Int64) :
    (ofWidth width slot v).slots = width.slots slot := by
  cases width <;> rfl

end Write

/-! ## Plans -/

/-- What a conversion writes. -/
def planConvert (f : Frame) (conversion : Conversion) (dest src : Slot) : Except Fault Write := do
  match conversion with
  | .longToInt => return .single dest (← (← f.readWide src).narrow)
  | .intToLong => return .wide dest (← (← f.read src).widen)
  | .intToShort => return .single dest (.int (toShort (← f.readInt src)))
  | .intToByte => return .single dest (.int (toByte (← f.readInt src)))
  | .intToChar => return .single dest (.int (toChar (← f.readInt src)))

/-- What an operation on integers writes. -/
def planInteger (f : Frame) (op : BinaryOp) (sig : Signature) (dest lhs : Slot) (rhs : Operand) :
    Except Fault Write := do
  let a ← f.readWidth sig.lhs lhs
  let b ← match rhs with
    | .slot slot => f.readWidth sig.rhs slot
    | .literal literal => narrowLiteral literal
  return .ofWidth sig.result dest (← evaluate op sig.result a b)

/-- What an operation on doubles writes. -/
def planDouble (f : Frame) (op : BinaryOp) (dest lhs rhs : Slot) : Except Fault Write := do
  let a ← f.readDouble lhs
  let b ← f.readDouble rhs
  let double := Binary.Format.double
  let result ← match op with
    | .add => pure (double.add a b)
    | .sub => pure (double.sub a b)
    | .mul => pure (double.mul a b)
    | .div => pure (double.div a b)
    | .rem => pure (double.rem a b)
    | op => .error (.unknownInstruction (op.text ++ "-double"))
  return .wide dest (.ofDoubleBits result)

/-- What an instruction writes, as far as that is known before its class is set up. -/
def plan (p : Program) (s : State) (f : Frame) : Instruction → Except Fault Write
  | .const dest literal => return .single dest (.int (← narrowLiteral literal).toInt32)
  | .constWide dest literal => return .wide dest (.long (← narrowLiteral literal))
  | .constString dest text => .ok (.single dest (.object (s.intern text).2))
  | .move kind dest src => do Write.ofKind s.heap kind dest (← f.readKind s.heap kind src)
  | .moveResult kind dest =>
    match s.lastReturn? with
    | some v => Write.ofKind s.heap kind dest v
    | none => mismatch .noResult
  | .compareLong dest a b => do
    let a ← f.readLong a
    let b ← f.readLong b
    return .single dest (orderValue (compare a.toInt b.toInt))
  | .compareDouble dest a b => do
    let a ← f.readDouble a
    let b ← f.readDouble b
    return .single dest (orderValue ((Binary.Format.double.compare? a b).getD .gt))
  | .convert conversion dest src => planConvert f conversion dest src
  | .arithmetic op sig dest lhs rhs => planInteger f op sig dest lhs rhs
  | .doubleArithmetic op dest lhs rhs => planDouble f op dest lhs rhs
  | .newArray dest length type => do
    let n ← f.readInt length
    if n.toInt < 0 then .error (.outOfBounds n.toInt 0)
    else
      match type.element? with
      | none => mismatch (.newArrayOf type)
      | some _ => return .single dest (.array s.heap.arrays.size)
  | .arrayGet kind dest array index => do
    let r ← (← f.read array).asArray
    let i ← f.readInt index
    let a ← s.heap.array r
    if kind.accepts a.elementType then Write.ofKind s.heap kind.valueKind dest (← a.get i.toInt)
    else mismatch (.arrayRead kind (s.heap.arrayText r))
  | .arrayLength dest array => do
    let a ← s.heap.array (← (← f.read array).asArray)
    return .single dest (.int (Int32.ofNat a.values.size))
  | .newInstance dest className => return .single dest (.object (← (newObject p s className).2))
  -- the others write nothing
  | i => (fun _ => .nothing) <$> (exec p s f i).2

/-- What an instruction writes once its class is set up. -/
def planAccess (p : Program) (s : State) (f : Frame) : Instruction → Except Fault Write
  | .staticGet kind dest id => do
    let place ← staticField p kind id
    match s.static? place.1.id place.2.name with
    | some v => Write.ofKind s.heap kind.valueKind dest v
    | none => .error (.fieldNotFound id.text)
  | .instanceGet kind dest object id =>
    match lookupInstanceField p id with
    | .found (_, field) => do
      let fields ← (← s.heap.object (← (← f.read object).asObject)).fields
      -- the first value of a field that nobody has written may be a new object
      let (s, v) := match fields.get? field.name with
        | some v => (s, v)
        | none => s.defaultValue field.type
      Write.ofKind s.heap kind.valueKind dest v
    | .failed e => .error e
    | .endless => .ok .nothing
  | i => (fun _ => .nothing) <$> (access p s f i).2

/-- The frame with which a run goes on after an instruction of `f`; a frame that is left is not looked at
any more. -/
def Flow.frame (f : Frame) : Flow → Frame
  | .next f' | .jump f' _ | .call f' _ _ _ | .needClass f' _ => f'
  | .leave _ | .endless => f

/-- The frame after an instruction of `f`. -/
def frameAfter (f : Frame) (flow : Except Fault Flow) : Except Fault Frame :=
  Flow.frame f <$> flow

variable {p : Program} {s : State} {f : Frame} {i : Instruction}

/-- The frame after an instruction that only writes slots. -/
theorem frameAfter_proceed (x : Except Fault Frame) : frameAfter f (proceed s x).2 = x := by
  cases x <;> rfl

/-- The frame after an instruction that may fail before it goes on. -/
theorem frameAfter_attempt (r : Except Fault α) (k : α → State × Except Fault Flow) :
    frameAfter f (attempt s r k).2 = r >>= fun a => frameAfter f (k a).2 := by
  cases r <;> rfl

/-- A conversion plans, then writes. -/
theorem convert_plan (f : Frame) (conversion : Conversion) (dest src : Slot) :
    convert f conversion dest src = planConvert f conversion dest src >>= Write.apply f := by
  cases conversion <;> simp only [convert, planConvert, bind_assoc, pure_bind] <;> rfl

/-- An operation on integers plans, then writes. -/
theorem integerOperation_plan (f : Frame) (op : BinaryOp) (sig : Signature) (dest lhs : Slot)
    (rhs : Operand) : integerOperation f op sig dest lhs rhs =
      planInteger f op sig dest lhs rhs >>= Write.apply f := by
  cases rhs <;>
    simp only [integerOperation, planInteger, bind_assoc, pure_bind, Write.writeWidth_eq]

/-- An operation on doubles plans, then writes. -/
theorem doubleOperation_plan (f : Frame) (op : BinaryOp) (dest lhs rhs : Slot) :
    doubleOperation f op dest lhs rhs = planDouble f op dest lhs rhs >>= Write.apply f := by
  cases op <;> simp only [doubleOperation, planDouble, bind_assoc, pure_bind] <;> rfl

/-- No array is made for the first value of an element. -/
theorem arrays_defaultValue (s : State) (type : Descriptor) :
    (s.defaultValue type).1.heap.arrays = s.heap.arrays := by
  unfold State.defaultValue
  split
  · exact arrays_intern s ""
  · rfl

/-- A new array is planned before it is made: its reference is the number of the arrays so far. -/
theorem newArray_plan (p : Program) (s : State) (f : Frame) (dest length : Slot)
    (type : Descriptor) : frameAfter f (newArray s f dest length type).2 =
      plan p s f (.newArray dest length type) >>= Write.apply f := by
  rw [newArray, frameAfter_attempt, plan, bind_assoc]
  refine bind_congr fun n => ?_
  by_cases hn : n.toInt < 0
  · rw [if_pos hn, if_pos hn]
    rfl
  · rw [if_neg hn, if_neg hn]
    cases type.element? with
    | none => rfl
    | some element =>
      -- the first value may be interned, which makes a string and no array
      have hplace : (if n.toInt = 0 then (s, .int 0) else s.defaultValue element).1.heap.arrays =
          s.heap.arrays := by
        split
        · rfl
        · exact arrays_defaultValue s element
      show frameAfter f (proceed _ (f.write dest (.array _))).2 =
        f.write dest (.array s.heap.arrays.size)
      rw [frameAfter_proceed, ← hplace]
      rfl

/-- Reading an element of an array plans, then writes. -/
theorem arrayGet_plan (p : Program) (s : State) (f : Frame) (kind : AccessKind)
    (dest array index : Slot) : arrayGet s.heap f kind dest array index =
      plan p s f (.arrayGet kind dest array index) >>= Write.apply f := by
  simp only [arrayGet, plan, bind_assoc]
  refine bind_congr fun v => bind_congr fun r => bind_congr fun i => bind_congr fun a => ?_
  split
  · simp only [bind_assoc, Write.writeKind_eq]
  · rfl

/-! ## Instructions that write nothing -/

/-- The frame is as it was before, if the run goes on. -/
def Stays (f : Frame) (x : Except Fault Flow) : Prop :=
  ∀ flow, x = .ok flow → flow.frame f = f

/-- A flow keeps the frame if its frame is the old one. -/
@[simp] theorem stays_ok (f : Frame) (flow : Flow) : Stays f (.ok flow) ↔ flow.frame f = f := by
  simp [Stays]

/-- `stays_ok` for a flow given by `pure`. -/
@[simp] theorem stays_pure (f : Frame) (flow : Flow) : Stays f (pure flow) ↔ flow.frame f = f :=
  stays_ok f flow

/-- A failure does not go on with another frame. -/
@[simp] theorem stays_error (f : Frame) (e : Fault) : Stays f (.error e) := by
  intro flow h
  cases h

/-- A mismatch does not go on with another frame. -/
@[simp] theorem stays_mismatch (f : Frame) (cause : Mismatch) : Stays f (mismatch cause) :=
  stays_error f _

/-- What comes first in a sequence gives no frame, so only the rest counts. -/
@[simp] theorem stays_bind (f : Frame) (x : Except Fault α) (k : α → Except Fault Flow) :
    Stays f (x >>= k) ↔ ∀ a, x = .ok a → Stays f (k a) := by
  cases x <;> simp [Stays, bind, Except.bind]

/-- A mapped computation keeps the frame if each flow that it can give does. -/
@[simp] theorem stays_map (f : Frame) (g : α → Flow) (x : Except Fault α) :
    Stays f (g <$> x) ↔ ∀ a, x = .ok a → (g a).frame f = f := by
  cases x <;> simp [Stays, Functor.map, Except.map]

/-- An attempt keeps the frame if what it goes on with does. -/
theorem stays_attempt {r : Except Fault α} {k : α → State × Except Fault Flow}
    (hk : ∀ a, Stays f (k a).2) : Stays f (attempt s r k).2 := by
  cases r with
  | error e => exact stays_error f e
  | ok a => exact hk a

/-- A branch keeps the frame, whether it is taken or not. -/
@[simp] theorem stays_branch (f : Frame) (taken : Bool) (label : String) :
    Stays f (branch f taken label) := by
  cases taken <;> simp [branch, Flow.frame]

/-- A branch on one value keeps the frame. -/
theorem stays_branchZero (h : Heap) (f : Frame) (cmp : Comparison) (src : Slot) (label : String) :
    Stays f (branchZero h f cmp src label) := by
  simp only [branchZero, stays_bind]
  intro v _
  -- integers are compared, references can be tested for equality, all else is refused
  split
  · exact stays_branch f _ label
  · split <;> simp

/-- A branch on two values keeps the frame. -/
theorem stays_branchTest (h : Heap) (f : Frame) (cmp : Comparison) (a b : Slot) (label : String) :
    Stays f (branchTest h f cmp a b label) := by
  simp only [branchTest, stays_bind]
  intro x _ y _
  split
  · exact stays_branch f _ label
  · split <;> simp

/-- A switch keeps the frame. -/
theorem stays_switch (f : Frame) (src : Slot) (table : String) : Stays f (switch f src table) := by
  simp only [switch, stays_bind]
  intro key _
  split
  · exact stays_error f _
  · split <;> simp [Flow.frame]

/-- Asking for the class of a field keeps the frame. -/
theorem stays_needFieldClass (p : Program) (f : Frame) (kind : AccessKind) (id : FieldId) :
    Stays f (needFieldClass p f kind id) := by
  unfold needFieldClass
  split <;> simp [Flow.frame]

/-- A call keeps the frame of the caller. -/
theorem stays_dispatch (p : Program) (s : State) (f : Frame) (kind : InvokeKind) (args : List Slot)
    (id : MethodId) : Stays f (dispatch p s f kind args id).2 := by
  refine stays_attempt fun values => ?_
  cases kind with
  -- the frame of the caller is handed on as it is, whatever is called
  | static | direct => exact stays_attempt fun m => (stays_ok f _).2 rfl
  | virtual =>
    refine stays_attempt fun c => ?_
    split <;> simp [Flow.frame]

/-- An instruction that keeps the frame plans to write nothing. -/
theorem stays_plan {x : Except Fault Flow} (hx : Stays f x) :
    frameAfter f x = (fun _ => Write.nothing) <$> x >>= Write.apply f := by
  cases x with
  | error e => rfl
  | ok flow => exact congrArg Except.ok (hx flow rfl)

/-! ## Planning and writing -/

/-- An instruction plans what it writes, and then writes it. -/
theorem exec_plan (p : Program) (s : State) (f : Frame) (i : Instruction) :
    frameAfter f (exec p s f i).2 = plan p s f i >>= Write.apply f := by
  cases i with
  | const dest literal | constWide dest literal =>
    rw [exec, frameAfter_proceed, plan, bind_assoc]
    rfl
  | constString dest text => exact frameAfter_proceed _
  | move kind dest src =>
    rw [exec, frameAfter_proceed, plan, bind_assoc]
    simp only [Write.writeKind_eq]
  | moveResult kind dest =>
    rw [exec, plan]
    cases s.lastReturn? with
    | none => rfl
    | some v => exact (frameAfter_proceed _).trans (Write.writeKind_eq f s.heap kind dest v)
  | compareLong dest a b =>
    rw [exec, frameAfter_proceed, plan]
    simp only [bind_assoc, pure_bind]
    rfl
  | compareDouble dest a b =>
    rw [exec, frameAfter_proceed, plan, compareDoubles]
    simp only [bind_assoc, pure_bind]
    rfl
  | convert conversion dest src => rw [exec, frameAfter_proceed, convert_plan, plan]
  | arithmetic op sig dest lhs rhs => rw [exec, frameAfter_proceed, integerOperation_plan, plan]
  | doubleArithmetic op dest lhs rhs => rw [exec, frameAfter_proceed, doubleOperation_plan, plan]
  | newArray dest length type => exact newArray_plan p s f dest length type
  | arrayGet kind dest array index => rw [exec, frameAfter_proceed, arrayGet_plan p]
  | arrayLength dest array =>
    rw [exec, frameAfter_proceed, plan]
    simp only [bind_assoc, pure_bind]
    rfl
  | newInstance dest className =>
    rw [exec, plan]
    obtain ⟨s', r⟩ := newObject p s className
    cases r with
    | error e => rfl
    | ok r => exact frameAfter_proceed _
  -- from here on the instructions that write nothing; a field access has only asked for its class
  | nop | staticGet | staticPut => rfl
  | returnVoid =>
    refine stays_plan (show Stays f (returnVoid f) from ?_)
    unfold returnVoid
    split <;> simp [Flow.frame]
  | returnValue kind src =>
    refine stays_plan (show Stays f (returnValue s.heap f kind src) from ?_)
    unfold returnValue
    split <;> simp [Flow.frame]
  | instanceGet kind _ _ id | instancePut kind _ _ id =>
    exact stays_plan (stays_needFieldClass p f kind id)
  | invoke kind args id => exact stays_plan (stays_dispatch p s f kind args id)
  | ifZero cmp src label => exact stays_plan (stays_branchZero s.heap f cmp src label)
  | ifTest cmp a b label => exact stays_plan (stays_branchTest s.heap f cmp a b label)
  | goto label => exact stays_plan (stays_branch f true label)
  | packedSwitch src table => exact stays_plan (stays_switch f src table)
  | arrayPut | monitorEnter | monitorExit =>
    exact stays_plan (stays_attempt fun _ => (stays_ok f _).2 rfl)
  | checkCast src type => exact stays_plan (by simp [exec, Flow.frame])
  | unsupported mnemonic => rfl

/-- So does the second half of a field access. -/
theorem access_plan (p : Program) (s : State) (f : Frame) (i : Instruction) :
    frameAfter f (access p s f i).2 = planAccess p s f i >>= Write.apply f := by
  cases i with
  | staticGet kind dest id =>
    rw [access, frameAfter_proceed, planAccess, staticGet, bind_assoc]
    refine bind_congr fun place => ?_
    dsimp only
    cases s.static? place.1.id place.2.name with
    | none => rfl
    | some v => exact Write.writeKind_eq f s.heap kind.valueKind dest v
  | instanceGet kind dest object id =>
    rw [access, planAccess]
    cases lookupInstanceField p id with
    | failed e => rfl
    | endless => rfl
    | found place =>
      dsimp only
      rw [instanceGet, frameAfter_attempt]
      simp only [bind_assoc]
      -- the object is found in the same way on both sides; then the field may never have been written
      refine bind_congr fun v => bind_congr fun r => bind_congr fun o => bind_congr fun fields => ?_
      cases fields.get? place.2.name with
      | none => exact (frameAfter_proceed _).trans (Write.writeKind_eq f _ kind.valueKind dest _)
      | some v => exact (frameAfter_proceed _).trans (Write.writeKind_eq f _ kind.valueKind dest v)
  | staticPut => exact stays_plan (stays_attempt fun _ => (stays_ok f _).2 rfl)
  | instancePut kind src object id =>
    refine stays_plan ?_
    rw [access]
    split
    · exact stays_attempt fun _ => (stays_ok f _).2 rfl
    · exact stays_error f _
    · exact (stays_ok f _).2 rfl
  | _ => rfl

/-! ## The destination -/

/-- What is planned stays within the slots. -/
def Plans (slots : List Slot) (x : Except Fault Write) : Prop :=
  ∀ w, x = .ok w → w.slots ⊆ slots

variable {slots : List Slot}

/-- A write stays within the slots if its slots are among them. -/
@[simp] theorem plans_ok (w : Write) : Plans slots (.ok w) ↔ w.slots ⊆ slots := by
  simp [Plans]

/-- `plans_ok` for a write given by `pure`. -/
@[simp] theorem plans_pure (w : Write) : Plans slots (pure w) ↔ w.slots ⊆ slots :=
  plans_ok w

/-- A failure writes nothing. -/
@[simp] theorem plans_error (e : Fault) : Plans slots (.error e) := by
  intro w h
  cases h

/-- A mismatch writes nothing. -/
@[simp] theorem plans_mismatch (cause : Mismatch) : Plans slots (mismatch cause) :=
  plans_error _

/-- What comes first in a sequence writes nothing, so only the rest counts. -/
@[simp] theorem plans_bind (x : Except Fault α) (k : α → Except Fault Write) :
    Plans slots (x >>= k) ↔ ∀ a, x = .ok a → Plans slots (k a) := by
  cases x <;> simp [Plans, bind, Except.bind]

/-- A mapped computation stays within the slots if each write that it can give does. -/
@[simp] theorem plans_map (g : α → Write) (x : Except Fault α) :
    Plans slots (g <$> x) ↔ ∀ a, x = .ok a → (g a).slots ⊆ slots := by
  cases x <;> simp [Plans, Functor.map, Except.map]

/-- A value of a kind stays within the slots of the kind. -/
@[simp] theorem plans_ofKind (h : Heap) (kind : ValueKind) (slot : Slot) (v : Value) :
    Plans (kind.slots slot) (Write.ofKind h kind slot v) := by
  intro w hw
  rw [Write.slots_ofKind hw]
  exact List.Subset.refl _

/-- Writing nothing stays within any slots. -/
theorem plans_nothing (x : Except Fault Flow) : Plans slots ((fun _ => Write.nothing) <$> x) := by
  simp [Write.slots]

/-- A conversion writes its destination only. -/
theorem plans_convert (f : Frame) (conversion : Conversion) (dest src : Slot) :
    Plans (Instruction.convert conversion dest src).footprint (planConvert f conversion dest src) := by
  cases conversion <;> simp [planConvert, Write.slots, Instruction.footprint]

/-- An operation on integers writes its destination only, one slot or two. -/
theorem plans_integer (f : Frame) (op : BinaryOp) (sig : Signature) (dest lhs : Slot)
    (rhs : Operand) : Plans (sig.result.slots dest) (planInteger f op sig dest lhs rhs) := by
  cases rhs <;> simp [planInteger, Write.slots_ofWidth]

/-- An operation on doubles writes its destination and the next slot only. -/
theorem plans_double (f : Frame) (op : BinaryOp) (dest lhs rhs : Slot) :
    Plans [dest, dest.next] (planDouble f op dest lhs rhs) := by
  cases op <;> simp [planDouble, Write.slots]

/-- An instruction plans to write into its destination only. -/
theorem plan_slots (p : Program) (s : State) (f : Frame) (i : Instruction) :
    Plans i.footprint (plan p s f i) := by
  -- an instruction that writes has its destination as footprint, the others are the last case
  cases i with
  | const | constWide | compareLong | compareDouble | arrayLength | newInstance =>
    simp [plan, Write.slots, Instruction.footprint]
  | constString dest text => exact (plans_ok _).2 (List.Subset.refl _)
  | move kind dest src => simp [plan, Instruction.footprint]
  | moveResult kind dest =>
    simp only [plan, Instruction.footprint]
    split <;> simp
  | convert conversion dest src => exact plans_convert f conversion dest src
  | arithmetic op sig dest lhs rhs => exact plans_integer f op sig dest lhs rhs
  | doubleArithmetic op dest lhs rhs => exact plans_double f op dest lhs rhs
  | newArray dest length type =>
    simp only [plan, plans_bind]
    intro n _
    split
    · exact plans_error _
    · split <;> simp [Write.slots, Instruction.footprint]
  | arrayGet kind dest array index =>
    simp only [plan, plans_bind]
    intro v _ r _ n _ a _
    split <;> simp [Instruction.footprint]
  | _ => exact plans_nothing _

/-- So does the second half of a field access. -/
theorem planAccess_slots (p : Program) (s : State) (f : Frame) (i : Instruction) :
    Plans i.footprint (planAccess p s f i) := by
  cases i with
  | staticGet kind dest id =>
    simp only [planAccess, plans_bind]
    intro place _
    split <;> simp [Instruction.footprint]
  | instanceGet kind dest object id =>
    simp only [planAccess]
    split
    · simp [Instruction.footprint]
    · exact plans_error _
    · simp [Write.slots]
  | _ => exact plans_nothing _

/-! ## What a write leaves alone -/

/-- What is in a slot: nothing if there is no such slot, `some none` if it was never written. -/
def Frame.cell (f : Frame) (slot : Slot) : Option (Option Value) :=
  (f.file slot).cells[slot.index]?

/-- The frame with other slots of the kind of a slot. -/
def Frame.setFile (f : Frame) (slot : Slot) (file : Slots) : Frame :=
  match slot with
  | .register _ => { f with registers := file }
  | .parameter _ => { f with parameters := file }

/-- Changing the slots of a kind is putting the changed ones in their place. -/
theorem update_eq (f : Frame) (slot : Slot) (change : Slots → Except Fault Slots) :
    f.update slot change = f.setFile slot <$> change (f.file slot) := by
  cases slot <;> rfl

/-- The frames have the same slots, and the same in all slots but the given ones. -/
structure Frame.SameOutside (slots : List Slot) (f f' : Frame) : Prop where
  registers : f'.registers.size = f.registers.size
  parameters : f'.parameters.size = f.parameters.size
  cell : ∀ slot, slot ∉ slots → f'.cell slot = f.cell slot

/-- A frame is the same as itself. -/
theorem Frame.SameOutside.refl (slots : List Slot) (f : Frame) : f.SameOutside slots f :=
  ⟨rfl, rfl, fun _ _ => rfl⟩

/-- What is the same outside of some slots is the same outside of more. -/
theorem Frame.SameOutside.mono {slots' : List Slot} {f' : Frame} (h : f.SameOutside slots f')
    (hslots : slots ⊆ slots') : f.SameOutside slots' f' where
  registers := h.registers
  parameters := h.parameters
  cell slot hslot := h.cell slot fun hmem => hslot (hslots hmem)

/-- A change of the slots of one kind leaves the other kind alone. -/
theorem sameOutside_update {slot : Slot} {change : Slots → Except Fault Slots} {f' : Frame}
    (h : f.update slot change = .ok f')
    (hchange : ∀ file, change (f.file slot) = .ok file → file.size = (f.file slot).size ∧
      ∀ index, slot.withIndex index ∉ slots → file.cells[index]? = (f.file slot).cells[index]?) :
    f.SameOutside slots f' := by
  rw [update_eq] at h
  obtain ⟨file, hfile, rfl⟩ := map_eq_ok.1 h
  obtain ⟨hsize, hcells⟩ := hchange file hfile
  -- a register and a parameter of the same index are different slots
  cases slot with
  | register i =>
    refine ⟨hsize, rfl, fun slot hslot => ?_⟩
    cases slot with
    | register j => exact hcells j hslot
    | parameter j => rfl
  | parameter i =>
    refine ⟨rfl, hsize, fun slot hslot => ?_⟩
    cases slot with
    | register j => rfl
    | parameter j => exact hcells j hslot

/-- What a write to one slot does: the slot is there, the value is no 64-bit one, and only the slot changes.
-/
theorem Slots.set_ok {file file' : Slots} {index : Nat} {v : Value}
    (h : file.set index v = .ok file') : index < file.size ∧ v.variant ≠ .long ∧
      file' = ⟨file.cells.setIfInBounds index (some v)⟩ := by
  unfold Slots.set at h
  split at h
  · next hindex =>
    split at h
    · cases h
    · next hv => exact ⟨hindex, hv, (Except.ok.inj h).symm⟩
  · cases h

/-- What a write to two slots does: both are there, and they get the halves of a 64-bit value. -/
theorem Slots.setWide_ok {file file' : Slots} {index : Nat} {v : Value}
    (h : file.setWide index v = .ok file') : ∃ n, v = .long n ∧ index + 1 < file.size ∧
      file' = ⟨(file.cells.setIfInBounds index (some (.int (Value.highHalf n)))).setIfInBounds
        (index + 1) (some (.int (Value.lowHalf n)))⟩ := by
  obtain ⟨halves, hsplit, h⟩ := bind_eq_ok.1 h
  obtain ⟨n, hn, hsplit⟩ := bind_eq_ok.1 hsplit
  obtain rfl := Except.ok.inj hsplit
  dsimp only at h
  split at h
  · next hindex =>
    refine ⟨n, ?_, hindex, (Except.ok.inj h).symm⟩
    -- only a 64-bit value has two halves
    cases v with
    | long n' => exact congrArg Value.long (Except.ok.inj hn)
    | int | object | array => cases hn
  · cases h

/-- A write leaves all other slots alone. -/
theorem Write.sameOutside {w : Write} {f' : Frame} (h : w.apply f = .ok f') :
    f.SameOutside w.slots f' := by
  cases w with
  | nothing =>
    obtain rfl := Except.ok.inj h
    exact .refl _ f
  | single slot v =>
    refine sameOutside_update h fun file hfile => ?_
    obtain ⟨_, _, rfl⟩ := Slots.set_ok hfile
    refine ⟨Array.size_setIfInBounds, fun index hslot => ?_⟩
    -- a slot of the same index and the same kind would be the one written
    have hindex : slot.index ≠ index := by
      rintro rfl
      exact hslot (by simp [Write.slots, Slot.withIndex_index])
    exact Array.getElem?_setIfInBounds_ne hindex
  | wide slot v =>
    refine sameOutside_update h fun file hfile => ?_
    obtain ⟨n, _, _, rfl⟩ := Slots.setWide_ok hfile
    refine ⟨by simp [Slots.size], fun index hslot => ?_⟩
    have hfirst : slot.index ≠ index := by
      rintro rfl
      exact hslot (by simp [Write.slots, Slot.withIndex_index])
    have hsecond : slot.index + 1 ≠ index := by
      rintro rfl
      exact hslot (by simp [Write.slots, Slot.next])
    exact (Array.getElem?_setIfInBounds_ne hsecond).trans (Array.getElem?_setIfInBounds_ne hfirst)

/-- What an instruction leaves alone. -/
theorem exec_sameOutside {flow : Flow} (h : (exec p s f i).2 = .ok flow) :
    f.SameOutside i.footprint (flow.frame f) := by
  have hplan := exec_plan p s f i
  -- the flow succeeds, so the plan and the write both did
  rw [h] at hplan
  obtain ⟨w, hw, happly⟩ := bind_eq_ok.1 hplan.symm
  exact (Write.sameOutside happly).mono (plan_slots p s f i w hw)

/-- What the second half of a field access leaves alone. -/
theorem access_sameOutside {flow : Flow} (h : (access p s f i).2 = .ok flow) :
    f.SameOutside i.footprint (flow.frame f) := by
  have hplan := access_plan p s f i
  rw [h] at hplan
  obtain ⟨w, hw, happly⟩ := bind_eq_ok.1 hplan.symm
  exact (Write.sameOutside happly).mono (planAccess_slots p s f i w hw)

end Machine

end Smali
