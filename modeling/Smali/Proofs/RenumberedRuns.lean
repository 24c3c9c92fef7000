import Smali.Proofs.Renumbering
import Smali.Proofs.Session

/-!
# Runs under other numbers

A machine does the same whatever numbers the classes of its program have. Instructions, host methods and
steps are gone through one after the other; each does to the renumbered state what it does to the state,
with the same flow, reply or fault. Host methods may be registered by others, so for a registry this is a
property, `Natives.Blind`; the standard library has it.

## Key results

- `exec_renumber`, `access_renumber`: instructions do the same under other numbers
- `standard_blind`: so do the host methods of the standard library
- `step_renumber`, `run_renumber`: so do steps and runs
- `history_renumber`: sessions go the same way, moment by moment
-/

namespace Smali.Machine

variable {ρ : Nat → Nat} {p q : Program}

/-! ## Frames

A frame looks at the heap only to show a value in a message. -/

namespace Frame

/-- A reference is read from the slot alone. -/
theorem readReference_renumber (f : Frame) (h : Heap) (slot : Slot) :
    f.readReference (h.renumber ρ) slot = f.readReference h slot := by
  simp only [readReference, Heap.shown_renumber]

/-- A value of a kind is read from the slot alone. -/
@[simp] theorem readKind_renumber (f : Frame) (h : Heap) (kind : ValueKind) (slot : Slot) :
    f.readKind (h.renumber ρ) kind slot = f.readKind h kind slot := by
  simp only [readKind, readReference_renumber]

/-- A value of a kind is written to the slot alone. -/
@[simp] theorem writeKind_renumber (f : Frame) (h : Heap) (kind : ValueKind) (slot : Slot) (v : Value) :
    f.writeKind (h.renumber ρ) kind slot v = f.writeKind h kind slot v := by
  simp only [writeKind, Heap.shown_renumber]

/-- What an accessor stores is read from the slot alone. -/
@[simp] theorem readAccess_renumber (f : Frame) (h : Heap) (kind : AccessKind) (slot : Slot) :
    f.readAccess (h.renumber ρ) kind slot = f.readAccess h kind slot := by
  simp only [readAccess, readReference_renumber]

end Frame

/-! ## Instructions -/

/-- Going on with the same frame. -/
theorem proceed_renumber {x x' : Except Fault Frame} (s : State) (hx : x' = x) :
    proceed (s.renumber ρ) x' = renumbered ρ (proceed s x) := by
  rw [hx]
  rfl

/-- What may fail comes to the same, up to the numbers, and so does what follows. -/
theorem attempt_renumber {x : Except Fault α} {x' : Except Fault β} {g : α → β}
    {k : α → State × Except Fault Flow} {k' : β → State × Except Fault Flow} (s : State)
    (hx : x' = g <$> x) (hk : ∀ a, k' (g a) = renumbered ρ (k a)) :
    attempt (s.renumber ρ) x' k' = renumbered ρ (attempt s x k) := by
  rw [hx]
  cases x with
  | ok a => exact hk a
  | error e => rfl

/-- `attempt_renumber` for what comes to the very same. -/
theorem attempt_renumber_same {x x' : Except Fault α} {k k' : α → State × Except Fault Flow}
    (s : State) (hx : x' = x) (hk : ∀ a, k' a = renumbered ρ (k a)) :
    attempt (s.renumber ρ) x' k' = renumbered ρ (attempt s x k) := by
  rw [hx]
  cases x with
  | ok a => exact hk a
  | error e => rfl

/-- A branch on one value looks at the heap only for its message. -/
theorem branchZero_renumber (h : Heap) (f : Frame) (cmp : Comparison) (src : Slot) (label : String) :
    branchZero (h.renumber ρ) f cmp src label = branchZero h f cmp src label := by
  simp only [branchZero, Heap.shown_renumber]

/-- A branch on two values looks at the heap only for its message. -/
theorem branchTest_renumber (h : Heap) (f : Frame) (cmp : Comparison) (a b : Slot) (label : String) :
    branchTest (h.renumber ρ) f cmp a b label = branchTest h f cmp a b label := by
  simp only [branchTest, Heap.shown_renumber]

/-- A new array has the same elements and gets the same reference. -/
theorem newArray_renumber (s : State) (f : Frame) (dest length : Slot) (type : Descriptor) :
    newArray (s.renumber ρ) f dest length type = renumbered ρ (newArray s f dest length type) := by
  refine attempt_renumber_same s rfl fun n => ?_
  split
  · rfl
  · split
    · rfl
    -- an array with elements may need the empty string, which is interned in both states
    · rw [State.defaultValue_renumber]
      by_cases hzero : n.toInt = 0
      · simp only [hzero, ↓reduceIte]
        rfl
      · simp only [hzero, ↓reduceIte]
        rfl

/-- An element of an array is the same value. -/
theorem arrayGet_renumber (h : Heap) (f : Frame) (kind : AccessKind) (dest array index : Slot) :
    arrayGet (h.renumber ρ) f kind dest array index = arrayGet h f kind dest array index := by
  simp only [arrayGet, Heap.array_renumber, Frame.writeKind_renumber, Heap.arrayText_renumber]

/-- Whether a value fits into a location does not depend on the heap. -/
@[simp] theorem checkFits_renumber (h : Heap) (v : Value) (type : Descriptor) :
    checkFits (h.renumber ρ) v type = checkFits h v type := by
  simp only [checkFits, Heap.shown_renumber]

/-- A write to an element of an array comes to the same. -/
theorem arrayPut_renumber (h : Heap) (f : Frame) (kind : AccessKind) (src array index : Slot) :
    arrayPut (h.renumber ρ) f kind src array index =
      Heap.renumber ρ <$> arrayPut h f kind src array index := by
  simp only [arrayPut, Heap.array_renumber, Frame.readAccess_renumber, checkFits_renumber,
    Heap.setElement_renumber, Heap.arrayText_renumber, map_bind]
  -- up to the check of the element type nothing is written
  refine bind_congr fun v => bind_congr fun r => bind_congr fun i => bind_congr fun a => ?_
  split
  · simp only [map_bind]
  · rfl

/-- A cast looks at the class names and the element types, which stay. -/
theorem checkCast_renumber (h : Heap) (f : Frame) (src : Slot) (type : Descriptor) :
    checkCast (h.renumber ρ) f src type = checkCast h f src type := by
  simp only [checkCast, Heap.object_renumber, Heap.array_renumber, Heap.shown_renumber, bind_map_left]
  rfl

/-! ### Fields -/

/-- An access to an instance field asks for the same class. -/
theorem needFieldClass_renumber (h : p.Renumbers ρ q) (f : Frame) (kind : AccessKind) (id : FieldId) :
    needFieldClass q f kind id = needFieldClass p f kind id := by
  unfold needFieldClass
  rw [lookupInstanceField_renumber h]
  cases lookupInstanceField p id <;> rfl

/-- The static field that an accessor touches is the same, in the renumbered class. -/
theorem staticField_renumber (h : p.Renumbers ρ q) (kind : AccessKind) (id : FieldId) :
    staticField q kind id = Prod.map (·.renumber ρ) (fun f => f) <$> staticField p kind id := by
  unfold staticField
  rw [lookupStaticField_renumber h, bind_map_left, map_bind]
  refine bind_congr fun place => ?_
  rw [map_bind]
  rfl

/-- Reading a static field gives the same frame. -/
theorem staticGet_renumber (h : p.Renumbers ρ q) (s : State) (f : Frame) (kind : AccessKind)
    (dest : Slot) (id : FieldId) :
    staticGet q (s.renumber ρ) f kind dest id = staticGet p s f kind dest id := by
  unfold staticGet
  rw [staticField_renumber h, bind_map_left]
  refine bind_congr fun place => ?_
  -- the value is found under the new number of the class
  have hvalue := State.static?_renumber h.injective s place.1.id place.2.name
  have hwrite (v : Value) := Frame.writeKind_renumber (ρ := ρ) f s.heap kind.valueKind dest v
  simp only [Prod.map]
  rw [show (place.1.renumber ρ).id = ρ place.1.id from rfl, hvalue]
  cases s.static? place.1.id place.2.name with
  | none => rfl
  | some v => exact hwrite v

/-- Writing a static field comes to the same. -/
theorem staticPut_renumber (h : p.Renumbers ρ q) (s : State) (f : Frame) (kind : AccessKind)
    (src : Slot) (id : FieldId) :
    staticPut q (s.renumber ρ) f kind src id = State.renumber ρ <$> staticPut p s f kind src id := by
  unfold staticPut
  rw [staticField_renumber h, bind_map_left, map_bind]
  refine bind_congr fun place => ?_
  simp only [State.heap_renumber, Frame.readAccess_renumber, checkFits_renumber, map_bind, Prod.map]
  refine bind_congr fun v => bind_congr fun _ => ?_
  exact congrArg Except.ok (State.setStatic_renumber h.injective s place.1.id place.2.name v)

/-- Reading a field of an object comes to the same. -/
theorem instanceGet_renumber (s : State) (f : Frame) (kind : AccessKind) (dest object : Slot)
    (field : Field) :
    instanceGet (s.renumber ρ) f kind dest object field =
      renumbered ρ (instanceGet s f kind dest object field) := by
  refine attempt_renumber_same s ?_ fun fields => ?_
  · simp only [State.heap_renumber, Heap.object_renumber, bind_map_left, Object.fields_renumber]
  · cases fields.get? field.name with
    | some v => exact proceed_renumber s (Frame.writeKind_renumber f s.heap kind.valueKind dest v)
    -- a field that nobody has written has the value of its type
    | none =>
      dsimp only
      rw [State.defaultValue_renumber]
      exact proceed_renumber _ (Frame.writeKind_renumber f _ kind.valueKind dest _)

/-- Writing a field of an object comes to the same. -/
theorem instancePut_renumber (h : Heap) (f : Frame) (kind : AccessKind) (src object : Slot)
    (field : Field) :
    instancePut (h.renumber ρ) f kind src object field =
      Heap.renumber ρ <$> instancePut h f kind src object field := by
  simp only [instancePut, Frame.readAccess_renumber, checkFits_renumber, Heap.setField_renumber,
    map_bind]

/-- The second half of a field access does the same under other numbers. -/
theorem access_renumber (h : p.Renumbers ρ q) (s : State) (f : Frame) (i : Instruction) :
    access q (s.renumber ρ) f i = renumbered ρ (access p s f i) := by
  cases i with
  | staticGet kind dest id =>
    rw [access, access, staticGet_renumber h]
    rfl
  | staticPut kind src id =>
    exact attempt_renumber s (staticPut_renumber h s f kind src id) fun s => rfl
  | instanceGet kind dest object id =>
    rw [access, access, lookupInstanceField_renumber h]
    cases lookupInstanceField p id with
    | found place => exact instanceGet_renumber s f kind dest object place.2
    | failed e => rfl
    | endless => rfl
  | instancePut kind src object id =>
    rw [access, access, lookupInstanceField_renumber h]
    cases lookupInstanceField p id with
    | found place =>
      exact attempt_renumber s (instancePut_renumber s.heap f kind src object place.2) fun heap => rfl
    | failed e => rfl
    | endless => rfl
  | _ => rfl

/-! ### Calls and objects -/

/-- The search for the target of a virtual call starts at the same class. -/
theorem runtimeClass_renumber (h : Heap) (id : MethodId) (args : List Value) :
    runtimeClass (h.renumber ρ) id args = runtimeClass h id args := by
  unfold runtimeClass
  split
  · rw [Heap.object_renumber, bind_map_left]
    rfl
  · rfl
  · rw [Heap.shown_renumber]
  · rfl

/-- A call has the same target, receiver and arguments. -/
theorem dispatch_renumber (h : p.Renumbers ρ q) (s : State) (f : Frame) (kind : InvokeKind)
    (args : List Slot) (id : MethodId) :
    dispatch q (s.renumber ρ) f kind args id = renumbered ρ (dispatch p s f kind args id) := by
  refine attempt_renumber_same s rfl fun values => ?_
  cases kind with
  | static => exact attempt_renumber_same s (lookupDeclared_renumber h id true) fun m => rfl
  | direct => exact attempt_renumber_same s (lookupDeclared_renumber h id false) fun m => rfl
  -- only a virtual call looks at the heap, for the class of its receiver
  | virtual =>
    refine attempt_renumber_same s (runtimeClass_renumber s.heap id values) fun c => ?_
    rw [lookupVirtual_renumber h]
    cases lookupVirtual p c id <;> rfl

/-- A call ends with the same value. -/
theorem returnValue_renumber (h : Heap) (f : Frame) (kind : ValueKind) (src : Slot) :
    returnValue (h.renumber ρ) f kind src = returnValue h f kind src := by
  simp only [returnValue, Frame.readKind_renumber]

/-- A new object is of the same class and gets the same reference. -/
theorem newObject_renumber (h : p.Renumbers ρ q) (s : State) (className : String) :
    newObject q (s.renumber ρ) className = renumbered ρ (newObject p s className) := by
  unfold newObject
  rw [findClass_renumber h]
  cases findClass p className with
  | error e => rfl
  | ok c =>
    -- the new object holds nothing that has a number
    have hbody : (if c.name ∈ hostClasses then ObjectBody.host {} else .fields {}) =
        (if c.name ∈ hostClasses then ObjectBody.host {} else .fields {}).renumber ρ := by
      split <;> rfl
    have halloc := State.allocObject_renumber (ρ := ρ) s
      ⟨c.name, if c.name ∈ hostClasses then .host {} else .fields {}⟩
    unfold Object.renumber at halloc
    rw [← hbody] at halloc
    exact congrArg (Prod.map id Except.ok) halloc

/-- An instruction does the same under other numbers. -/
theorem exec_renumber (h : p.Renumbers ρ q) (s : State) (f : Frame) (i : Instruction) :
    exec q (s.renumber ρ) f i = renumbered ρ (exec p s f i) := by
  -- the instructions that look at no heap and at no class are the last case
  cases i with
  | constString dest text =>
    rw [exec, exec, State.intern_renumber]
    rfl
  | move kind dest src =>
    refine proceed_renumber s ?_
    simp only [State.heap_renumber, Frame.readKind_renumber, Frame.writeKind_renumber]
  | moveResult kind dest =>
    rw [exec, exec]
    have hlast : (s.renumber ρ).lastReturn? = s.lastReturn? := rfl
    rw [hlast]
    cases s.lastReturn? with
    | none => rfl
    | some v => exact proceed_renumber s (Frame.writeKind_renumber f s.heap kind dest v)
  | returnValue kind src =>
    exact congrArg (Prod.mk _) (returnValue_renumber s.heap f kind src)
  | instanceGet kind dest object id | instancePut kind src object id =>
    exact congrArg (Prod.mk _) (needFieldClass_renumber h f kind id)
  | invoke kind args id => exact dispatch_renumber h s f kind args id
  | ifZero cmp src label => exact congrArg (Prod.mk _) (branchZero_renumber s.heap f cmp src label)
  | ifTest cmp a b label => exact congrArg (Prod.mk _) (branchTest_renumber s.heap f cmp a b label)
  | newArray dest length type => exact newArray_renumber s f dest length type
  | arrayGet kind dest array index =>
    exact proceed_renumber s (arrayGet_renumber s.heap f kind dest array index)
  | arrayPut kind src array index =>
    exact attempt_renumber s (arrayPut_renumber s.heap f kind src array index) fun heap => rfl
  | arrayLength dest array =>
    refine proceed_renumber s ?_
    simp only [State.heap_renumber, Heap.array_renumber]
  | newInstance dest className =>
    rw [exec, exec, newObject_renumber h]
    obtain ⟨s', r⟩ := newObject p s className
    cases r <;> rfl
  | monitorEnter slot =>
    refine attempt_renumber s ?_ fun s => rfl
    simp only [State.lock_renumber, map_bind]
  | monitorExit slot =>
    refine attempt_renumber s ?_ fun s => rfl
    simp only [State.unlock_renumber, map_bind]
  | checkCast src type =>
    refine congrArg (Prod.mk _) ?_
    simp only [State.heap_renumber, checkCast_renumber]
    rfl
  | _ => rfl

/-! ## Host methods -/

/-- What a host method wants next, under other numbers. -/
def Reply.renumber (ρ : Nat → Nat) : Reply → Reply
  | .readField owner field args => .readField (owner.renumber ρ) field args
  | .writeField owner field args v => .writeField (owner.renumber ρ) field args v
  | reply => reply

/-- What a host method comes to, under other numbers. -/
def replied (ρ : Nat → Nat) (x : State × Reply) : State × Reply :=
  (x.1.renumber ρ, x.2.renumber ρ)

/-- The host method does the same whatever numbers the classes have. -/
def HostMethod.Blind (m : HostMethod) : Prop :=
  ∀ (ρ : Nat → Nat) (p q : Program), p.Renumbers ρ q → ∀ (call : HostCall) (s : State),
    m q call (s.renumber ρ) = replied ρ (m p call s)

/-- All host methods of the registry are blind to the numbers of the classes. -/
def Natives.Blind (n : Natives) : Prop :=
  ∀ className name params host, n.find? className name params = some host → host.Blind

/-- A host method that leaves the state alone is blind if its reply is the same up to the numbers. -/
theorem blind_reading {f : Program → HostCall → State → Except Fault Reply}
    (hf : ∀ (ρ : Nat → Nat) (p q : Program), p.Renumbers ρ q → ∀ (call : HostCall) (s : State),
      f q call (s.renumber ρ) = Reply.renumber ρ <$> f p call s) :
    (HostMethod.reading f).Blind := by
  intro ρ p q h call s
  unfold HostMethod.reading
  rw [hf ρ p q h]
  cases f p call s <;> rfl

/-- A host method that changes the state is blind if the state and its reply are the same up to the numbers.
-/
theorem blind_writing {f : Program → HostCall → State → Except Fault (State × Reply)}
    (hf : ∀ (ρ : Nat → Nat) (p q : Program), p.Renumbers ρ q → ∀ (call : HostCall) (s : State),
      f q call (s.renumber ρ) = replied ρ <$> f p call s) :
    (HostMethod.writing f).Blind := by
  intro ρ p q h call s
  unfold HostMethod.writing
  rw [hf ρ p q h]
  cases f p call s <;> rfl

/-! ### Strings and boxes -/

/-- The text of a new string is read from an array of code points, which has no numbers. -/
theorem blind_stringInit : stringInit.Blind := by
  refine blind_writing fun ρ p q h call s => ?_
  simp only [State.heap_renumber, Heap.array_renumber, map_bind]
  -- receiver, array, offset and count are read before the text is stored
  refine bind_congr fun this => bind_congr fun _ => bind_congr fun _ => bind_congr fun array =>
    bind_congr fun _ => bind_congr fun offset => bind_congr fun _ => bind_congr fun count =>
    bind_congr fun text => ?_
  have hstored := Heap.setHostData_renumber (ρ := ρ)
    (fun data => { data with contents? := some (String.ofList text) }) (fun d => rfl) s.heap this
  rw [hstored, bind_map_left]
  rfl

/-- The text of the receiver is the same. -/
theorem receiverText_renumber (call : HostCall) (s : State) :
    receiverText call (s.renumber ρ) = receiverText call s := by
  simp only [receiverText, State.heap_renumber, Heap.contents_renumber]

/-- `String.length()` is blind. -/
theorem blind_stringLength : stringLength.Blind := by
  refine blind_reading fun ρ p q h call s => ?_
  simp only [receiverText_renumber, map_bind]
  rfl

/-- `String.charAt(int)` is blind. -/
theorem blind_stringCharAt : stringCharAt.Blind := by
  refine blind_reading fun ρ p q h call s => ?_
  simp only [receiverText_renumber, map_bind]
  refine bind_congr fun text => bind_congr fun _ => bind_congr fun index => ?_
  split <;> rfl

/-- A new string as the reply. -/
theorem replyString_renumber (s : State) (text : String) :
    replyString (s.renumber ρ) text = replied ρ (replyString s text) := by
  unfold replyString
  rw [State.newString_renumber]
  rfl

/-- `String.valueOf(int)` is blind. -/
theorem blind_stringOfInt : stringOfInt.Blind := by
  refine blind_writing fun ρ p q h call s => ?_
  simp only [replyString_renumber, map_bind]
  rfl

/-- `String.valueOf(long)` is blind. -/
theorem blind_stringOfLong : stringOfLong.Blind := by
  refine blind_writing fun ρ p q h call s => ?_
  simp only [replyString_renumber, map_bind]
  rfl

/-- A new host object is the reply. -/
theorem replyHost_renumber (s : State) (className : String) (data : HostData) :
    (((s.renumber ρ).allocHost className (data.renumber ρ)).1,
        Reply.finish (some (.object ((s.renumber ρ).allocHost className (data.renumber ρ)).2))) =
      replied ρ ((s.allocHost className data).1,
        Reply.finish (some (.object (s.allocHost className data).2))) := by
  rw [State.allocHost_renumber]
  rfl

/-- A new box as the reply. -/
theorem replyBox_renumber (s : State) (v : Value) :
    replyBox (s.renumber ρ) v = replied ρ (replyBox s v) :=
  replyHost_renumber s integerClass { number? := some v }

/-- What a box holds is a value, which has no number. -/
theorem unbox_renumber (h : Heap) (v : Value) (type : Descriptor) :
    unbox (h.renumber ρ) v type = unbox h v type := by
  cases v with
  -- only an object can be a box
  | object ref =>
    rw [unbox, unbox, Heap.object_renumber, bind_map_left]
    refine bind_congr fun o => ?_
    rw [Object.property_renumber_same fun _ => rfl]
    rfl
  | int | long | array => rfl

/-- `Integer.valueOf(int)` is blind. -/
theorem blind_integerValueOf : integerValueOf.Blind := by
  refine blind_writing fun ρ p q h call s => ?_
  simp only [replyBox_renumber, map_bind]
  rfl

/-- `Integer.intValue()` is blind. -/
theorem blind_integerIntValue : integerIntValue.Blind := by
  refine blind_reading fun ρ p q h call s => ?_
  simp only [State.heap_renumber, unbox_renumber, map_bind]
  rfl

/-! ### Reflection -/

/-- `Class.forName(String)` is blind: the handle holds the renumbered class. -/
theorem blind_classForName : classForName.Blind := by
  refine blind_writing fun ρ p q h call s => ?_
  simp only [State.heap_renumber, Heap.stringOf_renumber, findClass_renumber h, bind_map_left, map_bind]
  refine bind_congr fun _ => bind_congr fun name => bind_congr fun c => ?_
  exact congrArg Except.ok
    (replyHost_renumber s "Ljava/lang/Class;" { name? := some c.name, class? := some c })

/-- What a handle holds is renumbered as `g` says. -/
theorem handle_renumber {get : HostData → Option α} {g : α → α}
    (hget : ∀ d, get (HostData.renumber ρ d) = (get d).map g) (call : HostCall) (s : State)
    (key : String) : handle call (s.renumber ρ) key get = g <$> handle call s key get := by
  unfold handle
  simp only [State.heap_renumber, Heap.object_renumber, bind_map_left, map_bind]
  refine bind_congr fun ref => bind_congr fun o => ?_
  exact Object.property_renumber hget o key

/-- A class handle holds the renumbered class. -/
theorem classHandle_renumber (call : HostCall) (s : State) :
    handle call (s.renumber ρ) "class" HostData.class? =
      LoadedClass.renumber ρ <$> handle call s "class" HostData.class? :=
  handle_renumber (fun _ => rfl) call s "class"

/-- A field handle holds the renumbered class beside the field. -/
theorem fieldHandle_renumber (call : HostCall) (s : State) :
    handle call (s.renumber ρ) "field" HostData.field? =
      Prod.map (·.renumber ρ) (fun f => f) <$> handle call s "field" HostData.field? :=
  handle_renumber (fun _ => rfl) call s "field"

/-- A method handle holds the same method. -/
theorem methodHandle_renumber (call : HostCall) (s : State) :
    handle call (s.renumber ρ) "method" HostData.method? = handle call s "method" HostData.method? := by
  unfold handle
  simp only [State.heap_renumber, Heap.object_renumber, bind_map_left]
  refine bind_congr fun ref => bind_congr fun o => ?_
  exact Object.property_renumber_same (fun _ => rfl) o "method"

/-- `Class.getDeclaredMethod` is blind: the methods of a class have no numbers. -/
theorem blind_classGetDeclaredMethod : classGetDeclaredMethod.Blind := by
  refine blind_writing fun ρ p q h call s => ?_
  simp only [State.heap_renumber, Heap.stringOf_renumber, classHandle_renumber, bind_map_left, map_bind]
  refine bind_congr fun c => bind_congr fun _ => bind_congr fun name => ?_
  -- the class in the handle is renumbered, its methods are not
  have hmethods : (c.renumber ρ).methods = c.methods := rfl
  rw [hmethods]
  split
  · next m _ =>
    exact congrArg Except.ok
      (replyHost_renumber s "Ljava/lang/reflect/Method;" { method? := some m })
  · rfl
  · rfl

/-- `Class.getDeclaredField` is blind: the handle holds the renumbered class. -/
theorem blind_classGetDeclaredField : classGetDeclaredField.Blind := by
  refine blind_writing fun ρ p q h call s => ?_
  simp only [State.heap_renumber, Heap.stringOf_renumber, classHandle_renumber, bind_map_left, map_bind]
  refine bind_congr fun c => bind_congr fun _ => bind_congr fun name => ?_
  have hfields : (c.renumber ρ).fields = c.fields := rfl
  rw [hfields]
  split
  · next f _ =>
    exact congrArg Except.ok
      (replyHost_renumber s "Ljava/lang/reflect/Field;" { field? := some (c, f) })
  · rfl

/-- `Field.get(Object)` is blind: the reply names the renumbered class. -/
theorem blind_fieldGet : fieldGet.Blind := by
  refine blind_reading fun ρ p q h call s => ?_
  simp only [fieldHandle_renumber, bind_map_left, map_bind]
  rfl

/-- `Field.set(Object, Object)` is blind: the reply names the renumbered class. -/
theorem blind_fieldSet : fieldSet.Blind := by
  refine blind_reading fun ρ p q h call s => ?_
  simp only [State.heap_renumber, fieldHandle_renumber, unbox_renumber, Heap.shown_renumber,
    bind_map_left, map_bind]
  refine bind_congr fun place => bind_congr fun _ => bind_congr fun v => ?_
  simp only [Prod.map]
  split <;> rfl

/-- `Method.invoke(Object, Object[])` is blind. -/
theorem blind_methodInvoke : methodInvoke.Blind := by
  refine blind_writing fun ρ p q h call s => ?_
  simp only [State.heap_renumber, methodHandle_renumber, Heap.array_renumber, Heap.shown_renumber,
    map_bind]
  refine bind_congr fun m => bind_congr fun target => bind_congr fun list => ?_
  -- the arguments are the elements of an array, or there are none
  split
  · rw [map_bind]
    exact bind_congr fun array => rfl
  · split <;> rfl

/-- A method that does nothing is blind. -/
theorem blind_doNothing : doNothing.Blind :=
  fun _ _ _ _ _ _ => rfl

/-- `Log.d(String, String)` is blind: the line that it writes tells no number. -/
theorem blind_logDebug : logDebug.Blind := by
  refine blind_writing fun ρ p q h call s => ?_
  simp only [State.heap_renumber, Heap.stringOf_renumber, Heap.shown_renumber, map_bind]
  rfl

/-- The host methods of the standard library are blind to the numbers of the classes. -/
theorem standard_blind : Natives.standard.Blind := by
  intro className name params host h
  cases find?_registered h with
  -- what is found is one of the registered methods: before them the registry is empty
  | inl h => cases h
  | inr h =>
    obtain ⟨entry, hmem, rfl, -⟩ := h
    have hall : ∀ entry ∈ Natives.standardMethods, entry.2.2.2.Blind := by
      simp [Natives.standardMethods, blind_stringInit, blind_stringLength, blind_stringCharAt,
        blind_stringOfInt, blind_stringOfLong, blind_integerValueOf, blind_integerIntValue,
        blind_classForName, blind_classGetDeclaredMethod, blind_classGetDeclaredField,
        blind_doNothing, blind_fieldGet, blind_fieldSet, blind_methodInvoke, blind_logDebug]
    exact hall entry hmem

/-! ### Fields touched once the class is set up -/

/-- The value of a field, static or not, is the same. -/
theorem readField_renumber (hρ : ρ.Injective) (s : State) (owner : LoadedClass) (field : Field)
    (args : List Value) :
    readField (s.renumber ρ) (owner.renumber ρ) field args =
      renumbered ρ (readField s owner field args) := by
  have hstatic : (s.renumber ρ).static? (owner.renumber ρ).id field.name =
      s.static? owner.id field.name := State.static?_renumber hρ s owner.id field.name
  unfold readField
  simp only [hstatic, State.heap_renumber, Heap.object_renumber, bind_map_left, Object.fields_renumber,
    State.defaultValue_renumber]
  -- a static field is found by the number of its class, another one in the object
  split
  · split <;> rfl
  · split
    · rfl
    · split <;> rfl

/-- The reply with the value of a field is the same. -/
theorem replyField_renumber (hρ : ρ.Injective) (s : State) (owner : LoadedClass) (field : Field)
    (args : List Value) :
    replyField (s.renumber ρ) (owner.renumber ρ) field args =
      replied ρ (replyField s owner field args) := by
  unfold replyField
  rw [readField_renumber hρ]
  obtain ⟨s', result⟩ := readField s owner field args
  cases result with
  | error e => rfl
  | ok v =>
    cases v with
    -- an integer of an int field comes back in a box, which is a new object
    | int v =>
      simp only [renumbered, replyBox_renumber]
      split <;> rfl
    | long | object | array => rfl

/-- A write to a field, static or not, comes to the same. -/
theorem writeField_renumber (hρ : ρ.Injective) (s : State) (owner : LoadedClass) (field : Field)
    (args : List Value) (v : Value) :
    writeField (s.renumber ρ) (owner.renumber ρ) field args v =
      replied ρ (writeField s owner field args v) := by
  unfold writeField
  split
  · exact congrArg (·, Reply.finish none) (State.setStatic_renumber hρ s owner.id field.name v)
  · simp only [State.heap_renumber, Heap.setField_renumber, ← map_bind]
    cases (do s.heap.setField (← fieldTarget args) field.name v) <;> rfl

/-! ## Steps -/

/-- Waiting work under other numbers. -/
def Waiting.renumber (ρ : Nat → Nat) : Waiting → Waiting
  | .initializer id => .initializer (ρ id)
  | .readField method owner field args => .readField method (owner.renumber ρ) field args
  | .writeField method owner field args v => .writeField method (owner.renumber ρ) field args v
  | work => work

/-- A run between two steps, under other numbers. -/
def Snapshot.renumber (ρ : Nat → Nat) (m : Snapshot) : Snapshot :=
  { m with state := m.state.renumber ρ, waiting := m.waiting.map (Waiting.renumber ρ) }

/-- What a step comes to, under other numbers. -/
def Progress.renumber (ρ : Nat → Nat) : Progress → Progress
  | .more m => .more (m.renumber ρ)
  | .done s value? => .done (s.renumber ρ) value?
  | .fault s e => .fault (s.renumber ρ) e

/-- What a host method wants next is done under the new numbers. -/
theorem follow_renumber {x x' : State × Reply} (hx : x' = replied ρ x) (method : Method)
    (waiting : List Waiting) :
    follow x'.1 method x'.2 (waiting.map (Waiting.renumber ρ)) =
      (follow x.1 method x.2 waiting).renumber ρ := by
  rw [hx]
  obtain ⟨s, reply⟩ := x
  cases reply <;> rfl

/-- What follows an instruction is done under the new numbers. -/
theorem carryOn_renumber {x x' : State × Except Fault Flow} (hx : x' = renumbered ρ x)
    (i : Instruction) (waiting : List Waiting) :
    carryOn x'.1 x'.2 i (waiting.map (Waiting.renumber ρ)) =
      (carryOn x.1 x.2 i waiting).renumber ρ := by
  rw [hx]
  obtain ⟨s, flow⟩ := x
  cases flow with
  | error e => rfl
  | ok flow => cases flow <;> rfl

section

variable {natives : Natives} {maxDepth : Nat}

/-- Entering a call comes to the same, if the host methods are blind. -/
theorem enterCall_renumber (h : p.Renumbers ρ q) (hn : natives.Blind) (s : State) (method : Method)
    (receiver? : Option Value) (args : List Value) (waiting : List Waiting) :
    enterCall ⟨q, natives, maxDepth⟩ (s.renumber ρ) method receiver? args
        (waiting.map (Waiting.renumber ρ)) =
      (enterCall ⟨p, natives, maxDepth⟩ s method receiver? args waiting).renumber ρ := by
  have hcalls : (s.renumber ρ).calls = s.calls := rfl
  have hdump : (s.renumber ρ).heap.dump = s.heap.dump := funext (Heap.dump_renumber s.heap)
  have hdepth : (s.renumber ρ).depth = s.depth := rfl
  unfold enterCall
  rw [hcalls, hdump, hdepth]
  dsimp only
  -- the message is the same on both sides, so its text does not matter
  generalize (fun _ : Unit => "".pushn '\t' s.depth ++ "=> invoke_method " ++ method.text ++ " " ++
    Dump.option (receiver?.map s.heap.dump) ++ " " ++ Dump.list (args.map s.heap.dump)) = message
  cases s.calls.push maxDepth method with
  | error e => rfl
  | ok calls =>
    cases method.body with
    | code code => rfl
    | native =>
      dsimp only
      cases hhost : natives.find? method.className method.name method.params with
      | none => rfl
      | some host =>
        -- the host method runs in the state in which the call is recorded
        exact follow_renumber (hn _ _ _ host hhost ρ p q h ⟨receiver?, Value.splitAll args, calls.length⟩
          { s.log .debug message with calls }) method waiting

/-- Calling a method comes to the same. -/
theorem startCall_renumber (h : p.Renumbers ρ q) (hn : natives.Blind) (s : State) (method : Method)
    (receiver? : Option Value) (args : List Value) (waiting : List Waiting) :
    startCall ⟨q, natives, maxDepth⟩ (s.renumber ρ) method receiver? args
        (waiting.map (Waiting.renumber ρ)) =
      (startCall ⟨p, natives, maxDepth⟩ s method receiver? args waiting).renumber ρ := by
  unfold startCall
  split
  · rfl
  · split
    · next r _ =>
      rw [State.heap_renumber, Heap.object_renumber]
      cases s.heap.object r <;> rfl
    · exact enterCall_renumber h hn s method _ args waiting

/-- Setting a class up comes to the same, under its new number. -/
theorem startInit_renumber (h : p.Renumbers ρ q) (s : State) (className : String)
    (waiting : List Waiting) :
    startInit ⟨q, natives, maxDepth⟩ (s.renumber ρ) className (waiting.map (Waiting.renumber ρ)) =
      (startInit ⟨p, natives, maxDepth⟩ s className waiting).renumber ρ := by
  unfold startInit
  dsimp only
  rw [findClass_renumber h]
  cases findClass p className with
  | error e => rfl
  | ok c =>
    have hstatus : (s.renumber ρ).classStatus (c.renumber ρ).id = s.classStatus c.id :=
      State.classStatus_renumber h.injective s c.id
    have hinit : (c.renumber ρ).initMethod? = c.initMethod? := rfl
    have hstatics : ((s.renumber ρ).log .debug fun _ => "initialize class " ++
        (c.renumber ρ).name).initialStatics (c.renumber ρ).staticFields =
          renumbered ρ ((s.log .debug fun _ => "initialize class " ++ c.name).initialStatics
            c.staticFields) :=
      State.initialStatics_renumber (s.log .debug fun _ => "initialize class " ++ c.name) c.staticFields
    simp only [Functor.map, Except.map, hstatus, hinit, hstatics]
    generalize (s.log .debug fun _ => "initialize class " ++ c.name).initialStatics c.staticFields = x
    -- both writes go under the new number of the class
    have hset (status : ClassStatus) :
        (((renumbered ρ x).1.installStatics (c.renumber ρ).id (renumbered ρ x).2).setClassStatus
          (c.renumber ρ).id status) =
            ((x.1.installStatics c.id x.2).setClassStatus c.id status).renumber ρ := by
      rw [← State.setClassStatus_renumber h.injective, ← State.installStatics_renumber h.injective]
      rfl
    simp only [hset]
    split
    · rfl
    · cases c.initMethod? <;> rfl

/-- Running the next instruction comes to the same. -/
theorem runNext_renumber (h : p.Renumbers ρ q) (s : State) (f : Frame) (waiting : List Waiting) :
    runNext ⟨q, natives, maxDepth⟩ (s.renumber ρ) f (waiting.map (Waiting.renumber ρ)) =
      (runNext ⟨p, natives, maxDepth⟩ s f waiting).renumber ρ := by
  unfold runNext
  split
  · split <;> rfl
  -- the instruction runs in the state in which its line is in the journal
  · next i _ =>
    exact carryOn_renumber (exec_renumber h (s.log .trace fun _ =>
      "".pushn '\t' s.depth ++ "exec " ++ i.dump) f i) i waiting

/-- Handing a value to waiting work comes to the same. -/
theorem resume_renumber (h : p.Renumbers ρ q) (hn : natives.Blind) (s : State)
    (value? : Option Value) (work : Waiting) (waiting : List Waiting) :
    resume ⟨q, natives, maxDepth⟩ (s.renumber ρ) value? (work.renumber ρ)
        (waiting.map (Waiting.renumber ρ)) =
      (resume ⟨p, natives, maxDepth⟩ s value? work waiting).renumber ρ := by
  cases work with
  | caller f => rfl
  | host method => rfl
  | access f i =>
    exact carryOn_renumber (access_renumber h s f i) i waiting
  | enter method receiver? args => exact enterCall_renumber h hn s method receiver? args waiting
  | initializer id =>
    exact congrArg (fun s => Progress.more ⟨s, .finished none, waiting.map (Waiting.renumber ρ)⟩)
      (State.setClassStatus_renumber h.injective s id .initialized)
  | readField method owner field args =>
    exact follow_renumber (replyField_renumber h.injective s owner field args) method waiting
  | writeField method owner field args v =>
    exact follow_renumber (writeField_renumber h.injective s owner field args v) method waiting

/-- A step does the same under other numbers. -/
theorem step_renumber (h : p.Renumbers ρ q) (hn : natives.Blind) (m : Snapshot) :
    step ⟨q, natives, maxDepth⟩ (m.renumber ρ) = (step ⟨p, natives, maxDepth⟩ m).renumber ρ := by
  obtain ⟨s, task, waiting⟩ := m
  cases task with
  | call method receiver? args => exact startCall_renumber h hn s method receiver? args waiting
  | initClass className => exact startInit_renumber h s className waiting
  | run f => exact runNext_renumber h s f waiting
  | finished value? =>
    cases waiting with
    | nil => rfl
    | cons work rest => exact resume_renumber h hn s value? work rest
  | endless => rfl

/-! ## Runs and sessions -/

/-- What a run comes to, under other numbers: values and faults have none. -/
def Outcome.renumber (ρ : Nat → Nat) : Outcome → Outcome
  | .returned s value? => .returned (s.renumber ρ) value?
  | .failed s e => .failed (s.renumber ρ) e
  | .unfinished m => .unfinished (m.renumber ρ)

/-- A run does the same under other numbers, step by step. -/
theorem run_renumber (h : p.Renumbers ρ q) (hn : natives.Blind) (steps : Nat) (m : Snapshot) :
    run ⟨q, natives, maxDepth⟩ steps (m.renumber ρ) =
      (run ⟨p, natives, maxDepth⟩ steps m).renumber ρ := by
  -- the induction is on the steps left; each step gives renumbered snapshots
  induction steps generalizing m with
  | zero => rfl
  | succ steps ih =>
    rw [run, run, step_renumber h hn]
    cases step ⟨p, natives, maxDepth⟩ m with
    | more m' => exact ih m'
    | done s value? => rfl
    | fault s e => rfl

/-- The report of a failed call writes the same lines. -/
theorem reportFailure_renumber (s : State) (method : Method) (e : Fault) :
    reportFailure (s.renumber ρ) method e = (reportFailure s method e).renumber ρ := by
  -- the lines are written one after the other, in any state
  have hlines (lines : List String) (s : State) :
      lines.foldl (fun s line => s.log .error fun _ => line) (s.renumber ρ) =
        (lines.foldl (fun s line => s.log .error fun _ => line) s).renumber ρ := by
    induction lines generalizing s with
    | nil => rfl
    | cons line rest ih => exact ih (s.log .error fun _ => line)
  unfold reportFailure
  dsimp only
  rw [State.log_renumber, hlines]
  rfl

/-- A call from outside comes to the same. -/
theorem invoke_renumber (h : p.Renumbers ρ q) (hn : natives.Blind) (steps : Nat) (s : State)
    (method : Method) (receiver? : Option Value) (args : List Value) :
    invoke ⟨q, natives, maxDepth⟩ steps (s.renumber ρ) method receiver? args =
      (invoke ⟨p, natives, maxDepth⟩ steps s method receiver? args).renumber ρ := by
  have hrun : invokeMethod ⟨q, natives, maxDepth⟩ steps (s.renumber ρ) method receiver? args =
      (invokeMethod ⟨p, natives, maxDepth⟩ steps s method receiver? args).renumber ρ :=
    run_renumber h hn steps ⟨s, .call method receiver? args, []⟩
  unfold invoke
  rw [hrun]
  cases invokeMethod ⟨p, natives, maxDepth⟩ steps s method receiver? args with
  | failed s' e => exact congrArg (Outcome.failed · e) (reportFailure_renumber s' method e)
  | returned | unfinished => rfl

/-- An operation of a session comes to the same. -/
theorem perform_renumber (h : p.Renumbers ρ q) (hn : natives.Blind) (s : State) (steps : Nat)
    (op : Operation) :
    op.perform ⟨q, natives, maxDepth⟩ (s.renumber ρ) steps =
      (op.perform ⟨p, natives, maxDepth⟩ s steps).renumber ρ := by
  cases op with
  | invoke method receiver? args => exact invoke_renumber h hn steps s method receiver? args
  | initClass className => exact run_renumber h hn steps ⟨s, .initClass className, []⟩
  | newObject className =>
    unfold Operation.perform
    dsimp only
    rw [newObject_renumber h]
    obtain ⟨s', r⟩ := newObject p s className
    cases r <;> rfl
  | newArray elementType values => rfl
  | newString text =>
    unfold Operation.perform
    dsimp only
    rw [State.newString_renumber]
    rfl
  | literal text =>
    unfold Operation.perform
    dsimp only
    rw [State.intern_renumber]
    rfl

/-- An operation ends under the one numbers exactly if it ends under the others. -/
theorem ended?_renumber (o : Outcome) : (o.renumber ρ).ended? = o.ended?.map (State.renumber ρ) := by
  cases o <;> rfl

/-- A session goes the same way under other numbers, moment by moment. -/
theorem history_renumber (h : p.Renumbers ρ q) (hn : natives.Blind) (s : State)
    (ops : List (Operation × Nat)) :
    history ⟨q, natives, maxDepth⟩ (s.renumber ρ) ops =
      (history ⟨p, natives, maxDepth⟩ s ops).map (Outcome.renumber ρ) := by
  -- the induction is on the operations to come; each starts where the one before ended
  induction ops generalizing s with
  | nil => rfl
  | cons entry rest ih =>
    obtain ⟨op, steps⟩ := entry
    have hop : op.perform ⟨q, natives, maxDepth⟩ (s.renumber ρ) =
        Outcome.renumber ρ ∘ op.perform ⟨p, natives, maxDepth⟩ s :=
      funext fun steps => perform_renumber h hn s steps op
    rw [history, history, hop, List.map_append, List.map_map, perform_renumber h hn,
      ended?_renumber]
    cases (op.perform ⟨p, natives, maxDepth⟩ s steps).ended? with
    | none => rfl
    | some s' => exact congrArg _ (ih s')

end

end Smali.Machine
