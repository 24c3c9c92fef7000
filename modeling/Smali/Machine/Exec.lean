import Smali.Machine.Frame
import Smali.Machine.Host

/-!
# What an instruction does

`exec` gives the effect of one instruction on the state and on the frame, and says how the run goes on. The
state and the outcome are given side by side: a failing instruction may have entered a literal into the
string pool.

An instruction that touches a field first needs the field's class to be set up. It asks for the class
(`Flow.needClass`), and `access` does the rest of its work afterwards.
-/

namespace Smali.Machine

/-- How a run goes on after an instruction. -/
inductive Flow where
  /-- With the next instruction. -/
  | next (frame : Frame)
  /-- With the instruction of that number. -/
  | jump (frame : Frame) (pc : Nat)
  /-- The call returns. -/
  | leave (value? : Option Value)
  /-- Another method is called, then the next instruction follows. -/
  | call (frame : Frame) (method : Method) (receiver? : Option Value) (args : List Value)
  /-- A class is set up, then the instruction goes on. -/
  | needClass (frame : Frame) (className : String)
  /-- Never: a superclass chain without end has been entered. -/
  | endless
  deriving Repr, DecidableEq, Inhabited

/-- The frame that the fallible part gives, then the next instruction. -/
def proceed (s : State) (frame : Except Fault Frame) : State × Except Fault Flow :=
  (s, frame.map .next)

/-- Fails, or goes on with what the fallible part gives. -/
@[inline] def attempt (s : State) (r : Except Fault α) (k : α → State × Except Fault Flow) :
    State × Except Fault Flow :=
  match r with
  | .ok a => k a
  | .error e => (s, .error e)

/-! ## Branches -/

/-- Jumps to a label if the branch is taken. -/
def branch (f : Frame) (taken : Bool) (label : String) : Except Fault Flow :=
  if taken then return .jump f (← f.target label) else return .next f

/-- A branch on one value. Every reference is different from null. -/
def branchZero (h : Heap) (f : Frame) (cmp : Comparison) (src : Slot) (label : String) :
    Except Fault Flow := do
  match ← f.read src with
  | .int v => branch f (cmp.holds (compare v.toInt 0)) label
  | v =>
    if v.isReference && cmp.isEquality then branch f (cmp.holds .gt) label
    else mismatch (.branchOnValue cmp (h.shown v))

/-- A branch on two values. References are the same or not. -/
def branchTest (h : Heap) (f : Frame) (cmp : Comparison) (a b : Slot) (label : String) :
    Except Fault Flow := do
  match ← f.read a, ← f.read b with
  | .int x, .int y => branch f (cmp.holds (compare x.toInt y.toInt)) label
  | x, y =>
    if cmp.isEquality && (x.isReference || y.isReference) then
      branch f (cmp.holds (if x = y then .eq else .gt)) label
    else mismatch (.branchOnValues cmp (h.shown x) (h.shown y))

/-- A jump to the label that a switch table has for the value. -/
def switch (f : Frame) (src : Slot) (table : String) : Except Fault Flow := do
  let key ← f.readInt src
  match f.code.switchTables.get? table with
  | none => .error (.labelNotFound ("switch table " ++ table))
  | some t =>
    match t.target? key with
    | some label => return .jump f (← f.target label)
    | none => return .next f

/-! ## Numbers -/

/-- A conversion between integer types. -/
def convert (f : Frame) (conversion : Conversion) (dest src : Slot) : Except Fault Frame := do
  match conversion with
  | .longToInt => f.write dest (← (← f.readWide src).narrow)
  | .intToLong => f.writeWide dest (← (← f.read src).widen)
  | .intToShort => f.write dest (.int (toShort (← f.readInt src)))
  | .intToByte => f.write dest (.int (toByte (← f.readInt src)))
  | .intToChar => f.write dest (.int (toChar (← f.readInt src)))

/-- An operation on integers. -/
def integerOperation (f : Frame) (op : BinaryOp) (sig : Signature) (dest lhs : Slot) (rhs : Operand) :
    Except Fault Frame := do
  let a ← f.readWidth sig.lhs lhs
  let b ← match rhs with
    | .slot slot => f.readWidth sig.rhs slot
    | .literal literal => narrowLiteral literal
  f.writeWidth sig.result dest (← evaluate op sig.result a b)

/-- An operation on doubles. -/
def doubleOperation (f : Frame) (op : BinaryOp) (dest lhs rhs : Slot) : Except Fault Frame := do
  let a ← f.readDouble lhs
  let b ← f.readDouble rhs
  let double := Binary.Format.double
  let result ← match op with
    | .add => pure (double.add a b)
    | .sub => pure (double.sub a b)
    | .mul => pure (double.mul a b)
    | .div => pure (double.div a b)
    | .rem => pure (double.rem a b)
    | op => .error (.unknownInstruction (op.text ++ "-double"))
  f.writeWide dest (.ofDoubleBits result)

/-- The number that stands for an order. -/
def orderValue : Ordering → Value
  | .lt => .int (-1)
  | .eq => .int 0
  | .gt => .int 1

/-- The order of two doubles; a NaN counts as greater. -/
def compareDoubles (f : Frame) (dest a b : Slot) : Except Fault Frame := do
  let a ← f.readDouble a
  let b ← f.readDouble b
  f.write dest (orderValue ((Binary.Format.double.compare? a b).getD .gt))

/-! ## Arrays and objects -/

/-- A new array of so many elements that nobody has written. -/
def newArray (s : State) (f : Frame) (dest length : Slot) (type : Descriptor) :
    State × Except Fault Flow :=
  attempt s (f.readInt length) fun n =>
    if n.toInt < 0 then (s, .error (.outOfBounds n.toInt 0))
    else
      match type.element? with
      | none => (s, mismatch (.newArrayOf type))
      | some element =>
        -- without elements there is no need for the empty string
        let (s, v) := if n.toInt = 0 then (s, .int 0) else s.defaultValue element
        let (s, r) := s.allocArray element (Array.replicate n.toInt.toNat v)
        proceed s (f.write dest (.array r))

/-- Reads an element of an array. -/
def arrayGet (h : Heap) (f : Frame) (kind : AccessKind) (dest array index : Slot) :
    Except Fault Frame := do
  let r ← (← f.read array).asArray
  let i ← f.readInt index
  let a ← h.array r
  if kind.accepts a.elementType then f.writeKind h kind.valueKind dest (← a.get i.toInt)
  else mismatch (.arrayRead kind (h.arrayText r))

/-- Fails unless a value can be stored in a location of a type. -/
def checkFits (h : Heap) (v : Value) (type : Descriptor) : Except Fault Unit :=
  if v.fits type then .ok () else mismatch (.doesNotFit (h.shown v) type)

/-- The heap after an element of an array has been written. -/
def arrayPut (h : Heap) (f : Frame) (kind : AccessKind) (src array index : Slot) :
    Except Fault Heap := do
  let r ← (← f.read array).asArray
  let i ← f.readInt index
  let a ← h.array r
  if kind.accepts a.elementType then
    let v ← f.readAccess h kind src
    checkFits h v a.elementType
    h.setElement r i.toInt v
  else mismatch (.arrayWrite kind (h.arrayText r))

/-- Fails unless a value is a reference to an object of exactly the type. -/
def checkCast (h : Heap) (f : Frame) (src : Slot) (type : Descriptor) : Except Fault Unit := do
  let actual ← match ← f.read src with
    | .object r => do pure (.object (← h.object r).className)
    | .array r => do pure (.array (← h.array r).elementType)
    | v => mismatch (.castOfValue (h.shown v))
  if actual = type then return () else mismatch (.cast actual type)

/-! ## Fields -/

/-- Fails unless an accessor may touch a field. -/
def checkAccessor (kind : AccessKind) (field : Field) (id : FieldId) : Except Fault Unit :=
  if kind.accepts field.type then .ok () else mismatch (.accessor kind id)

/-- Asks for the class of an instance field, once the accessor is found to suit the field. -/
def needFieldClass (p : Program) (f : Frame) (kind : AccessKind) (id : FieldId) : Except Fault Flow :=
  match lookupInstanceField p id with
  | .found (_, field) => do
    checkAccessor kind field id
    return .needClass f id.className
  | .failed e => .error e
  | .endless => .ok .endless

/-- The static field that an accessor touches. -/
def staticField (p : Program) (kind : AccessKind) (id : FieldId) :
    Except Fault (LoadedClass × Field) := do
  let (c, field) ← lookupStaticField p id
  checkAccessor kind field id
  return (c, field)

/-- Reads a static field. -/
def staticGet (p : Program) (s : State) (f : Frame) (kind : AccessKind) (dest : Slot) (id : FieldId) :
    Except Fault Frame := do
  let (c, field) ← staticField p kind id
  match s.static? c.id field.name with
  | some v => f.writeKind s.heap kind.valueKind dest v
  | none => .error (.fieldNotFound id.text)

/-- Writes a static field. -/
def staticPut (p : Program) (s : State) (f : Frame) (kind : AccessKind) (src : Slot) (id : FieldId) :
    Except Fault State := do
  let (c, field) ← staticField p kind id
  let v ← f.readAccess s.heap kind src
  checkFits s.heap v field.type
  return s.setStatic c.id field.name v

/-- Reads a field of an object. -/
def instanceGet (s : State) (f : Frame) (kind : AccessKind) (dest object : Slot) (field : Field) :
    State × Except Fault Flow :=
  attempt s (do (← s.heap.object (← (← f.read object).asObject)).fields) fun fields =>
    let (s, v) := match fields.get? field.name with
      | some v => (s, v)
      | none => s.defaultValue field.type
    proceed s (f.writeKind s.heap kind.valueKind dest v)

/-- The heap after a field of an object has been written. -/
def instancePut (h : Heap) (f : Frame) (kind : AccessKind) (src object : Slot) (field : Field) :
    Except Fault Heap := do
  let r ← (← f.read object).asObject
  let v ← f.readAccess h kind src
  checkFits h v field.type
  h.setField r field.name v

/-- What remains of an instruction that touches a field once the field's class is set up. -/
def access (p : Program) (s : State) (f : Frame) : Instruction → State × Except Fault Flow
  | .staticGet kind dest id => proceed s (staticGet p s f kind dest id)
  | .staticPut kind src id =>
    attempt s (staticPut p s f kind src id) fun s => (s, .ok (.next f))
  | .instanceGet kind dest object id =>
    match lookupInstanceField p id with
    | .found (_, field) => instanceGet s f kind dest object field
    | .failed e => (s, .error e)
    | .endless => (s, .ok .endless)
  | .instancePut kind src object id =>
    match lookupInstanceField p id with
    | .found (_, field) =>
      attempt s (instancePut s.heap f kind src object field) fun heap =>
        ({ s with heap }, .ok (.next f))
    | .failed e => (s, .error e)
    | .endless => (s, .ok .endless)
  | _ => (s, .ok (.next f))

/-! ## Calls -/

/-- The class at which the search for the target of a virtual call starts. -/
def runtimeClass (h : Heap) (id : MethodId) : List Value → Except Fault String
  | .object r :: _ => return (← h.object r).className
  | .array _ :: _ => .ok id.className
  | v :: _ => mismatch (.virtualOnValue id (h.shown v))
  | [] => mismatch (.virtualWithoutReceiver id)

/-- A call: the target is looked up, and the first value is the receiver of a call that is not static. -/
def dispatch (p : Program) (s : State) (f : Frame) (kind : InvokeKind) (args : List Slot) (id : MethodId) :
    State × Except Fault Flow :=
  attempt s (args.mapM f.read) fun values =>
    match kind with
    | .static => attempt s (lookupStatic p id) fun m => (s, .ok (.call f m none values))
    | .direct =>
      attempt s (lookupDirect p id) fun m => (s, .ok (.call f m values.head? values.tail))
    | .virtual =>
      attempt s (runtimeClass s.heap id values) fun c =>
        match lookupVirtual p c id with
        | .found m =>
          (s.log .trace fun _ => id.text ++ " resolved to " ++ m.text,
            .ok (.call f m values.head? values.tail))
        | .failed e => (s, .error e)
        | .endless => (s, .ok .endless)

/-- The end of a call with a value. -/
def returnValue (h : Heap) (f : Frame) (kind : ValueKind) (src : Slot) : Except Fault Flow := do
  if f.method.returnType = .void then mismatch (.returnsVoid f.method.text)
  else return .leave (some (← f.readKind h kind src))

/-- The end of a call without a value. -/
def returnVoid (f : Frame) : Except Fault Flow :=
  if f.method.returnType = .void then .ok (.leave none)
  else mismatch (.returnVoidIn f.method.text)

/-- The effect of one instruction. -/
def exec (p : Program) (s : State) (f : Frame) : Instruction → State × Except Fault Flow
  | .nop => (s, .ok (.next f))
  | .const dest literal =>
    proceed s do f.write dest (.int (← narrowLiteral literal).toInt32)
  | .constWide dest literal => proceed s do f.writeWide dest (.long (← narrowLiteral literal))
  | .constString dest text =>
    let (s, r) := s.intern text
    proceed s (f.write dest (.object r))
  | .move kind dest src =>
    proceed s do f.writeKind s.heap kind dest (← f.readKind s.heap kind src)
  | .moveResult kind dest =>
    match s.lastReturn? with
    | some v => proceed s (f.writeKind s.heap kind dest v)
    | none => (s, mismatch .noResult)
  | .returnVoid => (s, returnVoid f)
  | .returnValue kind src => (s, returnValue s.heap f kind src)
  | .staticGet _ _ id | .staticPut _ _ id => (s, .ok (.needClass f id.className))
  | .instanceGet kind _ _ id | .instancePut kind _ _ id => (s, needFieldClass p f kind id)
  | .invoke kind args id => dispatch p s f kind args id
  | .ifZero cmp src label => (s, branchZero s.heap f cmp src label)
  | .ifTest cmp a b label => (s, branchTest s.heap f cmp a b label)
  | .goto label => (s, branch f true label)
  | .packedSwitch src table => (s, switch f src table)
  | .compareLong dest a b =>
    proceed s do
      let a ← f.readLong a
      let b ← f.readLong b
      f.write dest (orderValue (compare a.toInt b.toInt))
  | .compareDouble dest a b => proceed s (compareDoubles f dest a b)
  | .convert conversion dest src => proceed s (convert f conversion dest src)
  | .arithmetic op sig dest lhs rhs => proceed s (integerOperation f op sig dest lhs rhs)
  | .doubleArithmetic op dest lhs rhs => proceed s (doubleOperation f op dest lhs rhs)
  | .newArray dest length type => newArray s f dest length type
  | .arrayGet kind dest array index => proceed s (arrayGet s.heap f kind dest array index)
  | .arrayPut kind src array index =>
    attempt s (arrayPut s.heap f kind src array index) fun heap => ({ s with heap }, .ok (.next f))
  | .arrayLength dest array =>
    proceed s do
      let a ← s.heap.array (← (← f.read array).asArray)
      f.write dest (.int (Int32.ofNat a.values.size))
  | .newInstance dest className =>
    match newObject p s className with
    | (s, .ok r) => proceed s (f.write dest (.object r))
    | (s, .error e) => (s, .error e)
  | .monitorEnter slot =>
    attempt s (do s.lock (← (← f.read slot).asReference)) fun s => (s, .ok (.next f))
  | .monitorExit slot =>
    attempt s (do s.unlock (← (← f.read slot).asReference)) fun s => (s, .ok (.next f))
  | .checkCast src type => (s, do checkCast s.heap f src type; return .next f)
  | .unsupported mnemonic => (s, .error (.unknownInstruction mnemonic))

end Smali.Machine
