import Smali.Machine.Resolve
import Smali.Machine.State
import Smali.Text.Units

/-!
# Methods of the host

A method without code is run by the host. A host method sees the receiver, the arguments one slot each
and the depth of the call; it may change the state and then replies: with a value, with a fault, with a
method to call in its place, or with an access to a field that first needs the field's class.

Host methods are registered under a key made of class, name and parameters; `Natives.standard` implements
the native methods of the standard library.
-/

namespace Smali.Machine

/-- What a host method is called with. -/
structure HostCall where
  receiver? : Option Value
  /-- The arguments, a 64-bit value in two slots. -/
  args : List Value
  /-- The number of calls in progress, this one included. -/
  depth : Nat
  deriving Repr, DecidableEq, Inhabited

/-- What a host method wants next. -/
inductive Reply where
  /-- The call returns. -/
  | finish (value? : Option Value)
  | fail (fault : Fault)
  /-- The call returns what this call returns. -/
  | call (method : Method) (receiver? : Option Value) (args : List Value)
  /-- The call returns the value of a field, once the class is set up. -/
  | readField (owner : LoadedClass) (field : Field) (args : List Value)
  /-- The call writes a field, once the class is set up. -/
  | writeField (owner : LoadedClass) (field : Field) (args : List Value) (value : Value)
  deriving Repr, DecidableEq, Inhabited

/-- A method of the host. -/
abbrev HostMethod := Program → HostCall → State → State × Reply

/-- The reply of a computation that may fail. -/
def Reply.ofExcept : Except Fault Reply → Reply
  | .ok reply => reply
  | .error e => .fail e

/-- A host method that leaves the state alone. -/
def HostMethod.reading (f : Program → HostCall → State → Except Fault Reply) : HostMethod :=
  fun p call s => (s, .ofExcept (f p call s))

/-- A host method that first computes, then changes the state. -/
def HostMethod.writing (f : Program → HostCall → State → Except Fault (State × Reply)) : HostMethod :=
  fun p call s =>
    match f p call s with
    | .ok result => result
    | .error e => (s, .fail e)

namespace HostCall

/-- The object on which the method is called. -/
def receiver (call : HostCall) : Except Fault Nat :=
  match call.receiver? with
  | some v => v.asObject
  | none => mismatch .receiverNeeded

/-- An argument slot. -/
def arg (call : HostCall) (index : Nat) : Except Fault Value :=
  match call.args[index]? with
  | some v => .ok v
  | none => mismatch (.argumentMissing index call.args.length)

end HostCall

/-! ## Strings -/

/-- The character at an index of an array of code points. -/
def codePointAt (a : ArrayObject) (index : Int) : Except Fault Char := do
  let v ← (← a.get index).asInt
  let n := v.toUInt32.toNat
  if n.isValidChar then return Char.ofNat n else mismatch (.notACodePoint v)

/-- So many characters of an array of code points, from an index on. -/
def codePoints (a : ArrayObject) : (count : Nat) → (index : Int) → Except Fault (List Char)
  | 0, _ => .ok []
  | count + 1, index => do
    let c ← codePointAt a index
    return c :: (← codePoints a count (index + 1))

/-- How many indices lie from `offset` up to `offset + count`, where the end is not beyond the largest
32-bit integer. -/
def spanLength (offset count : Int32) : Nat :=
  (min (offset.toInt + count.toInt) Int32.maxValue.toInt - offset.toInt).toNat

/-- `String(int[] codePoints, int offset, int count)` -/
def stringInit : HostMethod := .writing fun _ call s => do
  let this ← call.receiver
  let array ← s.heap.array (← (← call.arg 0).asArray)
  let offset ← (← call.arg 1).asInt
  let count ← (← call.arg 2).asInt
  -- nothing is stored unless every element is a character
  let text ← codePoints array (spanLength offset count) offset.toInt
  let heap ← s.heap.setHostData this fun data => { data with contents? := some (String.ofList text) }
  return ({ s with heap }, .finish none)

/-- The text of the string on which a method is called. -/
def receiverText (call : HostCall) (s : State) : Except Fault String := do
  s.heap.textOf (← call.receiver) "contents"

/-- `String.length()`, in sixteen-bit units. -/
def stringLength : HostMethod := .reading fun _ call s => do
  let text ← receiverText call s
  return .finish (some (.int (Int32.ofNat (Text.units text).length)))

/-- `String.charAt(int)` -/
def stringCharAt : HostMethod := .reading fun _ call s => do
  let units := Text.units (← receiverText call s)
  let index ← (← call.arg 0).asInt
  match if 0 ≤ index.toInt then units[index.toInt.toNat]? else none with
  | some unit => return .finish (some (.int (Int32.ofNat unit)))
  | none => .error (.outOfBounds index.toInt units.length)

/-- Replies with a new string object. -/
def replyString (s : State) (text : String) : State × Reply :=
  let (s, r) := s.newString text
  (s, .finish (some (.object r)))

/-- `String.valueOf(int)` -/
def stringOfInt : HostMethod := .writing fun _ call s => do
  let v ← (← call.arg 0).asInt
  return replyString s (toString v.toInt)

/-- `String.valueOf(long)`; the number arrives as its two halves. -/
def stringOfLong : HostMethod := .writing fun _ call s => do
  let v ← (← Value.pair (← call.arg 0) (← call.arg 1)).asLong
  return replyString s (toString v.toInt)

/-! ## Boxed integers -/

/-- Replies with a boxed integer. -/
def replyBox (s : State) (v : Value) : State × Reply :=
  let (s, r) := s.allocHost integerClass { number? := some v }
  (s, .finish (some (.object r)))

/-- The number in a box where an int is expected, else the value itself. -/
def unbox (h : Heap) (v : Value) (type : Descriptor) : Except Fault Value := do
  match v with
  | .object r =>
    let o ← h.object r
    if type = .int ∧ o.className = integerClass then o.property "number" HostData.number? else return v
  | _ => return v

/-- `Integer.valueOf(int)` -/
def integerValueOf : HostMethod := .writing fun _ call s => do
  return replyBox s (.int (← (← call.arg 0).asInt))

/-- `Integer.intValue()` -/
def integerIntValue : HostMethod := .reading fun _ call s => do
  return .finish (some (← unbox s.heap (.object (← call.receiver)) .int))

/-! ## Reflection -/

/-- `Class.forName(String)`; `a.b.C` names the class `La/b/C;`. -/
def classForName : HostMethod := .writing fun p call s => do
  let name ← s.heap.stringOf (← call.arg 0)
  let path := name.toList.map fun c => if c = '.' then '/' else c
  let c ← findClass p (String.ofList ('L' :: path ++ [';']))
  let (s, r) := s.allocHost "Ljava/lang/Class;" { name? := some c.name, class? := some c }
  return (s, .finish (some (.object r)))

/-- What a handle on which a method is called stands for. -/
def handle (call : HostCall) (s : State) (key : String) (get : HostData → Option α) : Except Fault α := do
  (← s.heap.object (← call.receiver)).property key get

/-- `Class.getDeclaredMethod(String, Class[])`; the name alone has to tell the method. -/
def classGetDeclaredMethod : HostMethod := .writing fun _ call s => do
  let c ← handle call s "class" HostData.class?
  let name ← s.heap.stringOf (← call.arg 0)
  -- the array of parameter types is not looked at
  match c.methods.filter (·.name == name) with
  | [m] =>
    let (s, r) := s.allocHost "Ljava/lang/reflect/Method;" { method? := some m }
    return (s, .finish (some (.object r)))
  | [] => .error (.methodNotFound (.undeclared c.name name))
  | _ => .error (.methodNotFound (.overloaded c.name name))

/-- `Class.getDeclaredField(String)` -/
def classGetDeclaredField : HostMethod := .writing fun _ call s => do
  let c ← handle call s "class" HostData.class?
  let name ← s.heap.stringOf (← call.arg 0)
  match c.fields.get? name with
  | some f =>
    let (s, r) := s.allocHost "Ljava/lang/reflect/Field;" { field? := some (c, f) }
    return (s, .finish (some (.object r)))
  | none => .error (.fieldNotFound (c.name ++ "->" ++ name))

/-- `Field.get(Object)` -/
def fieldGet : HostMethod := .reading fun _ call s => do
  let (owner, field) ← handle call s "field" HostData.field?
  return .readField owner field call.args

/-- `Field.set(Object, Object)` -/
def fieldSet : HostMethod := .reading fun _ call s => do
  let (owner, field) ← handle call s "field" HostData.field?
  -- the value is checked before the class is set up
  let v ← unbox s.heap (← call.arg 1) field.type
  if v.fits field.type then return .writeField owner field call.args v
  else mismatch (.doesNotFitField (s.heap.shown v) owner.name field.name field.type)

/-- The object whose field is meant. -/
def fieldTarget (args : List Value) : Except Fault Nat := do
  match args[0]? with
  | some v => v.asObject
  | none => mismatch (.argumentMissing 0 args.length)

/-- The value of a field whose class is set up. -/
def readField (s : State) (owner : LoadedClass) (field : Field) (args : List Value) :
    State × Except Fault Value :=
  if field.isStatic then
    match s.static? owner.id field.name with
    | some v => (s, .ok v)
    | none => (s, .error (.fieldNotFound (owner.name ++ "->" ++ field.name)))
  else
    match do (← s.heap.object (← fieldTarget args)).fields with
    | .error e => (s, .error e)
    | .ok fields =>
      match fields.get? field.name with
      | some v => (s, .ok v)
      | none =>
        let (s, v) := s.defaultValue field.type
        (s, .ok v)

/-- Replies with the value of a field whose class is set up: ints come back boxed. -/
def replyField (s : State) (owner : LoadedClass) (field : Field) (args : List Value) : State × Reply :=
  match readField s owner field args with
  | (s, .error e) => (s, .fail e)
  | (s, .ok (.long _)) => (s, .fail (.typeMismatch (.notAnObject field.type)))
  | (s, .ok (.int v)) =>
    if field.type = .int then replyBox s (.int v) else (s, .finish (some (.int v)))
  | (s, .ok v) => (s, .finish (some v))

/-- Writes a field whose class is set up. -/
def writeField (s : State) (owner : LoadedClass) (field : Field) (args : List Value) (v : Value) :
    State × Reply :=
  if field.isStatic then (s.setStatic owner.id field.name v, .finish none)
  else
    match do s.heap.setField (← fieldTarget args) field.name v with
    | .ok heap => ({ s with heap }, .finish none)
    | .error e => (s, .fail e)

/-- `Method.invoke(Object, Object[])`; the elements of the array are the arguments. -/
def methodInvoke : HostMethod := .writing fun _ call s => do
  let m ← handle call s "method" HostData.method?
  let target ← call.arg 0
  let args ← match ← call.arg 1 with
    | .array r => do pure (← s.heap.array r).values.toList
    | v => if v.isNull then pure [] else mismatch (.argumentsNotArray (s.heap.shown v))
  let s := s.log .debug fun _ =>
    "".pushn '\t' call.depth ++ "reflective call of " ++ m.text
  return (s, .call m (some target) args)

/-! ## The rest -/

/-- A method that does nothing. -/
def doNothing : HostMethod := fun _ _ s => (s, .finish none)

/-- `Log.d(String, String)` -/
def logDebug : HostMethod := .writing fun _ call s => do
  let tag ← s.heap.stringOf (← call.arg 0)
  let v ← call.arg 1
  let text := match s.heap.stringOf v with
    | .ok text => text
    | .error _ => s.heap.shown v
  return (s.log .info fun _ => tag ++ ": " ++ text, .finish (some (.int 0)))

/-! ## The registry -/

/-- The host methods under their keys. -/
structure Natives where
  methods : Table String HostMethod := {}

namespace Natives

/-- The key of a method: class, name and the texts of its parameters. -/
def key (className name params : String) : String :=
  className ++ "->" ++ name ++ "(" ++ params ++ ")"

/-- Registers a host method for a class, a name and the texts of the parameters. -/
def register (n : Natives) (className name params : String) (m : HostMethod) : Natives :=
  ⟨n.methods.insert (key className name params) m⟩

/-- The host method for a class, a name and parameters. -/
def find? (n : Natives) (className name : String) (params : List Descriptor) : Option HostMethod :=
  n.methods.get? (key className name (Descriptor.listText params))

/-- The native methods of the standard library. -/
def standardMethods : List (String × String × String × HostMethod) :=
  [("Ljava/lang/String;", "<init>", "[III", stringInit),
    ("Ljava/lang/String;", "length", "", stringLength),
    ("Ljava/lang/String;", "charAt", "I", stringCharAt),
    ("Ljava/lang/String;", "valueOf", "I", stringOfInt),
    ("Ljava/lang/String;", "valueOf", "J", stringOfLong),
    ("Ljava/lang/Integer;", "valueOf", "I", integerValueOf),
    ("Ljava/lang/Integer;", "intValue", "", integerIntValue),
    ("Ljava/lang/Class;", "forName", "Ljava/lang/String;", classForName),
    ("Ljava/lang/Class;", "getDeclaredMethod", "Ljava/lang/String;[Ljava/lang/Class;",
      classGetDeclaredMethod),
    ("Ljava/lang/Class;", "getDeclaredField", "Ljava/lang/String;", classGetDeclaredField),
    ("Ljava/lang/reflect/Field;", "setAccessible", "Z", doNothing),
    ("Ljava/lang/reflect/Field;", "get", "Ljava/lang/Object;", fieldGet),
    ("Ljava/lang/reflect/Field;", "set", "Ljava/lang/Object;Ljava/lang/Object;", fieldSet),
    ("Ljava/lang/reflect/Method;", "setAccessible", "Z", doNothing),
    ("Ljava/lang/reflect/Method;", "invoke", "Ljava/lang/Object;[Ljava/lang/Object;", methodInvoke),
    ("Landroid/util/Log;", "d", "Ljava/lang/String;Ljava/lang/String;", logDebug)]

/-- The registry for the standard library. -/
def standard : Natives :=
  standardMethods.foldl (fun n (className, name, params, m) => n.register className name params m) {}

end Natives

/-- The classes whose objects are host objects. -/
def hostClasses : List String :=
  [stringClass, integerClass, "Ljava/lang/Class;", "Ljava/lang/reflect/Field;",
    "Ljava/lang/reflect/Method;"]

/-- Puts a new object of a class on the heap. -/
def newObject (p : Program) (s : State) (className : String) : State × Except Fault Nat :=
  match findClass p className with
  | .error e => (s, .error e)
  | .ok c =>
    let body := if c.name ∈ hostClasses then .host {} else .fields {}
    let (s, r) := s.allocObject ⟨c.name, body⟩
    (s, .ok r)

end Smali.Machine
