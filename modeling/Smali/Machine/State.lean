import Smali.Journal
import Smali.Machine.CallStack
import Smali.Machine.Heap

/-!
# The state of a run

Everything that a run changes: the heap, the static fields and the status of the classes, the held locks,
the value of the last call, the string pool, the calls in progress and the journal.
-/

namespace Smali.Machine

/-- How far a class has been set up. -/
inductive ClassStatus where
  | uninitialized
  | initializing
  | initialized
  deriving Repr, DecidableEq, Inhabited

/-- The state of a run. Classes are known by their place in the program. -/
structure State where
  heap : Heap := {}
  /-- The static fields of the classes that have any. -/
  statics : Table Nat (Table String Value) := {}
  status : Table Nat ClassStatus := {}
  /-- The references that are locked. -/
  locks : List Value := []
  /-- The value of the call that returned last. -/
  lastReturn? : Option Value := none
  /-- The string object for each literal met so far. -/
  strings : Table String Nat := {}
  calls : CallStack := []
  journal : Journal := {}
  deriving Repr, DecidableEq, Inhabited

/-- The class of string objects. -/
def stringClass : String := "Ljava/lang/String;"

/-- The class of boxed integers. -/
def integerClass : String := "Ljava/lang/Integer;"

namespace State

/-- Writes a line into the journal. -/
@[inline] def log (s : State) (level : Level) (message : Unit → String) : State :=
  { s with journal := s.journal.write level message }

/-- The number of calls in progress. -/
def depth (s : State) : Nat := s.calls.length

/-! ## Classes -/

/-- How far a class has been set up. -/
def classStatus (s : State) (id : Nat) : ClassStatus :=
  (s.status.get? id).getD .uninitialized

/-- Records how far a class has been set up. -/
def setClassStatus (s : State) (id : Nat) (status : ClassStatus) : State :=
  { s with status := s.status.insert id status }

@[simp] theorem classStatus_setClassStatus (s : State) (id j : Nat) (status : ClassStatus) :
    (s.setClassStatus id status).classStatus j = if j = id then status else s.classStatus j := by
  unfold classStatus setClassStatus
  rw [Table.get?_insert]
  split <;> rfl

/-- The value of a static field. -/
def static? (s : State) (id : Nat) (name : String) : Option Value := do
  (← s.statics.get? id).get? name

/-- Writes a static field. -/
def setStatic (s : State) (id : Nat) (name : String) (v : Value) : State :=
  { s with statics := s.statics.insert id (((s.statics.get? id).getD {}).insert name v) }

/-- Gives a class its static fields. -/
def installStatics (s : State) (id : Nat) (fields : Table String Value) : State :=
  { s with statics := s.statics.insert id fields }

/-! ## Locks -/

/-- Locks a reference that is not locked. -/
def lock (s : State) (v : Value) : Except Fault State :=
  if v ∈ s.locks then .error .alreadyLocked else .ok { s with locks := v :: s.locks }

/-- Unlocks a reference that is locked. -/
def unlock (s : State) (v : Value) : Except Fault State :=
  if v ∈ s.locks then .ok { s with locks := s.locks.erase v } else .error .notLocked

/-! ## Allocation -/

/-- Puts an object on the heap. -/
def allocObject (s : State) (o : Object) : State × Nat :=
  let (heap, r) := s.heap.allocObject o
  ({ s with heap }, r)

/-- Puts a host object on the heap. -/
def allocHost (s : State) (className : String) (data : HostData) : State × Nat :=
  s.allocObject ⟨className, .host data⟩

/-- Puts an array on the heap. -/
def allocArray (s : State) (elementType : Descriptor) (values : Array Value) : State × Nat :=
  let (heap, r) := s.heap.allocArray ⟨elementType, values⟩
  ({ s with heap }, r)

/-- A new string object. -/
def newString (s : State) (text : String) : State × Nat :=
  s.allocHost stringClass { contents? := some text }

/-- The string object for a literal: equal literals give the same object. -/
def intern (s : State) (text : String) : State × Nat :=
  match s.strings.get? text with
  | some r => (s, r)
  | none =>
    let (s, r) := s.newString text
    ({ s with strings := s.strings.insert text r }, r)

/-- The value of a field or an element that nobody has written: the empty string for strings, else
zero. -/
def defaultValue (s : State) (type : Descriptor) : State × Value :=
  if type = .object stringClass then
    let (s, r) := s.intern ""
    (s, .object r)
  else (s, .zeroOf type)

/-- The value that an initial value stands for in a field of a type. -/
def constantValue (s : State) (c : Constant) (type : Descriptor) : State × Value :=
  match c with
  | .integer v => (s, if type.isWide then .long v else .int v.toInt32)
  | .boolean b => (s, .int (if b then 1 else 0))
  | .string text =>
    let (s, r) := s.intern text
    (s, .object r)
  | .null => (s, .int 0)

/-- The first value of a static field. -/
def initialValue (s : State) (f : Field) : State × Value :=
  match f.initial? with
  | some c => s.constantValue c f.type
  | none => s.defaultValue f.type

/-- The first values of static fields, in order. -/
def initialStatics (s : State) (fields : List Field) : State × Table String Value :=
  fields.foldl (fun (s, table) f =>
    let (s, v) := s.initialValue f
    (s, table.insert f.name v)) (s, {})

end State

end Smali.Machine
