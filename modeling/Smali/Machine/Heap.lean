import Smali.Machine.Value
import Smali.Program.Dump
import Smali.Text.Quoted

/-!
# The heap

Objects and arrays live on the heap from their allocation on; a reference is the place of its object or
array. An instance holds fields. A host object holds what the host needs instead: the text of a string,
the number in a box, the class, method or field behind a handle.

How values are shown depends on the heap: a string shows its text, any other object its class, an array
its type and its length. Identities are not shown.
-/

namespace Smali.Machine

/-- What a host object holds. -/
structure HostData where
  contents? : Option String := none
  number? : Option Value := none
  name? : Option String := none
  class? : Option LoadedClass := none
  method? : Option Method := none
  field? : Option (LoadedClass × Field) := none
  deriving Repr, DecidableEq, Inhabited

/-- What an object holds. -/
inductive ObjectBody where
  /-- The fields written so far. -/
  | fields (fields : Table String Value)
  | host (data : HostData)
  deriving Repr, DecidableEq, Inhabited

/-- An object on the heap. -/
structure Object where
  className : String
  body : ObjectBody
  deriving Repr, DecidableEq, Inhabited

/-- An array on the heap. Its length never changes. -/
structure ArrayObject where
  elementType : Descriptor
  values : Array Value
  deriving Repr, DecidableEq, Inhabited

/-- All objects and arrays, oldest first. -/
structure Heap where
  objects : Array Object := #[]
  arrays : Array ArrayObject := #[]
  deriving Repr, DecidableEq, Inhabited

/-! ## Objects -/

namespace Object

/-- The fields of an instance. -/
def fields (o : Object) : Except Fault (Table String Value) :=
  match o.body with
  | .fields fields => .ok fields
  | .host _ => mismatch (.hostWithoutFields o.className)

/-- What the host keeps in a host object. -/
def hostData (o : Object) : Except Fault HostData :=
  match o.body with
  | .host data => .ok data
  | .fields _ => mismatch (.notHost o.className)

/-- The property that the host keeps under a key. -/
def property (o : Object) (key : String) (get : HostData → Option α) : Except Fault α := do
  match get (← o.hostData) with
  | some a => return a
  | none => .error (.fieldNotFound (o.className ++ "." ++ key))

/-- The text of a string object. -/
def contents (o : Object) : Except Fault String :=
  o.property "contents" HostData.contents?

end Object

namespace ArrayObject

/-- The place of an index, which has to lie inside. -/
def place (a : ArrayObject) (index : Int) : Except Fault Nat :=
  if 0 ≤ index ∧ index < a.values.size then .ok index.toNat
  else .error (.outOfBounds index a.values.size)

/-- The element at an index. -/
def get (a : ArrayObject) (index : Int) : Except Fault Value := do
  let i ← a.place index
  match a.values[i]? with
  | some v => return v
  | none => .error (.outOfBounds index a.values.size)

end ArrayObject

/-! ## Reading and writing -/

namespace Heap

/-- The object behind a reference. -/
def object (h : Heap) (ref : Nat) : Except Fault Object :=
  match h.objects[ref]? with
  | some o => .ok o
  | none => .error .dangling

/-- The array behind a reference. -/
def array (h : Heap) (ref : Nat) : Except Fault ArrayObject :=
  match h.arrays[ref]? with
  | some a => .ok a
  | none => .error .dangling

/-- Puts an object on the heap. -/
def allocObject (h : Heap) (o : Object) : Heap × Nat :=
  ({ h with objects := h.objects.push o }, h.objects.size)

/-- Puts an array on the heap. -/
def allocArray (h : Heap) (a : ArrayObject) : Heap × Nat :=
  ({ h with arrays := h.arrays.push a }, h.arrays.size)

/-- Writes a field of an instance. -/
def setField (h : Heap) (ref : Nat) (name : String) (v : Value) : Except Fault Heap := do
  let o ← h.object ref
  let fields ← o.fields
  return { h with
    objects := h.objects.setIfInBounds ref { o with body := .fields (fields.insert name v) } }

/-- Changes what the host keeps in a host object. -/
def setHostData (h : Heap) (ref : Nat) (change : HostData → HostData) : Except Fault Heap := do
  let o ← h.object ref
  let data ← o.hostData
  return { h with objects := h.objects.setIfInBounds ref { o with body := .host (change data) } }

/-- Writes an element of an array. -/
def setElement (h : Heap) (ref : Nat) (index : Int) (v : Value) : Except Fault Heap := do
  let a ← h.array ref
  let i ← a.place index
  return { h with
    arrays := h.arrays.modify ref fun a => { a with values := a.values.setIfInBounds i v } }

/-! ## Texts -/

/-- An object without its contents. -/
def objectText (h : Heap) (ref : Nat) : String :=
  match h.objects[ref]? with
  | some o => o.className ++ "@"
  | none => "@"

/-- An array without its length. -/
def arrayText (h : Heap) (ref : Nat) : String :=
  match h.arrays[ref]? with
  | some a => "[" ++ a.elementType.text ++ "@"
  | none => "@"

/-- How a value is shown in the journal: with its variant and without contents. -/
def dump (h : Heap) : Value → String
  | .int v => "Int32(" ++ toString v.toInt ++ ")"
  | .long v => "Int64(" ++ toString v.toInt ++ ")"
  | .object r => "ObjectRef(" ++ h.objectText r ++ ")"
  | .array r => "ArrayRef(" ++ h.arrayText r ++ ")"

/-- The text that a host object keeps under a key. -/
def textOf (h : Heap) (ref : Nat) (key : String) : Except Fault String := do
  let o ← h.object ref
  let notText (property : String) : Except Fault String :=
    mismatch (.notText o.className key property)
  match key with
  | "contents" => o.contents
  | "name" => o.property key HostData.name?
  | "number" => notText ("Value(" ++ h.dump (← o.property key HostData.number?) ++ ")")
  | "class" => notText ("Class(" ++ (← o.property key HostData.class?).dump ++ ")")
  | "method" => notText ("Method(" ++ (← o.property key HostData.method?).dump ++ ")")
  | "field" =>
    let (c, f) ← o.property key HostData.field?
    notText ("Field(" ++ c.dump ++ ", " ++ f.dump ++ ")")
  | _ => o.property key fun _ => none

/-- The text of a string object is what it keeps as its contents. -/
theorem textOf_contents (h : Heap) (ref : Nat) :
    h.textOf ref "contents" = h.object ref >>= Object.contents := rfl

/-- The text of the string object that a value has to be. -/
def stringOf (h : Heap) (v : Value) : Except Fault String := do
  h.textOf (← v.asObject) "contents"

/-- How a value is shown in results and messages. -/
def shown (h : Heap) : Value → String
  | .int v => toString v.toInt
  | .long v => toString v.toInt ++ "L"
  | .object r =>
    match h.stringOf (.object r) with
    | .ok text => Text.quote text
    | .error _ => h.objectText r
  | .array r =>
    h.arrayText r ++ "(" ++ toString ((h.arrays[r]?.map (·.values.size)).getD 0) ++ ")"

end Heap

end Smali.Machine
