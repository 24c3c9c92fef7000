import Smali.Instruction.Dump
import Smali.ReadError
import Smali.Text.Numeral

/-!
# Why a run fails

Each way in which an operation of the machine fails is a constructor; `Fault.message` is the one place
that words it. Where a cause shows a value, it holds the text of the value at that moment.
-/

namespace Smali.Machine

/-- What a value is. -/
inductive Variant where
  | int
  | long
  | object
  | array
  deriving Repr, DecidableEq, Inhabited

/-- The name of a variant. -/
def Variant.text : Variant → String
  | int => "Int32"
  | long => "Int64"
  | object => "ObjectRef"
  | array => "ArrayRef"

/-- How a value does not suit the use that is made of it. -/
inductive Mismatch where
  | expected (wanted got : Variant)
  | expectedReference (got : Variant)
  | neverWritten (index : Nat)
  | wideInSlot (index : Nat)
  | notAReference (slot : Slot) (value : String)
  | wrongKind (kind : ValueKind) (value : String)
  | hostWithoutFields (className : String)
  | notHost (className : String)
  | notText (className key property : String)
  | accessor (kind : AccessKind) (field : FieldId)
  | doesNotFit (value : String) (type : Descriptor)
  | castOfValue (value : String)
  | cast (actual type : Descriptor)
  | returnsVoid (method : String)
  | returnVoidIn (method : String)
  | noResult
  | virtualOnValue (method : MethodId) (value : String)
  | virtualWithoutReceiver (method : MethodId)
  | branchOnValue (cmp : Comparison) (value : String)
  | branchOnValues (cmp : Comparison) (a b : String)
  | newArrayOf (type : Descriptor)
  | arrayRead (kind : AccessKind) (array : String)
  | arrayWrite (kind : AccessKind) (array : String)
  | receiverNeeded
  | argumentMissing (index count : Nat)
  | argumentsNotArray (value : String)
  | notACodePoint (value : Int32)
  | notAnObject (type : Descriptor)
  | doesNotFitField (value className field : String) (type : Descriptor)
  deriving Repr, DecidableEq, Inhabited

/-- The wording of a mismatch. -/
def Mismatch.message : Mismatch → String
  | expected wanted got => s!"expected {wanted.text}, got {got.text}"
  | expectedReference got => s!"expected a reference, got {got.text}"
  | neverWritten index => s!"slot {index} was never written"
  | wideInSlot index => s!"slot {index} can't hold a wide value"
  | notAReference slot value => s!"{slot.text} holds {value}, not a reference"
  | wrongKind kind value => s!"{kind.dump} value expected, got {value}"
  | hostWithoutFields className => s!"{className} is a host object without fields"
  | notHost className => s!"{className} is not a host object"
  | notText className key property => s!"{className}.{key} is not text: {property}"
  | accessor kind field => s!"accessor '{kind.suffix}' can't access {field.text}"
  | doesNotFit value type => s!"{value} can't be stored as {type}"
  | castOfValue value => s!"check-cast on non reference {value}"
  | cast actual type => s!"{actual} can't be cast to {type}"
  | returnsVoid method => s!"{method} returns void"
  | returnVoidIn method => s!"return-void in {method}"
  | noResult => "move-result without a result"
  | virtualOnValue method value => s!"invoke-virtual {method.text} on {value}"
  | virtualWithoutReceiver method => s!"invoke-virtual {method.text} without receiver"
  | branchOnValue cmp value => s!"if-{cmp.text}z on {value}"
  | branchOnValues cmp a b => s!"if-{cmp.text} on {a} and {b}"
  | newArrayOf type => s!"new-array of {type}"
  | arrayRead kind array => s!"aget{kind.suffix} on {array}"
  | arrayWrite kind array => s!"aput{kind.suffix} on {array}"
  | receiverNeeded => "native method needs a receiver"
  | argumentMissing index count => s!"missing argument {index} of {count}"
  | argumentsNotArray value => s!"arguments must be an array, got {value}"
  | notACodePoint value => s!"{Text.hexText value.toUInt32.toNat} is not a code point"
  | notAnObject type => s!"{type} can't be returned as an object"
  | doesNotFitField value className field type =>
    s!"{value} can't be stored in {className}->{field}:{type}"

/-- Why there is no method to run. -/
inductive MissingMethod where
  /-- No method answers to the identifier. -/
  | unresolved (id : MethodId)
  /-- The method is only declared. -/
  | withoutBody (method : String)
  /-- The host does not implement the method. -/
  | withoutHost (method : String)
  /-- The class has no method of that name. -/
  | undeclared (className name : String)
  /-- The class has several methods of that name. -/
  | overloaded (className name : String)
  deriving Repr, DecidableEq, Inhabited

/-- The wording of a missing method. -/
def MissingMethod.message : MissingMethod → String
  | unresolved id => id.text
  | withoutBody method => s!"{method} is abstract"
  | withoutHost method => s!"no native code for {method}"
  | undeclared className name => s!"{className}->{name}"
  | overloaded className name => s!"{className}->{name} is overloaded"

/-- Why an operation of the machine fails. -/
inductive Fault where
  | typeMismatch (cause : Mismatch)
  | outOfBounds (index : Int) (length : Nat)
  | classNotFound (name : String)
  | methodNotFound (cause : MissingMethod)
  | fieldNotFound (field : String)
  | labelNotFound (label : String)
  | alreadyLocked
  | notLocked
  | missingReturn (method : String)
  | unknownInstruction (mnemonic : String)
  | overflow (value : Int64)
  | underflow (value : Int64)
  | divisionByZero
  | stackOverflow (limit : Nat)
  | unreadable (error : ReadError)
  /-- A reference to nothing on the heap; no run makes one. -/
  | dangling
  deriving Repr, DecidableEq, Inhabited

/-- The wording of a fault. -/
def Fault.message : Fault → String
  | typeMismatch cause => "type mismatch: " ++ cause.message
  | outOfBounds index length => s!"index {index} out of bounds for length {length}"
  | classNotFound name => s!"class not found: {name}"
  | methodNotFound cause => "method not found: " ++ cause.message
  | fieldNotFound field => s!"field not found: {field}"
  | labelNotFound label => s!"label not found: {label}"
  | alreadyLocked => "already locked"
  | notLocked => "not locked"
  | missingReturn method => s!"no return at the end of {method}"
  | unknownInstruction mnemonic => s!"unknown instruction: {mnemonic}"
  | overflow value => s!"literal {value.toInt} overflows its instruction width"
  | underflow value => s!"literal {value.toInt} underflows its instruction width"
  | divisionByZero => "division by zero"
  | stackOverflow limit => s!"stack over flow, call depth exceeds {limit}"
  | unreadable error => error.message
  | dangling => "reference to nothing"

/-- The failure with a mismatch as its cause. -/
def mismatch (cause : Mismatch) : Except Fault α :=
  .error (.typeMismatch cause)

end Smali.Machine
