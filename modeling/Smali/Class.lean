import Smali.Method

/-!
# Classes

One class as it is written down: flags, superclass, fields in the order of declaration and methods.
-/

namespace Smali

/-- The initial value of a field. Floating-point numbers are kept as their bit patterns. -/
inductive Constant where
  | integer (value : Int64)
  | boolean (value : Bool)
  | string (text : String)
  | null
  deriving Repr, DecidableEq, Inhabited

/-- A field of a class. -/
structure Field where
  flags : Flags
  name : String
  type : Descriptor
  initial? : Option Constant
  deriving Repr, DecidableEq, Inhabited

/-- Whether the field belongs to the class and not to its objects. -/
def Field.isStatic (f : Field) : Bool := f.flags.contains .isStatic

/-- A class as it is written down. -/
structure Class where
  flags : Flags
  name : String
  superName? : Option String := none
  fields : Table String Field := {}
  methods : List Method := []
  deriving Repr, DecidableEq, Inhabited

namespace Class

/-- The fields that belong to the class, in the order of declaration. -/
def staticFields (c : Class) : List Field :=
  c.fields.values.filter Field.isStatic

/-- The method that sets the class up. -/
def initMethod? (c : Class) : Option Method :=
  c.methods.find? Method.isClassInit

/-- How a class is shown. -/
def text (c : Class) : String :=
  "Class " ++ c.name ++
    match c.superName? with
    | some name => "(extends " ++ name ++ ")"
    | none => ""

end Class

end Smali
