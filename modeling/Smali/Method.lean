import Smali.Flags
import Smali.Instruction.Basic
import Smali.Table

/-!
# Methods

A method has a signature, flags and a body. The body is code, or it is left to the host. A label stands
for the number of instructions in front of it; a switch table is named by a label of its own.
-/

namespace Smali

/-- The targets of a switch: one label for each key from `start` on. -/
structure SwitchTable where
  start : Int32
  labels : List String := []
  deriving Repr, DecidableEq, Inhabited

/-- The label for a key, none if the key is not covered. -/
def SwitchTable.target? (t : SwitchTable) (key : Int32) : Option String :=
  if t.start.toInt ≤ key.toInt then t.labels[(key.toInt - t.start.toInt).toNat]? else none

/-- The code of a method. -/
structure Code where
  registerCount : Nat := 1
  instructions : Array Instruction := #[]
  /-- For each label the number of instructions in front of it. -/
  labels : Table String Nat := {}
  /-- The switch tables under the labels that name them. -/
  switchTables : Table String SwitchTable := {}
  deriving Repr, DecidableEq, Inhabited

/-- A label or a switch table that an instruction names without its being there. -/
def Code.missingName? (c : Code) (i : Instruction) : Option String :=
  match i with
  | .packedSwitch _ table => if c.switchTables.contains table then none else some table
  | i => i.branchLabel?.filter (!c.labels.contains ·)

/-- The first name that is used and not defined: in the instructions, then in the switch tables. -/
def Code.undefinedLabel? (c : Code) : Option String :=
  (c.instructions.toList.findSome? c.missingName?).or
    (c.switchTables.values.findSome? fun t => t.labels.find? (!c.labels.contains ·))

/-- What a method does when it is called. -/
inductive Body where
  | code (code : Code)
  /-- The host implements the method. -/
  | native
  deriving Repr, DecidableEq, Inhabited

/-- A method of a class. Class, name and parameters tell methods apart. -/
structure Method where
  className : String
  name : String
  flags : Flags
  params : List Descriptor
  returnType : Descriptor
  body : Body
  deriving Repr, DecidableEq, Inhabited

namespace Method

/-- Whether the method belongs to the class and not to its objects. -/
def isStatic (m : Method) : Bool := m.flags.contains .isStatic

/-- Whether the method is only declared. -/
def isAbstract (m : Method) : Bool := m.flags.contains .isAbstract

/-- Whether the host implements the method. -/
def isNative (m : Method) : Bool :=
  match m.body with
  | .native => true
  | .code _ => false

/-- Whether the method sets its class up. -/
def isClassInit (m : Method) : Bool := m.name == "<clinit>" && m.params.isEmpty

/-- Whether name and parameters agree. -/
def answersTo (m : Method) (name : String) (params : List Descriptor) : Bool :=
  m.name == name && m.params == params

/-- Name, parameters and result. -/
def signature (m : Method) : String := signatureText m.name m.params m.returnType

/-- The text of a method: its class and its signature. -/
def text (m : Method) : String := m.className ++ "->" ++ m.signature

end Method

end Smali
