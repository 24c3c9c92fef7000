import Smali.Instruction.Dump
import Smali.Program

/-!
# Classes on one line

A message about a handle shows the class, the method or the field behind it with all its parts.
-/

namespace Smali

open Dump

/-- The name of a flag. -/
def Flag.dump : Flag → String
  | .isPublic => "PUBLIC"
  | .isPrivate => "PRIVATE"
  | .isProtected => "PROTECTED"
  | .isStatic => "STATIC"
  | .isFinal => "FINAL"
  | .isSynchronized => "SYNCHRONIZED"
  | .isVolatile => "VOLATILE"
  | .isBridge => "BRIDGE"
  | .isTransient => "TRANSIENT"
  | .isVarargs => "VARARGS"
  | .isNative => "NATIVE"
  | .isInterface => "INTERFACE"
  | .isAbstract => "ABSTRACT"
  | .isStrict => "STRICT"
  | .isSynthetic => "SYNTHETIC"
  | .isMarkerType => "ANNOTATION"
  | .isEnum => "ENUM"
  | .isConstructor => "CONSTRUCTOR"
  | .isDeclaredSynchronized => "DECLARED_SYNCHRONIZED"

/-- A set of flags. -/
def Flags.dump (s : Flags) : String :=
  wrap "AccessFlags" (if s.bits = 0 then "0x0" else " | ".intercalate (s.toList.map Flag.dump))

/-- A table. -/
def Table.dump (t : Table String α) (dumpValue : α → String) : String :=
  "\x7b" ++ ", ".intercalate (t.entries.map fun (k, v) => Text.quote k ++ ": " ++ dumpValue v) ++ "\x7d"

/-- A switch table with its parts. -/
def SwitchTable.dump (t : SwitchTable) : String :=
  parts "SwitchTable" [("starting_value", toString t.start.toInt),
    ("labels", list (t.labels.map Text.quote))]

/-- Code with its parts. -/
def Code.dump (c : Code) : String :=
  parts "Code" [("register_count", toString c.registerCount),
    ("instructions", list (c.instructions.toList.map Instruction.dump)),
    ("labels", c.labels.dump fun n => toString n),
    ("switch_tables", c.switchTables.dump SwitchTable.dump)]

/-- The body of a method. -/
def Body.dump : Body → String
  | .code c => wrap "Code" c.dump
  | .native => "Native"

/-- A method with its parts. -/
def Method.dump (m : Method) : String :=
  parts "MethodDef" [("class_name", Text.quote m.className), ("name", Text.quote m.name),
    ("flags", m.flags.dump), ("params", list (m.params.map Descriptor.dump)),
    ("return_type", m.returnType.dump), ("body", m.body.dump)]

/-- An initial value. -/
def Constant.dump : Constant → String
  | .integer v => wrap "Integer" (toString v.toInt)
  | .boolean b => wrap "Boolean" (if b then "true" else "false")
  | .string s => wrap "String" (Text.quote s)
  | .null => "Null"

/-- A field with its parts. -/
def Field.dump (f : Field) : String :=
  parts "FieldDef" [("flags", f.flags.dump), ("name", Text.quote f.name), ("descriptor", f.type.dump),
    ("initial_value", option (f.initial?.map Constant.dump))]

/-- The number of a class. -/
def classIdDump (id : Nat) : String :=
  wrap "ClassId" (toString id)

/-- A class with its parts. -/
def LoadedClass.dump (c : LoadedClass) : String :=
  parts "ClassDef" [("id", classIdDump c.id), ("flags", c.flags.dump), ("name", Text.quote c.name),
    ("super_name", option (c.superName?.map Text.quote)),
    ("super_class", option (c.superId?.map classIdDump)), ("fields", c.fields.dump Field.dump),
    ("methods", list (c.methods.map Method.dump))]

end Smali
