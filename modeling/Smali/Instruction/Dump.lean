import Smali.Instruction.Basic
import Smali.Text.Quoted

/-!
# Instructions on one line

The journal shows an instruction with all its parts: the name of the instruction, then each part with its
name, texts in quotes.
-/

namespace Smali

namespace Dump

/-- A name with named parts. -/
def parts (name : String) (fields : List (String × String)) : String :=
  name ++ " \x7b " ++ ", ".intercalate (fields.map fun (k, v) => k ++ ": " ++ v) ++ " \x7d"

/-- A name with one part. -/
def wrap (name inner : String) : String :=
  name ++ "(" ++ inner ++ ")"

/-- A list. -/
def list (items : List String) : String :=
  "[" ++ ", ".intercalate items ++ "]"

/-- A part that may be missing. -/
def option : Option String → String
  | some s => wrap "Some" s
  | none => "None"

end Dump

open Dump

/-- A descriptor with its name. -/
def Descriptor.dump : Descriptor → String
  | .boolean => "Boolean"
  | .byte => "Byte"
  | .short => "Short"
  | .char => "Char"
  | .int => "Int"
  | .long => "Long"
  | .float => "Float"
  | .double => "Double"
  | .void => "Void"
  | .object name => wrap "Object" (Text.quote name)
  | .array element => wrap "Array" element.dump

/-- A slot with its name. -/
def Slot.dump : Slot → String
  | .register i => wrap "Register" (toString i)
  | .parameter i => wrap "Parameter" (toString i)

/-- A literal with its parts. -/
def Literal.dump (l : Literal) : String :=
  parts "Literal" [("value", toString l.value.toInt), ("bits", toString l.bits)]

/-- A method identifier with its parts. -/
def MethodId.dump (m : MethodId) : String :=
  parts "MethodIdentifier" [("class_name", Text.quote m.className), ("name", Text.quote m.name),
    ("params", list (m.params.map Descriptor.dump)), ("return_type", m.returnType.dump)]

/-- A field identifier with its parts. -/
def FieldId.dump (f : FieldId) : String :=
  parts "FieldIdentifier" [("class_name", Text.quote f.className), ("name", Text.quote f.name),
    ("descriptor", f.type.dump)]

/-- The name of a kind of value. -/
def ValueKind.dump : ValueKind → String
  | .single => "Single"
  | .wide => "Wide"
  | .object => "Object"

/-- The name of a kind of accessor. -/
def AccessKind.dump : AccessKind → String
  | .int => "Int"
  | .wide => "Wide"
  | .object => "Object"
  | .boolean => "Boolean"
  | .byte => "Byte"
  | .char => "Char"
  | .short => "Short"

/-- The name of a kind of call. -/
def InvokeKind.dump : InvokeKind → String
  | .static => "Static"
  | .direct => "Direct"
  | .virtual => "Virtual"

/-- The name of a comparison. -/
def Comparison.dump : Comparison → String
  | .eq => "Eq"
  | .ne => "Ne"
  | .lt => "Lt"
  | .ge => "Ge"
  | .gt => "Gt"
  | .le => "Le"

/-- The name of a conversion. -/
def Conversion.dump : Conversion → String
  | .longToInt => "LongToInt"
  | .intToLong => "IntToLong"
  | .intToShort => "IntToShort"
  | .intToByte => "IntToByte"
  | .intToChar => "IntToChar"

/-- The name of an operation. -/
def BinaryOp.dump : BinaryOp → String
  | .add => "Add"
  | .sub => "Sub"
  | .rsub => "Rsub"
  | .mul => "Mul"
  | .div => "Div"
  | .rem => "Rem"
  | .and => "And"
  | .or => "Or"
  | .xor => "Xor"
  | .shl => "Shl"
  | .shr => "Shr"
  | .ushr => "Ushr"

/-- The name of a width. -/
def Width.dump : Width → String
  | .int => "Int"
  | .long => "Long"

/-- The widths of an operation. -/
def Signature.dump (s : Signature) : String :=
  parts "TypeSignature" [("result", s.result.dump), ("lhs", s.lhs.dump), ("rhs", s.rhs.dump)]

/-- The right operand of an operation. -/
def Operand.dump : Operand → String
  | .slot s => wrap "Slot" s.dump
  | .literal l => wrap "Literal" l.dump

/-- An instruction on one line. -/
def Instruction.dump : Instruction → String
  | .nop => "Nop"
  | .const dest literal => parts "Const" [("dest", dest.dump), ("literal", literal.dump)]
  | .constWide dest literal => parts "ConstWide" [("dest", dest.dump), ("literal", literal.dump)]
  | .constString dest text => parts "ConstString" [("dest", dest.dump), ("text", Text.quote text)]
  | .move kind dest src => parts "Move" [("kind", kind.dump), ("dest", dest.dump), ("src", src.dump)]
  | .moveResult kind dest => parts "MoveResult" [("kind", kind.dump), ("dest", dest.dump)]
  | .returnVoid => "ReturnVoid"
  | .returnValue kind src => parts "Return" [("kind", kind.dump), ("src", src.dump)]
  | .staticGet kind dest field =>
    parts "StaticGet" [("kind", kind.dump), ("dest", dest.dump), ("field", field.dump)]
  | .staticPut kind src field =>
    parts "StaticPut" [("kind", kind.dump), ("src", src.dump), ("field", field.dump)]
  | .instanceGet kind dest object field =>
    parts "InstanceGet" [("kind", kind.dump), ("dest", dest.dump), ("object", object.dump),
      ("field", field.dump)]
  | .instancePut kind src object field =>
    parts "InstancePut" [("kind", kind.dump), ("src", src.dump), ("object", object.dump),
      ("field", field.dump)]
  | .invoke kind args method =>
    parts "Invoke" [("kind", kind.dump), ("args", list (args.map Slot.dump)), ("method", method.dump)]
  | .ifZero cmp src label =>
    parts "IfTestZero" [("cmp", cmp.dump), ("src", src.dump), ("label", Text.quote label)]
  | .ifTest cmp a b label =>
    parts "IfTest" [("cmp", cmp.dump), ("a", a.dump), ("b", b.dump), ("label", Text.quote label)]
  | .goto label => parts "Goto" [("label", Text.quote label)]
  | .packedSwitch src table => parts "PackedSwitch" [("src", src.dump), ("table", Text.quote table)]
  | .compareLong dest a b =>
    parts "CompareLong" [("dest", dest.dump), ("a", a.dump), ("b", b.dump)]
  | .compareDouble dest a b =>
    parts "CompareDouble" [("dest", dest.dump), ("a", a.dump), ("b", b.dump)]
  | .convert conversion dest src =>
    parts "Convert" [("conversion", conversion.dump), ("dest", dest.dump), ("src", src.dump)]
  | .arithmetic op signature dest lhs rhs =>
    parts "Arithmetic" [("op", op.dump), ("signature", signature.dump), ("dest", dest.dump),
      ("lhs", lhs.dump), ("rhs", rhs.dump)]
  | .doubleArithmetic op dest lhs rhs =>
    parts "DoubleArithmetic" [("op", op.dump), ("dest", dest.dump), ("lhs", lhs.dump),
      ("rhs", rhs.dump)]
  | .newArray dest length type =>
    parts "NewArray" [("dest", dest.dump), ("length", length.dump), ("array_type", type.dump)]
  | .arrayGet kind dest array index =>
    parts "ArrayGet" [("kind", kind.dump), ("dest", dest.dump), ("array", array.dump),
      ("index", index.dump)]
  | .arrayPut kind src array index =>
    parts "ArrayPut" [("kind", kind.dump), ("src", src.dump), ("array", array.dump),
      ("index", index.dump)]
  | .arrayLength dest array => parts "ArrayLength" [("dest", dest.dump), ("array", array.dump)]
  | .newInstance dest className =>
    parts "NewInstance" [("dest", dest.dump), ("class_name", Text.quote className)]
  | .monitorEnter slot => wrap "MonitorEnter" slot.dump
  | .monitorExit slot => wrap "MonitorExit" slot.dump
  | .checkCast src type => parts "CheckCast" [("src", src.dump), ("descriptor", type.dump)]
  | .unsupported mnemonic => parts "Unsupported" [("mnemonic", Text.quote mnemonic)]

end Smali
