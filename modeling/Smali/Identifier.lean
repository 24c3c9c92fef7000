import Smali.Descriptor
import Smali.Text.Cut

/-!
# Member identifiers

`Lcom/Foo;->bar(IJ)V` names a method and `Lcom/Foo;->count:I` a field. Class name and member name are not
empty; each part ends at the first separator that can end it.
-/

namespace Smali

/-- Names a method by class, name, parameter types and result type. -/
structure MethodId where
  className : String
  name : String
  params : List Descriptor
  returnType : Descriptor
  deriving Repr, DecidableEq, Inhabited

/-- Names a field by class, name and type. -/
structure FieldId where
  className : String
  name : String
  type : Descriptor
  deriving Repr, DecidableEq, Inhabited

/-- The part of a method's text behind the arrow: name, parameters and result. -/
def signatureText (name : String) (params : List Descriptor) (returnType : Descriptor) : String :=
  name ++ "(" ++ Descriptor.listText params ++ ")" ++ returnType.text

namespace MethodId

/-- The text of a method identifier. -/
def text (m : MethodId) : String :=
  m.className ++ "->" ++ signatureText m.name m.params m.returnType

/-- Cuts a method identifier into class name, name, parameters and result. -/
def parts? (s : List Char) : Option (List Char × List Char × List Char × List Char) := do
  let (className, member) ← Text.cut ['-', '>'] s
  let (name, signature) ← Text.cutWhere (· == '(') member
  let (params, returnType) ← Text.cutWhere (· == ')') signature
  if className.isEmpty || name.isEmpty then none else some (className, name, params, returnType)

/-- Reads a method identifier. -/
def parse (s : List Char) : Except ReadError MethodId := do
  match parts? s with
  | none => .error (.identifier (String.ofList s))
  | some (className, name, params, returnType) =>
    let params ← Descriptor.parseList params
    let returnType ← Descriptor.parse returnType
    return ⟨String.ofList className, String.ofList name, params, returnType⟩

end MethodId

namespace FieldId

/-- The text of a field identifier. -/
def text (f : FieldId) : String :=
  f.className ++ "->" ++ f.name ++ ":" ++ f.type.text

/-- Cuts a field identifier into class name, name and type. -/
def parts? (s : List Char) : Option (List Char × List Char × List Char) := do
  let (className, member) ← Text.cut ['-', '>'] s
  let (name, type) ← Text.cutWhere (· == ':') member
  if className.isEmpty || name.isEmpty then none else some (className, name, type)

/-- Reads a field identifier. -/
def parse (s : List Char) : Except ReadError FieldId := do
  match parts? s with
  | none => .error (.identifier (String.ofList s))
  | some (className, name, type) =>
    return ⟨String.ofList className, String.ofList name, ← Descriptor.parse type⟩

end FieldId

end Smali
