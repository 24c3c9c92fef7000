import Smali.Instruction.Basic
import Smali.Text.Cut

/-!
# Mnemonics

`Form.ofMnemonic?` recognises a mnemonic and gives its form: what the instruction is and which operands it
takes. Some mnemonics are known as a whole. The others are made of parts: accessors, calls and branches
begin with a word of their family, and operations are an operator, a type and perhaps a suffix.
-/

namespace Smali

/-- What a move, a result or a return handles, by its mnemonic. -/
def ValueKind.ofMnemonic (mnemonic : String) : ValueKind :=
  if Text.contains "-wide".toList mnemonic.toList then .wide
  else if Text.contains "-object".toList mnemonic.toList then .object
  else .single

/-- What a mnemonic says about its instruction. -/
inductive Form where
  | nop
  | const (bits : Nat)
  | constWide (bits : Nat)
  | constString
  | move (kind : ValueKind)
  | moveResult (kind : ValueKind)
  | returnVoid
  | returnValue (kind : ValueKind)
  | newInstance
  | newArray
  | arrayLength
  | monitorEnter
  | monitorExit
  | checkCast
  | goto
  | packedSwitch
  | compareLong
  | compareDouble
  | convert (conversion : Conversion)
  | staticGet (kind : AccessKind)
  | staticPut (kind : AccessKind)
  | instanceGet (kind : AccessKind)
  | instancePut (kind : AccessKind)
  | arrayGet (kind : AccessKind)
  | arrayPut (kind : AccessKind)
  /-- With `ranged` the mnemonic takes any number of registers. -/
  | invoke (kind : InvokeKind) (ranged : Bool)
  | ifZero (cmp : Comparison)
  | ifTest (cmp : Comparison)
  | literalArithmetic (op : BinaryOp) (bits : Nat)
  /-- With `inPlace` the destination is also the left operand. -/
  | arithmetic (op : BinaryOp) (width : Width) (inPlace : Bool)
  | doubleArithmetic (op : BinaryOp) (inPlace : Bool)
  deriving Repr, DecidableEq, Inhabited

namespace Form

/-- The form of a mnemonic that is known as a whole. -/
def ofWhole? (mnemonic : String) : Option Form :=
  match mnemonic with
  | "nop" => some nop
  | "const/4" => some (const 4)
  | "const/16" => some (const 16)
  | "const" | "const/high16" => some (const 32)
  | "const-wide/16" => some (constWide 16)
  | "const-wide/32" => some (constWide 32)
  | "const-wide" | "const-wide/high16" => some (constWide 64)
  | "const-string" | "const-string/jumbo" => some constString
  | "move" | "move/from16" | "move/16" | "move-wide" | "move-wide/from16" | "move-wide/16"
  | "move-object" | "move-object/from16" | "move-object/16" => some (move (.ofMnemonic mnemonic))
  | "move-result" | "move-result-wide" | "move-result-object" =>
    some (moveResult (.ofMnemonic mnemonic))
  | "return-void" => some returnVoid
  | "return" | "return-wide" | "return-object" => some (returnValue (.ofMnemonic mnemonic))
  | "new-instance" => some newInstance
  | "new-array" => some newArray
  | "array-length" => some arrayLength
  | "monitor-enter" => some monitorEnter
  | "monitor-exit" => some monitorExit
  | "check-cast" => some checkCast
  | "goto" | "goto/16" | "goto/32" => some goto
  | "packed-switch" => some packedSwitch
  | "cmp-long" => some compareLong
  | "cmpg-double" => some compareDouble
  | "long-to-int" => some (convert .longToInt)
  | "int-to-long" => some (convert .intToLong)
  | "int-to-short" => some (convert .intToShort)
  | "int-to-byte" => some (convert .intToByte)
  | "int-to-char" => some (convert .intToChar)
  | "rsub-int" => some (literalArithmetic .rsub 16)
  | _ => none

/-- The beginnings of accessors, with the forms that they have for each kind of access. -/
def accessorBeginnings : List (String × (AccessKind → Form)) :=
  [("sget", staticGet), ("sput", staticPut), ("iget", instanceGet), ("iput", instancePut),
    ("aget", arrayGet), ("aput", arrayPut)]

/-- An accessor: one of the beginnings, and what its kind adds. -/
def ofAccessor? (mnemonic : List Char) : Option Form :=
  accessorBeginnings.findSome? fun (beginning, form) => do
    let suffix ← Text.afterStart? beginning.toList mnemonic
    form <$> AccessKind.ofSuffix? (String.ofList suffix)

/-- A call, by what follows `invoke-`: its kind, and `/range` if it takes any number of registers. -/
def ofInvoke? (rest : List Char) : Option Form :=
  match Text.cutWhere (· == '/') rest with
  | some (kind, ending) =>
    if ending = "range".toList then (invoke · true) <$> InvokeKind.ofText? (String.ofList kind) else none
  | none => (invoke · false) <$> InvokeKind.ofText? (String.ofList rest)

/-- A branch, by what follows `if-`: its comparison, and `z` if it compares with zero. -/
def ofBranch? (rest : List Char) : Option Form :=
  if rest.getLast? = some 'z' then ifZero <$> Comparison.ofText? (String.ofList rest.dropLast)
  else ifTest <$> Comparison.ofText? (String.ofList rest)

/-- The operation of an operator on a type, with the suffix of its mnemonic. Subtraction of a literal is
written as an addition, a shift distance needs no more than eight bits, reversed subtraction takes a
literal, and doubles have no bits. -/
def operation? (op : BinaryOp) (type : String) (suffix? : Option String) : Option Form :=
  if type = "int" ∧ suffix? = some "lit8" ∧ op ≠ .sub then some (literalArithmetic op 8)
  else if type = "int" ∧ suffix? = some "lit16" ∧ !op.isShift ∧ op ≠ .sub ∧ op ≠ .rsub then
    some (literalArithmetic op 16)
  else if op = .rsub then none
  else if (type = "int" ∨ type = "long") ∧ (suffix? = none ∨ suffix? = some "2addr") then
    some (arithmetic op (if type = "int" then .int else .long) suffix?.isSome)
  else if type = "double" ∧ (suffix? = none ∨ suffix? = some "2addr") ∧ op.isDouble then
    some (doubleArithmetic op suffix?.isSome)
  else none

/-- An operation without its suffix: an operator, a hyphen and a type. -/
def ofOperation? (name : List Char) (suffix? : Option (List Char)) : Option Form := do
  let (op, type) ← Text.cutWhere (· == '-') name
  operation? (← BinaryOp.ofText? (String.ofList op)) (String.ofList type) (suffix?.map String.ofList)

/-- A mnemonic that is made of parts. -/
def ofParts? (mnemonic : List Char) : Option Form :=
  match ofAccessor? mnemonic, Text.afterStart? "invoke-".toList mnemonic,
    Text.afterStart? "if-".toList mnemonic with
  | some form, _, _ => some form
  | none, some rest, _ => ofInvoke? rest
  | none, none, some rest => ofBranch? rest
  | none, none, none =>
    match Text.cutWhere (· == '/') mnemonic with
    | some (name, suffix) => ofOperation? name (some suffix)
    | none => ofOperation? mnemonic none

/-- The form of a mnemonic. -/
def ofMnemonic? (mnemonic : String) : Option Form :=
  (ofWhole? mnemonic).or (ofParts? mnemonic.toList)

end Form

end Smali
