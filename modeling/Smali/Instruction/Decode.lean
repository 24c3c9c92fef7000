import Smali.Instruction.Form
import Smali.Token

/-!
# Decoding an instruction line

A mnemonic without a form gives an unsupported instruction, whatever its operands. Otherwise the operands
must be as many as the form asks for, and each must have the shape that its place asks for; operands are
read from the left, except that a type to instantiate is looked at first.
-/

namespace Smali

/-! ## Operands of an instruction with a known mnemonic -/

/-- Why the operands of an instruction cannot be read. -/
inductive OperandError where
  /-- They are refused. -/
  | refused (error : ReadError)
  /-- An operand is asked for behind the last one. -/
  | missing (mnemonic : String) (index count : Nat)
  deriving Repr, DecidableEq

/-- The error of the line. A missing operand is one too few. -/
def OperandError.toReadError : OperandError → ReadError
  | refused error => error
  | missing mnemonic index count => .operandCount mnemonic (index + 1) count

/-- The operands that follow a mnemonic. -/
structure Operands where
  mnemonic : String
  tokens : List Token

namespace Operands

variable (mnemonic : String)

/-- The refusal of an operand. -/
def refuse (text : String) : Except ReadError α :=
  .error (.operand mnemonic text)

/-- An operand that is a word. -/
def word : Token → Except ReadError String
  | .word text => .ok text
  | token => refuse mnemonic token.shown

/-- An operand that is a slot. -/
def slot (token : Token) : Except ReadError Slot := do
  let text ← word mnemonic token
  match Slot.parse? text.toList with
  | some slot => return slot
  | none => refuse mnemonic text

/-- An operand that is a literal for a field of the given width. -/
def literal (token : Token) (bits : Nat) : Except ReadError Literal := do
  return ⟨← Literal.parse (← word mnemonic token).toList, bits⟩

/-- An operand that is a label: a colon and a name. -/
def label (token : Token) : Except ReadError String := do
  let text ← word mnemonic token
  match text.toList with
  | ':' :: c :: name => return String.ofList (c :: name)
  | _ => refuse mnemonic text

/-- An operand that is a type. -/
def descriptor (token : Token) : Except ReadError Descriptor := do
  Descriptor.parse (← word mnemonic token).toList

/-- An operand that is a field. -/
def field (token : Token) : Except ReadError FieldId := do
  FieldId.parse (← word mnemonic token).toList

/-- An operand that is a method. -/
def method (token : Token) : Except ReadError MethodId := do
  MethodId.parse (← word mnemonic token).toList

/-- An operand that is a text. -/
def text (token : Token) : Except ReadError String := do
  unescape (← word mnemonic token).toList

/-- An operand that lists slots, one by one or as a range. -/
def slots : Token → Except ReadError (List Slot)
  | .list items =>
    items.mapM fun item =>
      match Slot.parse? item.toList with
      | some slot => .ok slot
      | none => refuse mnemonic item
  | .range first last =>
    match Slot.parseRange? first.toList last.toList with
    | some slots => .ok slots
    | none => refuse mnemonic (first ++ " .. " ++ last)
  | .word text => refuse mnemonic text

variable (ops : Operands)

/-- Refuses any other number of operands. -/
def expect (count : Nat) : Except OperandError Unit :=
  if ops.tokens.length = count then .ok ()
  else .error (.refused (.operandCount ops.mnemonic count ops.tokens.length))

/-- Reads the operand at an index. -/
def read (reader : String → Token → Except ReadError α) (index : Nat) : Except OperandError α :=
  match ops.tokens[index]? with
  | some token => (reader ops.mnemonic token).mapError .refused
  | none => .error (.missing ops.mnemonic index ops.tokens.length)

end Operands

/-- The most registers that a call can list without `/range`. -/
def maxListedRegisters : Nat := 5

/-- The widths of an operation: a shift distance is always an int. -/
def Signature.of (op : BinaryOp) (width : Width) : Signature :=
  ⟨width, width, if op.isShift then .int else width⟩

/-- The class of an object type; no other type can be instantiated. -/
def Operands.className (mnemonic : String) (token : Token) : Except ReadError String := do
  match ← descriptor mnemonic token with
  | .object name => return name
  | other => refuse mnemonic other.text

/-- The slots of a call, which are no more than five unless the call is `ranged`. -/
def Operands.arguments (ranged : Bool) (mnemonic : String) (token : Token) :
    Except ReadError (List Slot) := do
  let args ← slots mnemonic token
  if !ranged && args.length > maxListedRegisters then refuse mnemonic s!"{args.length} registers"
  else return args

open Operands in
/-- Reads the operands that a form asks for. -/
def Form.build (form : Form) (ops : Operands) : Except OperandError Instruction := do
  match form with
  | .nop =>
    ops.expect 0
    return .nop
  | .const bits =>
    ops.expect 2
    return .const (← ops.read slot 0) (← ops.read (literal · · bits) 1)
  | .constWide bits =>
    ops.expect 2
    return .constWide (← ops.read slot 0) (← ops.read (literal · · bits) 1)
  | .constString =>
    ops.expect 2
    return .constString (← ops.read slot 0) (← ops.read text 1)
  | .move kind =>
    ops.expect 2
    return .move kind (← ops.read slot 0) (← ops.read slot 1)
  | .moveResult kind =>
    ops.expect 1
    return .moveResult kind (← ops.read slot 0)
  | .returnVoid =>
    ops.expect 0
    return .returnVoid
  | .returnValue kind =>
    ops.expect 1
    return .returnValue kind (← ops.read slot 0)
  | .newInstance =>
    ops.expect 2
    -- the type comes first: of two wrong operands it is the one reported
    let name ← ops.read className 1
    return .newInstance (← ops.read slot 0) name
  | .newArray =>
    ops.expect 3
    return .newArray (← ops.read slot 0) (← ops.read slot 1) (← ops.read descriptor 2)
  | .arrayLength =>
    ops.expect 2
    return .arrayLength (← ops.read slot 0) (← ops.read slot 1)
  | .monitorEnter =>
    ops.expect 1
    return .monitorEnter (← ops.read slot 0)
  | .monitorExit =>
    ops.expect 1
    return .monitorExit (← ops.read slot 0)
  | .checkCast =>
    ops.expect 2
    return .checkCast (← ops.read slot 0) (← ops.read descriptor 1)
  | .goto =>
    ops.expect 1
    return .goto (← ops.read label 0)
  | .packedSwitch =>
    ops.expect 2
    return .packedSwitch (← ops.read slot 0) (← ops.read label 1)
  | .compareLong =>
    ops.expect 3
    return .compareLong (← ops.read slot 0) (← ops.read slot 1) (← ops.read slot 2)
  | .compareDouble =>
    ops.expect 3
    return .compareDouble (← ops.read slot 0) (← ops.read slot 1) (← ops.read slot 2)
  | .convert conversion =>
    ops.expect 2
    return .convert conversion (← ops.read slot 0) (← ops.read slot 1)
  | .staticGet kind =>
    ops.expect 2
    return .staticGet kind (← ops.read slot 0) (← ops.read field 1)
  | .staticPut kind =>
    ops.expect 2
    return .staticPut kind (← ops.read slot 0) (← ops.read field 1)
  | .instanceGet kind =>
    ops.expect 3
    return .instanceGet kind (← ops.read slot 0) (← ops.read slot 1) (← ops.read field 2)
  | .instancePut kind =>
    ops.expect 3
    return .instancePut kind (← ops.read slot 0) (← ops.read slot 1) (← ops.read field 2)
  | .arrayGet kind =>
    ops.expect 3
    return .arrayGet kind (← ops.read slot 0) (← ops.read slot 1) (← ops.read slot 2)
  | .arrayPut kind =>
    ops.expect 3
    return .arrayPut kind (← ops.read slot 0) (← ops.read slot 1) (← ops.read slot 2)
  | .invoke kind ranged =>
    ops.expect 2
    return .invoke kind (← ops.read (arguments ranged) 0) (← ops.read method 1)
  | .ifZero cmp =>
    ops.expect 2
    return .ifZero cmp (← ops.read slot 0) (← ops.read label 1)
  | .ifTest cmp =>
    ops.expect 3
    return .ifTest cmp (← ops.read slot 0) (← ops.read slot 1) (← ops.read label 2)
  | .literalArithmetic op bits =>
    ops.expect 3
    return .arithmetic op (.of op .int) (← ops.read slot 0) (← ops.read slot 1)
      (.literal (← ops.read (literal · · bits) 2))
  | .arithmetic op width false =>
    ops.expect 3
    return .arithmetic op (.of op width) (← ops.read slot 0) (← ops.read slot 1)
      (.slot (← ops.read slot 2))
  | .arithmetic op width true =>
    ops.expect 2
    return .arithmetic op (.of op width) (← ops.read slot 0) (← ops.read slot 0)
      (.slot (← ops.read slot 1))
  | .doubleArithmetic op false =>
    ops.expect 3
    return .doubleArithmetic op (← ops.read slot 0) (← ops.read slot 1) (← ops.read slot 2)
  | .doubleArithmetic op true =>
    ops.expect 2
    return .doubleArithmetic op (← ops.read slot 0) (← ops.read slot 0) (← ops.read slot 1)

/-- Decodes one instruction. -/
def Instruction.decode (mnemonic : String) (tokens : List Token) : Except OperandError Instruction :=
  match Form.ofMnemonic? mnemonic with
  | some form => form.build ⟨mnemonic, tokens⟩
  | none => .ok (.unsupported mnemonic)

/-- Decodes a line without comment. -/
def Instruction.ofLine (line : List Char) : Except ReadError Instruction := do
  let (mnemonic, operands) := splitMnemonic line
  let tokens ← Token.scanOperands operands
  (decode (String.ofList mnemonic) tokens).mapError OperandError.toReadError

/-! ## Reading that succeeds -/

/-- An error that is worded anew is no result. -/
theorem mapError_eq_ok_iff {x : Except ε α} {f : ε → ε'} {a : α} : x.mapError f = .ok a ↔ x = .ok a := by
  cases x with
  | error e => exact ⟨fun h => (by cases h), fun h => (by cases h)⟩
  | ok b => exact ⟨fun h => congrArg _ (Except.ok.inj h), fun h => congrArg _ (Except.ok.inj h)⟩

/-- An operand is read just when it is there and the reader takes it. -/
theorem Operands.read_eq_ok_iff {ops : Operands} {reader : String → Token → Except ReadError α}
    {index : Nat} {a : α} :
    ops.read reader index = .ok a ↔
      ∃ token, ops.tokens[index]? = some token ∧ reader ops.mnemonic token = .ok a := by
  unfold Operands.read
  split
  · rename_i token htoken
    simp [htoken, mapError_eq_ok_iff]
  · rename_i htoken
    simp [htoken]

/-- A line is read just when its operands can be told apart and its mnemonic takes them. -/
theorem Instruction.ofLine_eq_ok_iff {line : List Char} {i : Instruction} :
    ofLine line = .ok i ↔ ∃ tokens, Token.scanOperands (splitMnemonic line).2 = .ok tokens ∧
      decode (String.ofList (splitMnemonic line).1) tokens = .ok i := by
  unfold ofLine
  obtain ⟨mnemonic, operands⟩ := splitMnemonic line
  cases hscan : Token.scanOperands operands with
  | error e => simp [hscan, bind, Except.bind]
  | ok tokens => simp [hscan, bind, Except.bind, mapError_eq_ok_iff]

end Smali
