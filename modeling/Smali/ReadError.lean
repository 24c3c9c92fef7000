/-!
# Why a source cannot be read

Each way in which reading fails is a constructor; `ReadError.message` is the one place that words it.
-/

namespace Smali

/-- What is wrong with a directive or with the place where it stands. -/
inductive DirectiveError where
  /-- A class starts while a method is still open. -/
  | classInsideMethod
  /-- `.class` without a name. -/
  | classNameMissing
  /-- `.class` with a descriptor that does not name a class. -/
  | notAClassName (descriptor : String)
  /-- `.field` without a name. -/
  | fieldNameMissing
  /-- `.field` with a last word that has no colon. -/
  | invalidField (member : String)
  /-- A method starts while another one is still open. -/
  | methodInsideMethod
  /-- `.method` without a signature. -/
  | signatureMissing
  /-- A register count outside of 0 to 65535. -/
  | registerCount (text : String)
  /-- A first switch key that does not fit 32 bits. -/
  | switchKey (text : String)
  /-- A switch table that no label names. -/
  | switchWithoutLabel
  /-- A line of a switch table that is no label. -/
  | switchLabelExpected (line : String)
  /-- A label, an instruction or a method's directive with no method open. -/
  | outsideOfMethod
  /-- The end of a method with no method open. -/
  | endWithoutMethod
  /-- The source ends inside a method. -/
  | unfinishedMethod
  /-- The source ends inside a block. -/
  | unfinishedBlock
  deriving Repr, DecidableEq

/-- The wording of a directive's fault. -/
def DirectiveError.message : DirectiveError → String
  | classInsideMethod => "missing .end method before .class"
  | classNameMissing => "class name is missing"
  | notAClassName descriptor => s!"{descriptor} is not a class name"
  | fieldNameMissing => "field name is missing"
  | invalidField member => s!"invalid field {member}"
  | methodInsideMethod => "missing .end method"
  | signatureMissing => "method signature is missing"
  | registerCount text => s!"invalid register count {text}"
  | switchKey text => s!"switch key {text} is not an int"
  | switchWithoutLabel => "packed-switch without a label"
  | switchLabelExpected line => s!"expected a switch label, got {line}"
  | outsideOfMethod => "outside of a method"
  | endWithoutMethod => ".end method without .method"
  | unfinishedMethod => "missing .end method at end of file"
  | unfinishedBlock => "unterminated block at end of file"

/-- Why a text, a line or a whole source cannot be read. -/
inductive ReadError where
  /-- A directive that makes no sense, with its line number. -/
  | directive (line : Nat) (cause : DirectiveError)
  /-- The text from which no type descriptor can be read. -/
  | descriptor (text : String)
  /-- A literal that is malformed or out of range. -/
  | literal (text : String)
  /-- A member identifier without one of its parts. -/
  | identifier (text : String)
  /-- An operand that the instruction cannot take. -/
  | operand (mnemonic : String) (text : String)
  /-- A wrong number of operands. -/
  | operandCount (mnemonic : String) (expected : Nat) (actual : Nat)
  /-- A group or a quoted word that is never closed, with all the operands. -/
  | unterminatedOperand (operands : String)
  /-- A label that no line of the method defines. -/
  | undefinedLabel (method : String) (label : String)
  /-- A line that needs an open class. -/
  | outsideOfClass (line : Nat)
  /-- Instructions in a method that the host implements. -/
  | nativeWithBody (method : String)
  /-- A character literal that ends inside the encoding of its last character. -/
  | splitCharacter (text : String)
  deriving Repr, DecidableEq

/-- The wording of an error. -/
def ReadError.message : ReadError → String
  | directive line cause => s!"invalid directive at line {line}: " ++ cause.message
  | descriptor text => s!"invalid type descriptor: {text}"
  | literal text => s!"invalid literal: {text}"
  | identifier text => s!"invalid identifier: {text}"
  | operand mnemonic text => s!"invalid operand {text} for {mnemonic}"
  | operandCount mnemonic expected actual => s!"{mnemonic} expects {expected} operands, got {actual}"
  | unterminatedOperand operands => s!"unable to tokenize instruction: {operands}"
  | undefinedLabel method label => s!"undefined label :{label} in {method}"
  | outsideOfClass line => s!"line {line} is outside of a class definition"
  | nativeWithBody method => s!"native method {method} must not have a body"
  | splitCharacter text => s!"character literal {text} ends inside a character"

end Smali
