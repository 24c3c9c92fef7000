import Smali.Class
import Smali.Decimal.Reader
import Smali.Literal
import Smali.Text.Cut
import Smali.Token

/-!
# Initial values of fields

The text behind the equals sign of a field. Words for truth values and null, quoted texts and characters
are read whatever the type of the field; otherwise a float or double field takes a decimal fraction, kept
as its bit pattern, and every other field an integer literal.
-/

namespace Smali.Constant

/-- The refusal of an initial value. -/
def refuse (value : List Char) : Except ReadError α :=
  .error (.literal (String.ofList value))

/-- Drops the letters at the end that mark the type of a fraction. -/
def dropMarks (marks : List Char) (s : List Char) : List Char :=
  (s.reverse.dropWhile marks.contains).reverse

/-- Whether an integer literal in hexadecimal stands where a fraction is expected. -/
def isHex (s : List Char) : Bool :=
  Text.startsWith ['0', 'x'] s || Text.startsWith ['-', '0', 'x'] s

/-- A single character behind an opening quote. The last character closes the literal, whatever it is,
but it must be encoded in one byte. -/
def ofCharacter (value inside : List Char) : Except ReadError Constant :=
  match inside.getLast? with
  | some last =>
    if last.toNat < 0x80 then one inside.dropLast else .error (.splitCharacter (String.ofList value))
  | none => one []
where
  /-- The one character that the text between the quotes stands for. -/
  one (s : List Char) : Except ReadError Constant := do
    -- escapes are those of a quoted word, and its error shows the double quotes
    match (← unescape ('"' :: s ++ ['"'])).toList with
    | [c] => return .integer (Int64.ofNat c.toNat)
    | _ => refuse value

/-- A decimal fraction for a field of 32 bits. -/
def ofFloat (value : List Char) : Except ReadError Constant :=
  match Decimal.read .single (dropMarks ['f', 'F'] value) with
  | some bits => .ok (.integer (Int32.ofNat bits).toInt64)
  | none => refuse value

/-- A decimal fraction for a field of 64 bits. -/
def ofDouble (value : List Char) : Except ReadError Constant :=
  match Decimal.read .double (dropMarks ['d', 'D'] value) with
  | some bits => .ok (.integer (Int64.ofNat bits))
  | none => refuse value

/-- Reads the initial value of a field of the given type. -/
def parse (value : List Char) (type : Descriptor) : Except ReadError Constant :=
  if value = "true".toList then .ok (.boolean true)
  else if value = "false".toList then .ok (.boolean false)
  else if value = "null".toList then .ok .null
  else
    match value, type with
    | '"' :: _, _ => return .string (← unescape value)
    | '\'' :: inside, _ => ofCharacter value inside
    | _, .float => if isHex value then return .integer (← Literal.parse value) else ofFloat value
    | _, .double => if isHex value then return .integer (← Literal.parse value) else ofDouble value
    | _, _ => return .integer (← Literal.parse value)

end Smali.Constant
