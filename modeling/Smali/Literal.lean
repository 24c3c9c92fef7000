import Smali.ReadError
import Smali.Text.Numeral

/-!
# Integer literals

`0x1f`, `-0x8`, `12`, `0x7fffffffffffffffL`, `0x7ft`: an optional minus, then decimal or hexadecimal
digits, then any number of the letters that mark a long, a short or a byte. The value fits 64 bits.
-/

namespace Smali

/-- A value written into an instruction, and the width of the field that has to hold it. -/
structure Literal where
  value : Int64
  bits : Nat
  deriving Repr, DecidableEq, Inhabited

namespace Literal

/-- The letters that may follow the digits. -/
def isWidthMark (c : Char) : Bool :=
  "LlSsTt".toList.contains c

/-- Drops the letters that mark the width. -/
def dropWidthMarks (s : List Char) : List Char :=
  (s.reverse.dropWhile isWidthMark).reverse

/-- The number that digits denote; `0x` or `0X` in front makes them hexadecimal. -/
def magnitude? : List Char → Option Nat
  | '0' :: 'x' :: hex | '0' :: 'X' :: hex => Text.readUnsigned 16 hex
  | digits => Text.readUnsigned 10 digits

/-- The number that a literal denotes, whatever its size. -/
def number? : List Char → Option Int
  | '-' :: body => (magnitude? (dropWidthMarks body)).map fun n => -(n : Int)
  | body => (magnitude? (dropWidthMarks body)).map Int.ofNat

/-- Whether a number fits 64 bits. -/
def inRange (n : Int) : Bool :=
  Int64.minValue.toInt ≤ n && n ≤ Int64.maxValue.toInt

/-- Reads an integer literal. -/
def parse (s : List Char) : Except ReadError Int64 :=
  match (number? s).filter inRange with
  | some n => .ok (Int64.ofInt n)
  | none => .error (.literal (String.ofList s))

end Literal

end Smali
