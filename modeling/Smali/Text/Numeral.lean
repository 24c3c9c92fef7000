/-!
# Numerals

Digits in a base up to sixteen, read as natural numbers. A numeral is not empty; an unsigned numeral may
have one `+` in front, a signed one a `+` or a `-`. Bounds are the caller's business.
-/

namespace Smali.Text

/-- The value of a digit; letters count in either case. -/
def digitValue (c : Char) : Option Nat :=
  if '0' ≤ c ∧ c ≤ '9' then some (c.toNat - '0'.toNat)
  else if 'a' ≤ c ∧ c ≤ 'f' then some (c.toNat - 'a'.toNat + 10)
  else if 'A' ≤ c ∧ c ≤ 'F' then some (c.toNat - 'A'.toNat + 10)
  else none

/-- The value of a digit that exists in the base. -/
def digitIn (base : Nat) (c : Char) : Option Nat :=
  (digitValue c).filter (· < base)

/-- Reads the digits `s` behind the digits with value `acc`. -/
def digitsFrom (base : Nat) (acc : Nat) : List Char → Option Nat
  | [] => some acc
  | c :: r => do digitsFrom base (acc * base + (← digitIn base c)) r

/-- One digit or more. -/
def readDigits (base : Nat) (s : List Char) : Option Nat :=
  if s.isEmpty then none else digitsFrom base 0 s

/-- One digit or more, after at most one `+`. -/
def readUnsigned (base : Nat) : List Char → Option Nat
  | '+' :: r => readDigits base r
  | s => readDigits base s

/-- One decimal digit or more, after at most one sign. -/
def readSigned : List Char → Option Int
  | '-' :: r => (readDigits 10 r).map fun n => -(n : Int)
  | s => (readUnsigned 10 s).map Int.ofNat

/-- The digits of a number in lower case, `0x` in front. -/
def hexText (n : Nat) : String :=
  "0x" ++ String.ofList (Nat.toDigits 16 n)

end Smali.Text
