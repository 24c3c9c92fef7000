import Smali.Text.Printable

/-!
# Quoted text

How a text is shown between double quotes: the two quote-bearing characters and the usual control
characters get a backslash, hidden characters are written as their code point, all others stand as they
are. A single quote is not marked.
-/

namespace Smali.Text

/-- The code point of a character in lower-case hexadecimal, in braces. -/
def codePointEscape (c : Char) : List Char :=
  '\\' :: 'u' :: '\x7b' :: Nat.toDigits 16 c.toNat ++ ['\x7d']

/-- One character of a quoted text. -/
def quoteChar (c : Char) : List Char :=
  match c with
  | '"' => ['\\', '"']
  | '\\' => ['\\', '\\']
  | '\t' => ['\\', 't']
  | '\r' => ['\\', 'r']
  | '\n' => ['\\', 'n']
  | '\x00' => ['\\', '0']
  | c => if isHidden c then codePointEscape c else [c]

/-- The text between double quotes. -/
def quote (s : String) : String :=
  String.ofList ('"' :: s.toList.flatMap quoteChar ++ ['"'])

end Smali.Text
