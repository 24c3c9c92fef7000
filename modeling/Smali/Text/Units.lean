/-!
# Sixteen-bit units

The text of a string object is counted and indexed in units of sixteen bits: a character beyond U+FFFF
takes two, a high and a low surrogate.
-/

namespace Smali.Text

/-- The units of one character. -/
def charUnits (c : Char) : List Nat :=
  if c.toNat < 0x10000 then [c.toNat]
  else [0xD800 + (c.toNat - 0x10000) / 0x400, 0xDC00 + (c.toNat - 0x10000) % 0x400]

/-- The units of a text. -/
def units (s : String) : List Nat :=
  s.toList.flatMap charUnits

end Smali.Text
