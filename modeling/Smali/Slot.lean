import Smali.Text.Numeral

/-!
# Slots

An instruction names the values it works on by slots: a register `v3` or a parameter `p1` of the running
call. `{v0 .. v3}` stands for a range of slots of one kind.
-/

namespace Smali

/-- A register or a parameter of a call. -/
inductive Slot where
  | register (index : Nat)
  | parameter (index : Nat)
  deriving Repr, DecidableEq, Inhabited

namespace Slot

/-- The index within the slots of its kind. -/
def index : Slot → Nat
  | register i | parameter i => i

/-- The text of a slot. -/
def text : Slot → String
  | register i => s!"v{i}"
  | parameter i => s!"p{i}"

/-- The largest index that an instruction can name. -/
def maxIndex : Nat := 0xFFFF

/-- Reads `v` or `p` followed by an index of sixteen bits. -/
def parse? : List Char → Option Slot
  | 'v' :: digits => ((Text.readUnsigned 10 digits).filter (· ≤ maxIndex)).map register
  | 'p' :: digits => ((Text.readUnsigned 10 digits).filter (· ≤ maxIndex)).map parameter
  | _ => none

/-- The slots from the first to the last, which are of one kind. -/
def range? : Slot → Slot → Option (List Slot)
  | register a, register b => if a ≤ b then some ((List.range' a (b + 1 - a)).map register) else none
  | parameter a, parameter b =>
    if a ≤ b then some ((List.range' a (b + 1 - a)).map parameter) else none
  | _, _ => none

/-- Reads the two ends of a range and gives its slots. -/
def parseRange? (first last : List Char) : Option (List Slot) := do
  range? (← parse? first) (← parse? last)

end Slot

end Smali
