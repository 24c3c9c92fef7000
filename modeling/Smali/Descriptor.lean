import Smali.ReadError

/-!
# Type descriptors

`Z B S C I J F D V` for the primitive types and void, `L<name>;` for a class, and `[` in front of an
element type for an array. There is no array of void.

`Descriptor.readOne` reads a descriptor off the front of a text, `Descriptor.parse` takes a whole text
and `Descriptor.parseList` a concatenation such as a parameter list. Main statement:
`length_lt_of_readOne` (a descriptor takes at least one character).
-/

namespace Smali

/-- The type of a value, a field, a parameter or a result. -/
inductive Descriptor where
  | boolean
  | byte
  | short
  | char
  | int
  | long
  | float
  | double
  | void
  /-- A class, named by its full descriptor `L…;`. -/
  | object (name : String)
  | array (element : Descriptor)
  deriving Repr, DecidableEq, Inhabited

namespace Descriptor

/-- The text of a descriptor. -/
def text : Descriptor → String
  | boolean => "Z"
  | byte => "B"
  | short => "S"
  | char => "C"
  | int => "I"
  | long => "J"
  | float => "F"
  | double => "D"
  | void => "V"
  | object name => name
  | array element => "[" ++ element.text

instance : ToString Descriptor := ⟨text⟩

/-- The texts of a list of descriptors, one after the other. -/
def listText (ds : List Descriptor) : String :=
  String.join (ds.map text)

/-- Long and double values take two slots. -/
def isWide : Descriptor → Bool
  | long | double => true
  | _ => false

/-- Objects and arrays are handled by reference. -/
def isReference : Descriptor → Bool
  | object _ | array _ => true
  | _ => false

/-- The element type of an array type. -/
def element? : Descriptor → Option Descriptor
  | array element => some element
  | _ => none

/-- The failure to read a descriptor at the front of `s`. -/
def unreadable (s : List Char) : Except ReadError α :=
  .error (.descriptor (String.ofList s))

/-- Reads one descriptor off the front of a text, and gives the rest. -/
def readOne : List Char → Except ReadError (Descriptor × List Char)
  | 'Z' :: rest => .ok (boolean, rest)
  | 'B' :: rest => .ok (byte, rest)
  | 'S' :: rest => .ok (short, rest)
  | 'C' :: rest => .ok (char, rest)
  | 'I' :: rest => .ok (int, rest)
  | 'J' :: rest => .ok (long, rest)
  | 'F' :: rest => .ok (float, rest)
  | 'D' :: rest => .ok (double, rest)
  | 'V' :: rest => .ok (void, rest)
  | 'L' :: rest =>
    -- the name is not empty and goes up to the first semicolon
    match rest.takeWhile (· != ';'), rest.dropWhile (· != ';') with
    | c :: name, _ :: after => .ok (object (String.ofList ('L' :: c :: name ++ [';'])), after)
    | _, _ => unreadable ('L' :: rest)
  | '[' :: rest =>
    -- an element that cannot be read is reported by itself, without the brackets in front
    match readOne rest with
    | .ok (void, _) => unreadable ('[' :: rest)
    | .ok (element, after) => .ok (array element, after)
    | .error e => .error e
  | s => unreadable s

theorem length_lt_of_readOne {s rest : List Char} {d : Descriptor} (h : readOne s = .ok (d, rest)) :
    rest.length < s.length := by
  fun_induction readOne s generalizing d rest with
  | case10 r c name _ after hdrop _ =>
    obtain ⟨-, rfl⟩ := Prod.mk.inj (Except.ok.inj h)
    have hle := (List.dropWhile_sublist (l := r) (· != ';')).length_le
    rw [hdrop] at hle
    simp only [List.length_cons] at hle ⊢
    omega
  | _ => simp_all [unreadable] <;> grind

/-- A text that is exactly one descriptor. -/
def parse (s : List Char) : Except ReadError Descriptor :=
  match readOne s with
  | .ok (d, []) => .ok d
  | .ok (_, _ :: _) => unreadable s
  | .error e => .error e

/-- A text that is a concatenation of descriptors. -/
def parseList (s : List Char) : Except ReadError (List Descriptor) :=
  match s with
  | [] => .ok []
  | c :: r =>
    match h : readOne (c :: r) with
    | .error e => .error e
    | .ok (d, rest) =>
      have := length_lt_of_readOne h
      match parseList rest with
      | .ok ds => .ok (d :: ds)
      | .error e => .error e
termination_by s.length
decreasing_by assumption

end Descriptor

end Smali
