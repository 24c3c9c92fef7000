/-!
# Access flags

Modifiers are written as words; classes, fields and methods share one set of flags. A word that names no
flag is passed over.
-/

namespace Smali

/-- One access flag. -/
inductive Flag where
  | isPublic
  | isPrivate
  | isProtected
  | isStatic
  | isFinal
  | isSynchronized
  | isVolatile
  | isBridge
  | isTransient
  | isVarargs
  | isNative
  | isInterface
  | isAbstract
  | isStrict
  | isSynthetic
  | isMarkerType
  | isEnum
  | isConstructor
  | isDeclaredSynchronized
  deriving Repr, DecidableEq, Inhabited

namespace Flag

/-- All flags, in the order of their bits. -/
def all : List Flag :=
  [isPublic, isPrivate, isProtected, isStatic, isFinal, isSynchronized, isVolatile, isBridge,
    isTransient, isVarargs, isNative, isInterface, isAbstract, isStrict, isSynthetic, isMarkerType,
    isEnum, isConstructor, isDeclaredSynchronized]

/-- The number of a flag's bit. -/
def bitIndex : Flag → Nat
  | isPublic => 0
  | isPrivate => 1
  | isProtected => 2
  | isStatic => 3
  | isFinal => 4
  | isSynchronized => 5
  | isVolatile => 6
  | isBridge => 7
  | isTransient => 8
  | isVarargs => 9
  | isNative => 10
  | isInterface => 11
  | isAbstract => 12
  | isStrict => 13
  | isSynthetic => 14
  | isMarkerType => 15
  | isEnum => 16
  | isConstructor => 17
  | isDeclaredSynchronized => 18

/-- The word that stands for a flag. -/
def word : Flag → String
  | isPublic => "public"
  | isPrivate => "private"
  | isProtected => "protected"
  | isStatic => "static"
  | isFinal => "final"
  | isSynchronized => "synchronized"
  | isVolatile => "volatile"
  | isBridge => "bridge"
  | isTransient => "transient"
  | isVarargs => "varargs"
  | isNative => "native"
  | isInterface => "interface"
  | isAbstract => "abstract"
  | isStrict => "strictfp"
  | isSynthetic => "synthetic"
  | isMarkerType => "annotation"
  | isEnum => "enum"
  | isConstructor => "constructor"
  | isDeclaredSynchronized => "declared-synchronized"

/-- The flag that a word stands for. -/
def ofWord? (s : String) : Option Flag :=
  all.find? (·.word == s)

theorem ofWord?_word (f : Flag) : ofWord? f.word = some f := by
  cases f <;> rfl

end Flag

/-- A set of access flags, one bit each. -/
structure Flags where
  bits : Nat := 0
  deriving Repr, DecidableEq, Inhabited

namespace Flags

/-- Whether a flag is set. -/
def contains (s : Flags) (f : Flag) : Bool :=
  s.bits.testBit f.bitIndex

/-- Sets a flag. -/
def insert (s : Flags) (f : Flag) : Flags :=
  ⟨s.bits ||| (1 <<< f.bitIndex)⟩

/-- The flags that the words name. -/
def ofWords (words : List String) : Flags :=
  (words.filterMap Flag.ofWord?).foldl insert {}

/-- The flags of a set, in the order of their bits. -/
def toList (s : Flags) : List Flag :=
  Flag.all.filter s.contains

theorem contains_insert (s : Flags) (f g : Flag) :
    (s.insert f).contains g = (decide (f = g) || s.contains g) := by
  have inj : f.bitIndex = g.bitIndex ↔ f = g := by cases f <;> cases g <;> decide
  simp [contains, insert, Nat.one_shiftLeft, Nat.testBit_two_pow, inj, Bool.or_comm]

end Flags

end Smali
