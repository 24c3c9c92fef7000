import Smali.Class
import Smali.Journal

/-!
# Programs

Classes are collected in a class table, where the last definition of a name wins and keeps the place of
the first. Freezing the table numbers the classes in order and resolves the superclass links; the result
is the program that a machine runs.
-/

namespace Smali

/-- The classes read so far. -/
abbrev ClassTable := Table String Class

/-- A class of a program. -/
structure LoadedClass extends Class where
  /-- The place of the class in its program. -/
  id : Nat
  /-- The place of the superclass, if that class is there. -/
  superId? : Option Nat
  deriving Repr, DecidableEq, Inhabited

/-- The classes that a machine runs. -/
structure Program where
  classes : Array LoadedClass := #[]
  deriving Repr, DecidableEq, Inhabited

/-- Adds a class; the journal tells if another one had its name. -/
def ClassTable.add (t : ClassTable) (journal : Journal) (c : Class) : ClassTable × Journal :=
  (t.insert c.name c,
    if t.contains c.name then journal.write .debug fun _ => s!"redefining class {c.name}" else journal)

/-- The place of a class in the order of the table. -/
def ClassTable.id? (t : ClassTable) (name : String) : Option Nat :=
  t.keys.findIdx? (· == name)

/-- Numbers the classes in order and resolves their superclass links. -/
def ClassTable.freeze (t : ClassTable) : Program :=
  ⟨(t.values.mapIdx fun i c => { c with id := i, superId? := c.superName?.bind t.id? }).toArray⟩

namespace Program

/-- The class with a name. -/
def find? (p : Program) (name : String) : Option LoadedClass :=
  p.classes.find? (·.name == name)

/-- The method of the named class that answers to the name and the parameters of an identifier. -/
def findMethod? (p : Program) (id : MethodId) : Option Method := do
  (← p.find? id.className).methods.find? (·.answersTo id.name id.params)

end Program

end Smali
