import Smali.Machine.Fault
import Smali.Program

/-!
# Finding methods and fields

A static or direct call looks at the named class only. A virtual call starts at the class of the object
and goes up the superclass links to the first class that has the method; instance fields are found the
same way. A walk up a chain of links that never ends is an outcome of its own.
-/

namespace Smali.Machine

/-- What a walk up the superclass links comes to. -/
inductive Search (α : Type) where
  | found (a : α)
  | failed (fault : Fault)
  /-- The links go round in a circle and nothing is found on it. -/
  | endless
  deriving Repr, DecidableEq, Inhabited

/-- The class with a name, which has to be there. -/
def findClass (p : Program) (name : String) : Except Fault LoadedClass :=
  match p.find? name with
  | some c => .ok c
  | none => .error (.classNotFound name)

/-- The superclass of a class, none at the top; a superclass that is named has to be there. -/
def superclass? (p : Program) (c : LoadedClass) : Except Fault (Option LoadedClass) :=
  match c.superId?, c.superName? with
  | some id, _ => .ok p.classes[id]?
  | none, some name => .error (.classNotFound name)
  | none, none => .ok none

/-- The first thing that `pick` finds in `c` or above it, `none` if the chain ends before. `steps` bounds
the number of classes looked at; a chain without circle has no more classes than the program. -/
def searchUp (p : Program) (pick : LoadedClass → Option α) :
    (steps : Nat) → LoadedClass → Search (Option α)
  | 0, _ => .endless
  | steps + 1, c =>
    match pick c with
    | some a => .found (some a)
    | none =>
      match superclass? p c with
      | .ok (some above) => searchUp p pick steps above
      | .ok none => .found none
      | .error e => .failed e

/-- The one method of a class that is meant by an identifier. If several agree in name and parameters, the
result type decides. -/
def selectMethod? (c : Class) (id : MethodId) (static : Bool) : Option Method :=
  match c.methods.filter fun m => m.isStatic == static && m.answersTo id.name id.params with
  | [] => none
  -- a single candidate is taken whatever its result type
  | [m] => some m
  | several => several.find? (·.returnType == id.returnType)

/-- A method of the named class itself. -/
def lookupDeclared (p : Program) (id : MethodId) (static : Bool) : Except Fault Method := do
  match selectMethod? (← findClass p id.className).toClass id static with
  | some m => return m
  | none => .error (.methodNotFound (.unresolved id))

/-- The target of a static call. -/
def lookupStatic (p : Program) (id : MethodId) : Except Fault Method :=
  lookupDeclared p id true

/-- The target of a direct call. -/
def lookupDirect (p : Program) (id : MethodId) : Except Fault Method :=
  lookupDeclared p id false

/-- The target of a virtual call on an object of a class. -/
def lookupVirtual (p : Program) (runtimeClass : String) (id : MethodId) : Search Method :=
  match findClass p id.className, findClass p runtimeClass with
  | .error e, _ => .failed e
  | .ok _, .error e => .failed e
  | .ok _, .ok c =>
    match searchUp p (fun c => selectMethod? c.toClass id false) p.classes.size c with
    | .found (some m) => .found m
    | .found none => .failed (.methodNotFound (.unresolved id))
    | .failed e => .failed e
    | .endless => .endless

/-- The instance field that an identifier means: that of the first class up the chain which declares the
name. -/
def lookupInstanceField (p : Program) (id : FieldId) : Search (LoadedClass × Field) :=
  match findClass p id.className with
  | .error e => .failed e
  | .ok c =>
    match searchUp p (fun c => (c.fields.get? id.name).map (c, ·)) p.classes.size c with
    | .found (some (c, f)) =>
      if f.isStatic then .failed (.fieldNotFound id.text) else .found (c, f)
    | .found none => .failed (.fieldNotFound id.text)
    | .failed e => .failed e
    | .endless => .endless

/-- The static field that an identifier means, in the named class itself. -/
def lookupStaticField (p : Program) (id : FieldId) : Except Fault (LoadedClass × Field) := do
  let c ← findClass p id.className
  match (c.fields.get? id.name).filter Field.isStatic with
  | some f => return (c, f)
  | none => .error (.fieldNotFound id.text)

/-- The method of the named class that answers to an identifier given as a text. -/
def lookupMethod (p : Program) (id : String) : Except Fault Method := do
  match MethodId.parse id.toList with
  | .error e => .error (.unreadable e)
  | .ok id =>
    match p.findMethod? id with
    | some m => return m
    | none => .error (.methodNotFound (.unresolved id))

end Smali.Machine
