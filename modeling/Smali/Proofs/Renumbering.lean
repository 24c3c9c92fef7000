import Mathlib.Logic.Function.Basic
import Smali.Machine.Resolve
import Smali.Machine.State

/-!
# Other numbers for the classes

The number of a class says where its superclass, its static fields and its status are found, and nothing
else: no message shows it and no value depends on it. Two programs that have the same classes under
different numbers are tied by `Program.Renumbers`. `renumber` gives each part of a machine the numbers of
the other program, and what is looked up, read or written there is what it was, under the new numbers.

## Key results

- `searchUp_renumber`: going up the superclass links finds the same
- `lookupVirtual_renumber`, `lookupInstanceField_renumber` and the like: so do all lookups
- `Table.get?_renumber`, `Table.insert_renumber`: tables by number, read and written under other numbers
- `Heap.shown_renumber`: no message tells the number of a class
-/

namespace Smali

/-! ## Classes under other numbers -/

/-- The class with other numbers for itself and its superclass. -/
def LoadedClass.renumber (ρ : Nat → Nat) (c : LoadedClass) : LoadedClass :=
  { c with id := ρ c.id, superId? := c.superId?.map ρ }

/-- The two programs have the same classes, linked in the same way, under numbers that `ρ` translates. -/
structure Program.Renumbers (ρ : Nat → Nat) (p q : Program) : Prop where
  injective : Function.Injective ρ
  size : q.classes.size = p.classes.size
  classes : ∀ id, q.classes[ρ id]? = p.classes[id]?.map (·.renumber ρ)
  find? : ∀ name, q.find? name = (p.find? name).map (·.renumber ρ)

/-- The table under other numbers. -/
def Table.renumber (ρ : Nat → Nat) (t : Table Nat α) : Table Nat α :=
  ⟨t.entries.map fun e => (ρ e.1, e.2)⟩

namespace Table

variable {ρ : Nat → Nat}

/-- Under the new number stands what stood under the old one. -/
theorem get?_renumber (hρ : ρ.Injective) (t : Table Nat α) (id : Nat) :
    (t.renumber ρ).get? (ρ id) = t.get? id := by
  -- since no two numbers become the same, the search stops at the same entry
  have hkey (e : Nat × α) : decide (ρ e.1 = ρ id) = decide (e.1 = id) :=
    decide_eq_decide.2 hρ.eq_iff
  simp [get?, renumber, List.find?_map, Function.comp_def, hkey]

/-- Replacing or adding an entry commutes with the change of numbers. -/
theorem put_renumber (hρ : ρ.Injective) (id : Nat) (a : α) (entries : List (Nat × α)) :
    put (ρ id) a (entries.map fun e => (ρ e.1, e.2)) =
      (put id a entries).map fun e => (ρ e.1, e.2) := by
  -- the induction is on the entries in front of the place
  induction entries with
  | nil => rfl
  | cons e rest ih =>
    rw [List.map_cons, put, put, ih]
    simp only [hρ.eq_iff]
    split <;> rfl

/-- Storing under a new number is storing under the old one, then changing the numbers. -/
theorem insert_renumber (hρ : ρ.Injective) (t : Table Nat α) (id : Nat) (a : α) :
    (t.renumber ρ).insert (ρ id) a = (t.insert id a).renumber ρ :=
  congrArg Table.mk (put_renumber hρ id a t.entries)

end Table

namespace Machine

variable {ρ : Nat → Nat} {p q : Program}

/-! ## Lookups -/

/-- The search with what is found changed. -/
def Search.map (f : α → β) : Search α → Search β
  | .found a => .found (f a)
  | .failed e => .failed e
  | .endless => .endless

/-- A class is found by its name, under its new number. -/
theorem findClass_renumber (h : p.Renumbers ρ q) (name : String) :
    findClass q name = LoadedClass.renumber ρ <$> findClass p name := by
  unfold findClass
  rw [h.find? name]
  cases p.find? name <;> rfl

/-- The superclass is the same class, under its new number. -/
theorem superclass?_renumber (h : p.Renumbers ρ q) (c : LoadedClass) :
    superclass? q (c.renumber ρ) = Option.map (LoadedClass.renumber ρ) <$> superclass? p c := by
  obtain ⟨⟨flags, name, superName?, fields, methods⟩, id, superId?⟩ := c
  cases superId? with
  -- a link is a number, and the class it leads to stands at the new number
  | some above => exact congrArg Except.ok (h.classes above)
  | none => cases superName? <;> rfl

/-- Going up the links finds the same. -/
theorem searchUp_renumber (h : p.Renumbers ρ q) (pick : LoadedClass → Option α)
    (pick' : LoadedClass → Option β) {g : α → β}
    (hpick : ∀ c, pick' (c.renumber ρ) = (pick c).map g) (steps : Nat) (c : LoadedClass) :
    searchUp q pick' steps (c.renumber ρ) = (searchUp p pick steps c).map (Option.map g) := by
  -- the induction is on the classes that may still be looked at
  induction steps generalizing c with
  | zero => rfl
  | succ steps ih =>
    rw [searchUp, searchUp, hpick c, superclass?_renumber h]
    cases pick c with
    | some a => rfl
    | none =>
      cases superclass? p c with
      | error e => rfl
      | ok above? =>
        cases above? with
        | none => rfl
        | some above => exact ih above

/-- A static or direct call finds the same method. -/
theorem lookupDeclared_renumber (h : p.Renumbers ρ q) (id : MethodId) (static : Bool) :
    lookupDeclared q id static = lookupDeclared p id static := by
  unfold lookupDeclared
  rw [findClass_renumber h, bind_map_left]
  rfl

/-- A virtual call finds the same method. -/
theorem lookupVirtual_renumber (h : p.Renumbers ρ q) (runtimeClass : String) (id : MethodId) :
    lookupVirtual q runtimeClass id = lookupVirtual p runtimeClass id := by
  have hpick (c : LoadedClass) : selectMethod? (c.renumber ρ).toClass id false =
      (selectMethod? c.toClass id false).map fun m => m := Option.map_id'.symm
  unfold lookupVirtual
  rw [findClass_renumber h, findClass_renumber h]
  cases findClass p id.className with
  | error e => rfl
  | ok named =>
    cases findClass p runtimeClass with
    | error e => rfl
    | ok c =>
      -- the selection looks at the methods only, which have no numbers
      have hwalk := searchUp_renumber h (fun c => selectMethod? c.toClass id false)
        (fun c => selectMethod? c.toClass id false) hpick p.classes.size c
      simp only [Functor.map, Except.map, h.size, hwalk]
      cases searchUp p (fun c => selectMethod? c.toClass id false) p.classes.size c with
      | found m? => cases m? <;> rfl
      | failed e => rfl
      | endless => rfl

/-- An instance field is found in the same class, under its new number. -/
theorem lookupInstanceField_renumber (h : p.Renumbers ρ q) (id : FieldId) :
    lookupInstanceField q id = (lookupInstanceField p id).map (Prod.map (·.renumber ρ) fun f => f) := by
  -- the field comes with the class that declares it, so the class is renumbered
  have hpick (c : LoadedClass) : ((c.renumber ρ).fields.get? id.name).map (c.renumber ρ, ·) =
      ((c.fields.get? id.name).map (c, ·)).map (Prod.map (·.renumber ρ) fun f => f) := by
    rw [Option.map_map]
    rfl
  unfold lookupInstanceField
  rw [findClass_renumber h]
  cases findClass p id.className with
  | error e => rfl
  | ok c =>
    have hwalk := searchUp_renumber h (fun c => (c.fields.get? id.name).map (c, ·))
      (fun c => (c.fields.get? id.name).map (c, ·)) hpick p.classes.size c
    simp only [Functor.map, Except.map, h.size, hwalk]
    cases searchUp p (fun c => (c.fields.get? id.name).map (c, ·)) p.classes.size c with
    | failed e => rfl
    | endless => rfl
    | found place? =>
      cases place? with
      | none => rfl
      | some place =>
        simp only [Search.map, Option.map_some, Prod.map]
        split <;> rfl

/-- A static field is found in the same class, under its new number. -/
theorem lookupStaticField_renumber (h : p.Renumbers ρ q) (id : FieldId) :
    lookupStaticField q id = Prod.map (·.renumber ρ) (fun f => f) <$> lookupStaticField p id := by
  unfold lookupStaticField
  rw [findClass_renumber h, bind_map_left, map_bind]
  refine bind_congr fun c => ?_
  have hfields : (c.renumber ρ).fields = c.fields := rfl
  rw [hfields]
  split <;> rfl

/-- A method is found by its identifier. -/
theorem findMethod?_renumber (h : p.Renumbers ρ q) (id : MethodId) :
    q.findMethod? id = p.findMethod? id := by
  unfold Program.findMethod?
  rw [h.find?]
  cases p.find? id.className <;> rfl

/-- A method is found by the text of its identifier. -/
theorem lookupMethod_renumber (h : p.Renumbers ρ q) (id : String) :
    lookupMethod q id = lookupMethod p id := by
  unfold lookupMethod
  simp only [findMethod?_renumber h]

/-! ## Heaps -/

/-- What the host holds, under other numbers: a handle holds its class as a whole. -/
def HostData.renumber (ρ : Nat → Nat) (d : HostData) : HostData :=
  { d with
    class? := d.class?.map (·.renumber ρ)
    field? := d.field?.map (Prod.map (·.renumber ρ) fun f => f) }

/-- What an object holds, under other numbers. -/
def ObjectBody.renumber (ρ : Nat → Nat) : ObjectBody → ObjectBody
  | .fields table => .fields table
  | .host data => .host (data.renumber ρ)

/-- The object under other numbers. -/
def Object.renumber (ρ : Nat → Nat) (o : Object) : Object :=
  { o with body := o.body.renumber ρ }

/-- The heap under other numbers. -/
def Heap.renumber (ρ : Nat → Nat) (h : Heap) : Heap :=
  { h with objects := h.objects.map (·.renumber ρ) }

namespace Object

/-- The fields of an object hold values, and values have no numbers. -/
theorem fields_renumber (o : Object) : (o.renumber ρ).fields = o.fields := by
  obtain ⟨className, body⟩ := o
  -- an object of the host has no fields under either numbers
  cases body <;> rfl

/-- What the host holds in an object is renumbered with the object. -/
theorem hostData_renumber (o : Object) : (o.renumber ρ).hostData = HostData.renumber ρ <$> o.hostData := by
  obtain ⟨className, body⟩ := o
  cases body <;> rfl

/-- What is read from the host's part of an object is renumbered as `g` says. -/
theorem property_renumber {get : HostData → Option α} {g : α → α}
    (hget : ∀ d, get (HostData.renumber ρ d) = (get d).map g) (o : Object) (key : String) :
    (o.renumber ρ).property key get = g <$> o.property key get := by
  unfold property
  rw [hostData_renumber, bind_map_left, map_bind]
  refine bind_congr fun d => ?_
  rw [hget]
  cases get d <;> rfl

/-- What has no number is the same. -/
theorem property_renumber_same {get : HostData → Option α}
    (hget : ∀ d, get (HostData.renumber ρ d) = get d) (o : Object) (key : String) :
    (o.renumber ρ).property key get = o.property key get := by
  -- the case of `property_renumber` in which nothing is renumbered
  have hmap (d : HostData) : get (d.renumber ρ) = (get d).map fun a => a :=
    (hget d).trans Option.map_id'.symm
  rw [property_renumber hmap]
  exact id_map' _

/-- The text of a string object is the same. -/
theorem contents_renumber (o : Object) : (o.renumber ρ).contents = o.contents :=
  property_renumber_same (fun _ => rfl) o "contents"

end Object

namespace Heap

/-- An object is found by its reference, renumbered. -/
theorem object_renumber (h : Heap) (ref : Nat) :
    (h.renumber ρ).object ref = Object.renumber ρ <$> h.object ref := by
  unfold object renumber
  dsimp only
  rw [Array.getElem?_map]
  cases h.objects[ref]? <;> rfl

/-- Arrays hold values only. -/
@[simp] theorem array_renumber (h : Heap) (ref : Nat) : (h.renumber ρ).array ref = h.array ref := rfl

/-- A new object gets the same reference. -/
theorem allocObject_renumber (h : Heap) (o : Object) :
    (h.renumber ρ).allocObject (o.renumber ρ) =
      ((h.allocObject o).1.renumber ρ, (h.allocObject o).2) := by
  simp [allocObject, renumber]

/-- Putting an object in the place of another commutes with the change of numbers. -/
theorem setObject_renumber (h : Heap) (ref : Nat) (o : Object) :
    { h.renumber ρ with objects := (h.renumber ρ).objects.setIfInBounds ref (o.renumber ρ) } =
      { h with objects := h.objects.setIfInBounds ref o }.renumber ρ := by
  simp [renumber, Array.map_setIfInBounds]

/-- A write to a field comes to the same. -/
theorem setField_renumber (h : Heap) (ref : Nat) (name : String) (v : Value) :
    (h.renumber ρ).setField ref name v = Heap.renumber ρ <$> h.setField ref name v := by
  unfold setField
  rw [object_renumber, bind_map_left, map_bind]
  refine bind_congr fun o => ?_
  rw [Object.fields_renumber, map_bind]
  refine bind_congr fun fields => ?_
  exact congrArg Except.ok (setObject_renumber h ref { o with body := .fields (fields.insert name v) })

/-- A change of what the host holds comes to the same, if the change does. -/
theorem setHostData_renumber (change : HostData → HostData)
    (hchange : ∀ d, change (HostData.renumber ρ d) = (change d).renumber ρ) (h : Heap) (ref : Nat) :
    (h.renumber ρ).setHostData ref change = Heap.renumber ρ <$> h.setHostData ref change := by
  unfold setHostData
  rw [object_renumber, bind_map_left, map_bind]
  refine bind_congr fun o => ?_
  rw [Object.hostData_renumber, bind_map_left, map_bind]
  refine bind_congr fun data => ?_
  -- the change is made to renumbered data or its result is renumbered, which is the same
  rw [hchange]
  exact congrArg Except.ok (setObject_renumber h ref { o with body := .host (change data) })

/-- A write to an element of an array comes to the same. -/
theorem setElement_renumber (h : Heap) (ref : Nat) (index : Int) (v : Value) :
    (h.renumber ρ).setElement ref index v = Heap.renumber ρ <$> h.setElement ref index v := by
  unfold setElement
  simp only [array_renumber, map_bind]
  rfl

/-- The text of a string is no handle, so it stays as it is. -/
@[simp] theorem contents_renumber (h : Heap) (ref : Nat) :
    (h.renumber ρ).textOf ref "contents" = h.textOf ref "contents" := by
  rw [textOf_contents, textOf_contents, object_renumber, bind_map_left]
  exact bind_congr fun o => Object.contents_renumber o

/-- The text of a value that is a string stays as it is. -/
@[simp] theorem stringOf_renumber (h : Heap) (v : Value) :
    (h.renumber ρ).stringOf v = h.stringOf v := by
  unfold stringOf
  exact bind_congr fun ref => contents_renumber h ref

/-- The text that stands for an object in a message tells no number. -/
@[simp] theorem objectText_renumber (h : Heap) (ref : Nat) :
    (h.renumber ρ).objectText ref = h.objectText ref := by
  unfold objectText renumber
  dsimp only
  rw [Array.getElem?_map]
  cases h.objects[ref]? <;> rfl

/-- The text that stands for an array in a message tells no number. -/
@[simp] theorem arrayText_renumber (h : Heap) (ref : Nat) :
    (h.renumber ρ).arrayText ref = h.arrayText ref := rfl

/-- No message tells the number of a class. -/
@[simp] theorem shown_renumber (h : Heap) (v : Value) : (h.renumber ρ).shown v = h.shown v := by
  cases v with
  | int | long | array => rfl
  -- an object is shown by its text if it is a string, else by its class name
  | object ref =>
    unfold shown
    dsimp only
    rw [stringOf_renumber, objectText_renumber]

/-- No line of the journal tells the number of a class. -/
@[simp] theorem dump_renumber (h : Heap) (v : Value) : (h.renumber ρ).dump v = h.dump v := by
  cases v with
  | int | long | array => rfl
  | object ref =>
    unfold dump
    dsimp only
    rw [objectText_renumber]

end Heap

/-! ## States -/

/-- The state under other numbers. -/
def State.renumber (ρ : Nat → Nat) (s : State) : State :=
  { s with
    heap := s.heap.renumber ρ
    statics := s.statics.renumber ρ
    status := s.status.renumber ρ }

/-- What a computation comes to, with its state under other numbers. -/
def renumbered (ρ : Nat → Nat) (x : State × α) : State × α :=
  (x.1.renumber ρ, x.2)

namespace State

/-- The heap of a renumbered state. -/
@[simp] theorem heap_renumber (s : State) : (s.renumber ρ).heap = s.heap.renumber ρ := rfl

/-- A fresh state knows no numbers. -/
theorem renumber_fresh (journal : Journal) : ({ journal } : State).renumber ρ = { journal } := by
  simp [renumber, Heap.renumber, Table.renumber]

/-- The journal has no numbers. -/
theorem log_renumber (s : State) (level : Level) (message : Unit → String) :
    (s.renumber ρ).log level message = (s.log level message).renumber ρ := rfl

/-- A class has the status under its new number that it had under the old one. -/
theorem classStatus_renumber (hρ : ρ.Injective) (s : State) (id : Nat) :
    (s.renumber ρ).classStatus (ρ id) = s.classStatus id := by
  unfold classStatus
  exact congrArg (·.getD .uninitialized) (Table.get?_renumber hρ s.status id)

/-- Setting the status of a class comes to the same. -/
theorem setClassStatus_renumber (hρ : ρ.Injective) (s : State) (id : Nat) (status : ClassStatus) :
    (s.renumber ρ).setClassStatus (ρ id) status = (s.setClassStatus id status).renumber ρ := by
  simp [setClassStatus, renumber, Table.insert_renumber hρ]

/-- A static field has the value under the new number that it had under the old one. -/
theorem static?_renumber (hρ : ρ.Injective) (s : State) (id : Nat) (name : String) :
    (s.renumber ρ).static? (ρ id) name = s.static? id name := by
  simp [static?, renumber, Table.get?_renumber hρ]

/-- Writing a static field comes to the same. -/
theorem setStatic_renumber (hρ : ρ.Injective) (s : State) (id : Nat) (name : String) (v : Value) :
    (s.renumber ρ).setStatic (ρ id) name v = (s.setStatic id name v).renumber ρ := by
  simp [setStatic, renumber, Table.get?_renumber hρ, Table.insert_renumber hρ]

/-- Giving a class its static fields comes to the same. -/
theorem installStatics_renumber (hρ : ρ.Injective) (s : State) (id : Nat)
    (fields : Table String Value) :
    (s.renumber ρ).installStatics (ρ id) fields = (s.installStatics id fields).renumber ρ := by
  simp [installStatics, renumber, Table.insert_renumber hρ]

/-- Locking a reference comes to the same. -/
theorem lock_renumber (s : State) (v : Value) :
    (s.renumber ρ).lock v = State.renumber ρ <$> s.lock v := by
  unfold lock
  have hlocks : (s.renumber ρ).locks = s.locks := rfl
  rw [hlocks]
  split <;> rfl

/-- Unlocking a reference comes to the same. -/
theorem unlock_renumber (s : State) (v : Value) :
    (s.renumber ρ).unlock v = State.renumber ρ <$> s.unlock v := by
  unfold unlock
  have hlocks : (s.renumber ρ).locks = s.locks := rfl
  rw [hlocks]
  split <;> rfl

/-- Putting an object on the heap gives the same reference. -/
theorem allocObject_renumber (s : State) (o : Object) :
    (s.renumber ρ).allocObject (o.renumber ρ) = renumbered ρ (s.allocObject o) := by
  unfold allocObject
  rw [heap_renumber, Heap.allocObject_renumber]
  rfl

/-- A new host object gets the same reference, and what it holds is renumbered. -/
theorem allocHost_renumber (s : State) (className : String) (data : HostData) :
    (s.renumber ρ).allocHost className (data.renumber ρ) = renumbered ρ (s.allocHost className data) :=
  allocObject_renumber s ⟨className, .host data⟩

/-- A new string gets the same reference. -/
theorem newString_renumber (s : State) (text : String) :
    (s.renumber ρ).newString text = renumbered ρ (s.newString text) :=
  allocHost_renumber s stringClass { contents? := some text }

/-- A literal stands for the same string. -/
theorem intern_renumber (s : State) (text : String) :
    (s.renumber ρ).intern text = renumbered ρ (s.intern text) := by
  unfold intern
  have hstrings : (s.renumber ρ).strings = s.strings := rfl
  rw [hstrings, newString_renumber]
  -- the pool maps texts to references, and neither has a number
  cases s.strings.get? text <;> rfl

/-- The value of what nobody has written is the same. -/
theorem defaultValue_renumber (s : State) (type : Descriptor) :
    (s.renumber ρ).defaultValue type = renumbered ρ (s.defaultValue type) := by
  unfold defaultValue
  rw [intern_renumber]
  split <;> rfl

/-- An initial value stands for the same value. -/
theorem constantValue_renumber (s : State) (c : Constant) (type : Descriptor) :
    (s.renumber ρ).constantValue c type = renumbered ρ (s.constantValue c type) := by
  cases c with
  -- only a text touches the state
  | string text =>
    unfold constantValue
    dsimp only
    rw [intern_renumber]
    rfl
  | integer | boolean | null => rfl

/-- A static field starts with the same value. -/
theorem initialValue_renumber (s : State) (f : Field) :
    (s.renumber ρ).initialValue f = renumbered ρ (s.initialValue f) := by
  unfold initialValue
  rw [defaultValue_renumber]
  cases f.initial? with
  | none => rfl
  | some c => exact constantValue_renumber s c f.type

/-- Static fields start with the same values. -/
theorem initialStatics_renumber (s : State) (fields : List Field) :
    (s.renumber ρ).initialStatics fields = renumbered ρ (s.initialStatics fields) := by
  unfold initialStatics
  -- the induction is on the fields still to come, with any table so far
  generalize ({} : Table String Value) = table
  induction fields generalizing s table with
  | nil => rfl
  | cons f rest ih =>
    simp only [List.foldl_cons, initialValue_renumber]
    exact ih (s.initialValue f).1 (table.insert f.name (s.initialValue f).2)

end State

end Machine
end Smali
