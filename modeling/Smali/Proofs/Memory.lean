import Smali.Proofs.Cells
import Smali.Proofs.ClassStatus
import Smali.Proofs.Executions

/-!
# Storing and reading

An instruction names the location that it works on: a static field by its identifier, a field of an instance
by the slot of the object and the identifier, an element by the slots of the array and the index (`Place`).
Storing a value in a location and reading it again by any instruction that names the same location gives the
value, reduced to the kind of the accessor. The class of a field is set up before the field is stored, at
most once; apart from that a store changes one location.

## Key results

- `Readying.step`: how the class of a field is set up while the instruction waits
- `field_executed`: an instruction that has touched a field: its class is set up then
- `executes_field`: an instruction that touches a field of a class that is set up
- `Put`: what a store does
- `memory_law`: what is stored is read again
-/

namespace Smali.Machine

/-- How an instruction names a location. -/
inductive Place where
  | static (id : FieldId)
  | field (object : Slot) (id : FieldId)
  | element (array index : Slot)
  deriving Repr, DecidableEq, Inhabited

namespace Place

/-- The instruction that stores the value of a slot. -/
def put (kind : AccessKind) (src : Slot) : Place → Instruction
  | static id => .staticPut kind src id
  | field object id => .instancePut kind src object id
  | element array index => .arrayPut kind src array index

/-- The instruction that reads the location. -/
def get (kind : AccessKind) (dest : Slot) : Place → Instruction
  | static id => .staticGet kind dest id
  | field object id => .instanceGet kind dest object id
  | element array index => .arrayGet kind dest array index

/-- The identifier of the field. -/
def fieldId? : Place → Option FieldId
  | static id | field _ id => some id
  | element _ _ => none

/-- The location that is named in a frame. -/
def Names (p : Program) (f : Frame) : Place → Cell → Prop
  | static id, c => ∃ owner field, lookupStaticField p id = .ok (owner, field) ∧
    c = .static owner.id field.name
  | field object id, c => ∃ ref owner field, f.read object = .ok (.object ref) ∧
    lookupInstanceField p id = .found (owner, field) ∧ c = .field ref field.name
  | element array index, c => ∃ ref i, f.read array = .ok (.array ref) ∧
    f.readInt index = .ok i ∧ 0 ≤ i.toInt ∧ c = .element ref i.toInt.toNat

end Place

variable {setup : Setup} {p : Program} {s s' s₀ : State} {f f' : Frame} {i : Instruction}
  {kind : AccessKind} {waiting : List Waiting} {m m' : Snapshot}

/-! ## Instructions that touch a field -/

/-- The class counts as set up. -/
def ClassReady (p : Program) (className : String) (s : State) : Prop :=
  ∃ c, findClass p className = .ok c ∧ s.classStatus c.id ≠ .uninitialized

/-- How far the class is that an instruction needs: it is asked for, its initializer runs, or it counts
as set up. -/
inductive Readying (p : Program) (className : String) (s₀ : State) (f : Frame) (i : Instruction)
    (waiting : List Waiting) : Snapshot → Prop
  | wanted : Readying p className s₀ f i waiting ⟨s₀, .initClass className, .access f i :: waiting⟩
  | running {m : Snapshot} {c : LoadedClass} {front : List Waiting}
      (hfresh : ¬ ClassReady p className s₀) (hc : findClass p className = .ok c)
      (hwaiting : m.waiting = front ++ .initializer c.id :: .access f i :: waiting) :
      Readying p className s₀ f i waiting m
  | ready {s₁ : State} (hready : ClassReady p className s₁)
      (hbefore : ClassReady p className s₀ → s₁ = s₀) :
      Readying p className s₀ f i waiting ⟨s₁, .finished none, .access f i :: waiting⟩

namespace Readying

variable {className : String}

/-- The instruction waits until the class counts as set up. -/
theorem waits (h : Readying p className s₀ f i waiting m) :
    ∃ front, m.waiting = front ++ .access f i :: waiting := by
  cases h with
  | wanted | ready => exact ⟨[], rfl⟩
  | @running _ c front _ _ hwaiting =>
    exact ⟨front ++ [.initializer c.id], by rw [hwaiting, List.append_assoc]; rfl⟩

/-- The step that asks for the class calls its initializer, or the class counts as set up. -/
theorem startInit (h : startInit setup s₀ className (.access f i :: waiting) = .more m') :
    Readying setup.program className s₀ f i waiting m' := by
  unfold Machine.startInit at h
  -- no class has the name, the class counts as set up, or it is fresh
  split at h
  · cases h
  · next c hc =>
    dsimp only at h
    split at h
    · next hready =>
      obtain rfl := Progress.more.inj h
      exact .ready ⟨c, hc, hready⟩ fun _ => rfl
    · next hstatus =>
      have hfresh : ¬ ClassReady setup.program className s₀ := by
        rintro ⟨c', hc', hready⟩
        obtain rfl := Except.ok.inj (hc.symm.trans hc')
        exact hstatus hready
      -- with an initializer the instruction waits for it, without one for nothing
      split at h
      · obtain rfl := Progress.more.inj h
        exact .running hfresh hc (List.nil_append _).symm
      · obtain rfl := Progress.more.inj h
        exact .ready ⟨c, hc, by simp⟩ fun hready => absurd hready hfresh

/-- A step of the work on the class. Whatever the initializer and the methods of the host that it calls
do, the class counts as set up when the initializer is over. -/
theorem step (h : Readying setup.program className s₀ f i waiting m)
    (hstep : step setup m = .more m') (hinside : waiting.length < m'.waiting.length) :
    Readying setup.program className s₀ f i waiting m' := by
  cases h with
  | wanted => exact startInit hstep
  | running hfresh hc hwaiting =>
    -- the initializer goes on, or it is over
    rcases step_held hstep hwaiting with ⟨front', hheld⟩ | ⟨value?, hm⟩
    · exact .running hfresh hc hheld
    · rw [hm] at hstep
      obtain rfl := Progress.more.inj hstep
      exact .ready ⟨_, hc, by simp⟩ fun hready => absurd hready hfresh
  | @ready s₁ hready =>
    -- the instruction is taken up again, so it is not under way any more
    replace hstep : resume setup s₁ none (.access f i) waiting = .more m' := hstep
    rw [resume_waiting .access hstep] at hinside
    exact absurd hinside (Nat.lt_irrefl _)

end Readying

/-- An instruction that needs a class is under way until the class counts as set up. -/
theorem underway_readying {className : String}
    (hfirst : step setup ⟨s, .run f, waiting⟩ =
      .more ⟨s₀, .initClass className, .access f i :: waiting⟩)
    (hm : Underway setup ⟨s, .run f, waiting⟩ m) :
    m = ⟨s, .run f, waiting⟩ ∨ Readying setup.program className s₀ f i waiting m := by
  -- the induction is on the steps since the instruction began
  induction hm with
  | refl => exact .inl rfl
  | tail _ hstep ih =>
    obtain ⟨hstep, hinside⟩ := hstep
    rcases ih with rfl | hreadying
    · obtain rfl := Progress.more.inj (hfirst.symm.trans hstep)
      exact .inr .wanted
    · exact .inr (hreadying.step hstep hinside)

/-- An instruction that touches a field and comes to its end does the rest of its work once its class
counts as set up. Nothing happens in between if it did so before. -/
theorem field_executed {className : String}
    (hfirst : step setup ⟨s, .run f, waiting⟩ =
      .more ⟨s₀, .initClass className, .access f i :: waiting⟩)
    (h : Executes setup ⟨s, .run f, waiting⟩ (.more m')) :
    ∃ s₁, Underway setup ⟨s, .run f, waiting⟩ ⟨s₁, .finished none, .access f i :: waiting⟩ ∧
      ClassReady setup.program className s₁ ∧ (ClassReady setup.program className s₀ → s₁ = s₀) ∧
      carryOn (access setup.program s₁ f i).1 (access setup.program s₁ f i).2 i waiting =
        .more m' := by
  obtain ⟨m, hm, hstep, hover⟩ := h
  have hlength : m'.waiting.length ≤ waiting.length := hover m' rfl
  rcases underway_readying hfirst hm with rfl | hreadying
  -- the first step has the instruction wait, so it is not the last one
  · obtain rfl := Progress.more.inj (hfirst.symm.trans hstep)
    rw [List.length_cons] at hlength
    omega
  · obtain ⟨front, hfront⟩ := hreadying.waits
    rcases step_held hstep hfront with ⟨front', hheld⟩ | ⟨value?, heq⟩
    -- as long as it waits the instruction is not over
    · rw [hheld, List.length_append, List.length_cons] at hlength
      omega
    · cases hreadying with
      -- of the three moments only the last one is followed by the rest of the work
      | wanted => cases congrArg Snapshot.task heq
      | running _ _ hwaiting =>
        have hsame := congrArg (List.length ∘ Snapshot.waiting) heq
        simp only [Function.comp_apply, hwaiting, List.length_append, List.length_cons] at hsame
        omega
      | @ready s₁ hready hbefore => exact ⟨s₁, hm, hready, hbefore, hstep⟩

/-- An instruction that touches a field of a class that counts as set up does the rest of its work
at once. -/
theorem executes_field {className : String}
    (hfirst : step setup ⟨s, .run f, waiting⟩ =
      .more ⟨s₀, .initClass className, .access f i :: waiting⟩)
    (hready : ClassReady setup.program className s₀)
    (haccess : access setup.program s₀ f i = (s', .ok (.next f'))) :
    Executes setup ⟨s, .run f, waiting⟩ (.more ⟨s', .run { f' with pc := f'.pc + 1 }, waiting⟩) := by
  obtain ⟨c, hc, hstatus⟩ := hready
  have hinside : waiting.length < (.access f i :: waiting).length := Nat.lt_succ_self _
  have hsecond : Underway setup ⟨s, .run f, waiting⟩ ⟨s₀, .finished none, .access f i :: waiting⟩ :=
    .tail (.single ⟨hfirst, hinside⟩) ⟨step_ready hc hstatus, hinside⟩
  refine ⟨_, hsecond, ?_, fun m' hm' => ?_⟩
  · show carryOn (access setup.program s₀ f i).1 (access setup.program s₀ f i).2 i waiting = _
    rw [haccess]
    rfl
  · obtain rfl := Progress.more.inj hm'
    exact Nat.le_refl _

/-! ## Stores -/

/-- The type of a location. That of a field stands in the program, that of an element on the heap. -/
def HasType (p : Program) (s : State) (type : Descriptor) : Option FieldId → Cell → Prop
  | some id, .static _ _ => ∃ owner field, lookupStaticField p id = .ok (owner, field) ∧
    type = field.type
  | some id, .field _ _ => ∃ owner field, lookupInstanceField p id = .found (owner, field) ∧
    type = field.type
  | none, .element ref _ => ∃ a, s.heap.arrays[ref]? = some a ∧ type = a.elementType
  | _, _ => False

/-- What a store does: the location that is named gets the value of the slot, reduced to the kind of the
accessor, which accepts the type of the location. -/
structure Put (p : Program) (kind : AccessKind) (place : Place) (src : Slot) (f : Frame) (s s' : State)
    (v : Value) (c : Cell) : Prop where
  value : f.readKind s.heap kind.valueKind src = .ok v
  names : place.Names p f c
  type : ∃ type, HasType p s' type place.fieldId? c ∧ kind.accepts type = true ∧
    (v.reduce kind).fits type = true
  writes : s.Writes c (v.reduce kind) s'

/-- What is stored is the value of the slot, reduced. -/
theorem readAccess_ok {h : Heap} {src : Slot} {w : Value} (hw : f.readAccess h kind src = .ok w) :
    ∃ v, f.readKind h kind.valueKind src = .ok v ∧ v.reduce kind = w := by
  rw [readAccess_eq] at hw
  exact map_eq_ok.1 hw

/-- Only references to objects are taken for objects. -/
theorem asObject_ok {v : Value} {ref : Nat} (h : v.asObject = .ok ref) : v = .object ref := by
  cases v with
  | object r => exact congrArg Value.object (Except.ok.inj h)
  | int | long | array => cases h

/-- Only references to arrays are taken for arrays. -/
theorem asArray_ok {v : Value} {ref : Nat} (h : v.asArray = .ok ref) : v = .array ref := by
  cases v with
  | array r => exact congrArg Value.array (Except.ok.inj h)
  | int | long | object => cases h

/-- A store of a static field. -/
theorem put_static {id : FieldId} {src : Slot} (h : staticPut p s f kind src id = .ok s') :
    ∃ v c, Put p kind (.static id) src f s s' v c := by
  -- the field is looked up, the slot is read, and the value is checked against the type
  obtain ⟨⟨owner, field⟩, hplace, h⟩ := bind_eq_ok.1 h
  obtain ⟨w, hw, h⟩ := bind_eq_ok.1 h
  obtain ⟨_, hfits, h⟩ := bind_eq_ok.1 h
  obtain rfl := Except.ok.inj h
  obtain ⟨hlookup, haccepts⟩ := staticField_ok hplace
  obtain ⟨v, hv, rfl⟩ := readAccess_ok hw
  exact ⟨v, .static owner.id field.name, hv, ⟨owner, field, hlookup, rfl⟩,
    ⟨field.type, ⟨owner, field, hlookup, rfl⟩, haccepts, fits_of_checkFits hfits⟩,
    writes_setStatic s owner.id field.name _⟩

/-- A store of a field of an instance. -/
theorem put_field {id : FieldId} {src object : Slot} {owner : LoadedClass} {field : Field} {heap : Heap}
    (hlookup : lookupInstanceField p id = .found (owner, field))
    (haccepts : kind.accepts field.type = true)
    (h : instancePut s.heap f kind src object field = .ok heap) :
    ∃ v c, Put p kind (.field object id) src f s { s with heap } v c := by
  -- the object comes first, then the value and its check
  obtain ⟨x, hx, h⟩ := bind_eq_ok.1 h
  obtain ⟨ref, href, h⟩ := bind_eq_ok.1 h
  obtain ⟨w, hw, h⟩ := bind_eq_ok.1 h
  obtain ⟨_, hfits, h⟩ := bind_eq_ok.1 h
  obtain ⟨v, hv, rfl⟩ := readAccess_ok hw
  rw [asObject_ok href] at hx
  exact ⟨v, .field ref field.name, hv, ⟨ref, owner, field, hx, hlookup, rfl⟩,
    ⟨field.type, ⟨owner, field, hlookup, rfl⟩, haccepts, fits_of_checkFits hfits⟩,
    writes_setField h⟩

/-- No element is stored under a negative index. -/
theorem nonneg_of_setElement {h heap : Heap} {ref : Nat} {index : Int} {v : Value}
    (hset : h.setElement ref index v = .ok heap) : 0 ≤ index := by
  obtain ⟨a, _, hset⟩ := bind_eq_ok.1 hset
  obtain ⟨i, hi, _⟩ := bind_eq_ok.1 hset
  exact (place_ok hi).1.1

/-- A store of an element. -/
theorem put_element {src array index : Slot} {heap : Heap}
    (h : arrayPut s.heap f kind src array index = .ok heap) :
    ∃ v c, Put p kind (.element array index) src f s { s with heap } v c := by
  obtain ⟨x, hx, h⟩ := bind_eq_ok.1 h
  obtain ⟨ref, href, h⟩ := bind_eq_ok.1 h
  obtain ⟨i, hi, h⟩ := bind_eq_ok.1 h
  obtain ⟨a, ha, h⟩ := bind_eq_ok.1 h
  split at h
  · next haccepts =>
    obtain ⟨w, hw, h⟩ := bind_eq_ok.1 h
    obtain ⟨_, hfits, h⟩ := bind_eq_ok.1 h
    obtain ⟨v, hv, rfl⟩ := readAccess_ok hw
    rw [asArray_ok href] at hx
    -- a store leaves the type of the array and its length alone
    obtain ⟨a', ha', htype, _⟩ := (persists_setElement h).array ref a (array_ok ha)
    exact ⟨v, .element ref i.toInt.toNat, hv, ⟨ref, i, hx, hi, nonneg_of_setElement h, rfl⟩,
      ⟨a.elementType, ⟨a', ha', htype.symm⟩, haccepts, fits_of_checkFits hfits⟩, writes_setElement h⟩
  · cases h

/-- The state in which a store is made is the one at the start but for the journal, unless the class of the
field has to be set up before. -/
def MadeIn (setup : Setup) (place : Place) (kind : AccessKind) (src : Slot) (f : Frame)
    (waiting : List Waiting) (s s₁ : State) : Prop :=
  (∃ journal, s₁ = { s with journal }) ∨
    ∃ id, place.fieldId? = some id ∧ ¬ ClassReady setup.program id.className s ∧
      Underway setup ⟨s, .run f, waiting⟩
        ⟨s₁, .finished none, .access f (place.put kind src) :: waiting⟩

/-- A store that comes to its end is made in some state, in which the class of the field counts as set up,
and the frame goes on with the next instruction. -/
def Stores (setup : Setup) (place : Place) (kind : AccessKind) (src : Slot) (f f' : Frame)
    (waiting : List Waiting) (s s' : State) : Prop :=
  ∃ v c s₁, Put setup.program kind place src f s₁ s' v c ∧
    MadeIn setup place kind src f waiting s s₁ ∧
    (∀ id, place.fieldId? = some id → ClassReady setup.program id.className s₁) ∧
    f' = { f with pc := f.pc + 1 }

/-- An instruction that is done leaves the state as it is and the frame at the next one. -/
theorem carryOn_next (h : carryOn s (.ok (.next f)) i waiting = .more ⟨s', .run f', waiting⟩) :
    s = s' ∧ f' = { f with pc := f.pc + 1 } := by
  have hsnapshot := Progress.more.inj h
  exact ⟨congrArg Snapshot.state hsnapshot, (Task.run.inj (congrArg Snapshot.task hsnapshot)).symm⟩

/-- A store of a field that comes to its end is made once the class counts as set up. -/
theorem stores_field (place : Place) (src : Slot) {id : FieldId}
    (hid : place.fieldId? = some id) {line : Unit → String}
    (hfirst : step setup ⟨s, .run f, waiting⟩ =
      .more ⟨s.log .trace line, .initClass id.className, .access f (place.put kind src) :: waiting⟩)
    (h : Executes setup ⟨s, .run f, waiting⟩ (.more ⟨s', .run f', waiting⟩))
    (hspec : ∀ s₁, carryOn (access setup.program s₁ f (place.put kind src)).1
        (access setup.program s₁ f (place.put kind src)).2 (place.put kind src) waiting =
          .more ⟨s', .run f', waiting⟩ →
        (∃ v c, Put setup.program kind place src f s₁ s' v c) ∧ f' = { f with pc := f.pc + 1 }) :
    Stores setup place kind src f f' waiting s s' := by
  obtain ⟨s₁, hm, hready, hshort, hend⟩ := field_executed hfirst h
  obtain ⟨⟨v, c, hput⟩, hframe⟩ := hspec s₁ hend
  refine ⟨v, c, s₁, hput, ?_, fun id' hid' => ?_, hframe⟩
  -- with the class set up before, only the journal has changed
  · by_cases hbefore : ClassReady setup.program id.className s
    · exact .inl ⟨_, hshort hbefore⟩
    · exact .inr ⟨id, hid, hbefore, hm⟩
  · obtain rfl := Option.some.inj (hid.symm.trans hid')
    exact hready

/-- A store of a static field that comes to its end. -/
theorem stores_static {id : FieldId} {src : Slot}
    (hi : f.code.instructions[f.pc]? = some (.staticPut kind src id))
    (h : Executes setup ⟨s, .run f, waiting⟩ (.more ⟨s', .run f', waiting⟩)) :
    Stores setup (.static id) kind src f f' waiting s s' := by
  obtain ⟨line, hrun⟩ := step_run setup hi s waiting
  refine stores_field (.static id) src rfl hrun h fun s₁ hend => ?_
  simp only [Place.put, access, attempt] at hend
  cases hput : staticPut setup.program s₁ f kind src id with
  | error e =>
    rw [hput] at hend
    cases hend
  | ok s₂ =>
    rw [hput] at hend
    obtain ⟨rfl, hframe⟩ := carryOn_next hend
    exact ⟨put_static hput, hframe⟩

/-- A store of a field of an instance that comes to its end. -/
theorem stores_instance {id : FieldId} {src object : Slot}
    (hi : f.code.instructions[f.pc]? = some (.instancePut kind src object id))
    (h : Executes setup ⟨s, .run f, waiting⟩ (.more ⟨s', .run f', waiting⟩)) :
    Stores setup (.field object id) kind src f f' waiting s s' := by
  obtain ⟨line, hrun⟩ := step_run setup hi s waiting
  simp only [exec, needFieldClass] at hrun
  -- without the field, or with a field of another type, the instruction is over at once
  cases hlookup : lookupInstanceField setup.program id with
  | failed e | endless =>
    rw [hlookup] at hrun
    cases hrun.symm.trans (executes_first h (by simp [hrun, carryOn]))
  | found place =>
    obtain ⟨owner, field⟩ := place
    rw [hlookup] at hrun
    cases hcheck : checkAccessor kind field id with
    | error e =>
      simp only [hcheck, bind, Except.bind] at hrun
      cases hrun.symm.trans (executes_first h (by simp [hrun, carryOn]))
    | ok u =>
      simp only [hcheck, bind, Except.bind] at hrun
      refine stores_field (.field object id) src rfl hrun h fun s₁ hend => ?_
      simp only [Place.put, access, hlookup, attempt] at hend
      cases hput : instancePut s₁.heap f kind src object field with
      | error e =>
        rw [hput] at hend
        cases hend
      | ok heap =>
        rw [hput] at hend
        obtain ⟨rfl, hframe⟩ := carryOn_next hend
        exact ⟨put_field hlookup (checkAccessor_ok hcheck) hput, hframe⟩

/-- A store of an element that comes to its end. -/
theorem stores_element {src array index : Slot}
    (hi : f.code.instructions[f.pc]? = some (.arrayPut kind src array index))
    (h : Executes setup ⟨s, .run f, waiting⟩ (.more ⟨s', .run f', waiting⟩)) :
    Stores setup (.element array index) kind src f f' waiting s s' := by
  obtain ⟨line, hrun⟩ := step_run setup hi s waiting
  simp only [exec, attempt] at hrun
  cases hput : arrayPut (s.log .trace line).heap f kind src array index with
  | error e =>
    rw [hput] at hrun
    cases hrun.symm.trans (executes_first h (by simp [hrun, carryOn]))
  | ok heap =>
    rw [hput] at hrun
    -- no class is needed, so the first step is the last one
    have hend := hrun.symm.trans (executes_first h (by simp [hrun, carryOn]))
    obtain ⟨rfl, hframe⟩ := carryOn_next hend
    obtain ⟨v, c, hspec⟩ := put_element (p := setup.program) hput
    exact ⟨v, c, _, hspec, .inl ⟨_, rfl⟩, fun id hid => (by cases hid), hframe⟩

/-- A store that comes to its end. -/
theorem stores_of_executes {place : Place} {src : Slot}
    (hi : f.code.instructions[f.pc]? = some (place.put kind src))
    (h : Executes setup ⟨s, .run f, waiting⟩ (.more ⟨s', .run f', waiting⟩)) :
    Stores setup place kind src f f' waiting s s' := by
  cases place with
  | static id => exact stores_static hi h
  | field object id => exact stores_instance hi h
  | element array index => exact stores_element hi h

/-! ## Reading again -/

variable {place : Place} {c : Cell} {w : Value} {dest : Slot}

/-- An object that has a field is no host object. -/
theorem field?_eq_some {o : Object} {name : String} (h : o.field? name = some w) :
    ∃ fields, o.body = .fields fields ∧ fields.get? name = some w := by
  unfold Object.field? at h
  split at h
  · next fields hbody => exact ⟨fields, hbody, h⟩
  · cases h

/-- The location has a value that the accessor can read. -/
structure Readable (p : Program) (kind : AccessKind) (id? : Option FieldId) (s : State) (c : Cell)
    (w : Value) : Prop where
  cell : s.cell? c = some w
  type : ∃ type, HasType p s type id? c ∧ kind.accepts type = true ∧ w.fits type = true

/-- A static field that can be read is read. -/
theorem get_static {id : FieldId} (hnames : Place.Names p f (.static id) c)
    (hw : Readable p kind (some id) s c w) (hroom : f.HasRoom kind.valueKind dest) :
    ∃ f', access p s f (.staticGet kind dest id) = (s, .ok (.next f')) ∧
      ∀ h, f'.readKind h kind.valueKind dest = .ok w := by
  obtain ⟨owner, field, hlookup, rfl⟩ := hnames
  obtain ⟨type, ⟨_, _, hlookup', rfl⟩, haccepts, hfits⟩ := hw.type
  obtain ⟨rfl, rfl⟩ := Prod.mk.inj (Except.ok.inj (hlookup.symm.trans hlookup'))
  obtain ⟨f', hwrite⟩ := writeKind_ok (h := s.heap) hfits haccepts hroom
  have hfield : staticField p kind id = .ok (owner, field) :=
    bind_eq_ok.2 ⟨_, hlookup, bind_eq_ok.2 ⟨(), if_pos haccepts, rfl⟩⟩
  -- the value is there and is written into the slot
  have hget : staticGet p s f kind dest id = .ok f' := by
    refine bind_eq_ok.2 ⟨_, hfield, ?_⟩
    have hcell : s.static? owner.id field.name = some w := hw.cell
    dsimp only
    rw [hcell]
    exact hwrite
  refine ⟨f', ?_, readKind_of_writeKind hwrite⟩
  rw [access, hget]
  rfl

/-- A field of an instance that can be read is read. -/
theorem get_field {object : Slot} {id : FieldId} (hnames : Place.Names p f (.field object id) c)
    (hw : Readable p kind (some id) s c w) (hroom : f.HasRoom kind.valueKind dest) :
    ∃ f', access p s f (.instanceGet kind dest object id) = (s, .ok (.next f')) ∧
      ∀ h, f'.readKind h kind.valueKind dest = .ok w := by
  obtain ⟨ref, owner, field, hread, hlookup, rfl⟩ := hnames
  obtain ⟨type, ⟨_, _, hlookup', rfl⟩, haccepts, hfits⟩ := hw.type
  obtain ⟨rfl, rfl⟩ := Prod.mk.inj (Search.found.inj (hlookup.symm.trans hlookup'))
  obtain ⟨f', hwrite⟩ := writeKind_ok (h := s.heap) hfits haccepts hroom
  -- a location that has a value belongs to an instance
  obtain ⟨o, ho, hvalue⟩ := Option.bind_eq_some_iff.1 hw.cell
  obtain ⟨fields, hbody, hvalue⟩ := field?_eq_some hvalue
  have hobject : s.heap.object ref = .ok o := by
    rw [Heap.object, ho]
  have hfields : o.fields = .ok fields := by
    rw [Object.fields, hbody]
  have hget : (do (← s.heap.object (← (← f.read object).asObject)).fields) = .ok fields :=
    bind_eq_ok.2 ⟨_, hread, bind_eq_ok.2 ⟨ref, rfl, bind_eq_ok.2 ⟨o, hobject, hfields⟩⟩⟩
  refine ⟨f', ?_, readKind_of_writeKind hwrite⟩
  simp only [access, hlookup, instanceGet, hget, attempt, hvalue, proceed, hwrite]
  rfl

/-- An instruction that can read a field of an instance asks for its class first. -/
theorem needFieldClass_of_readable {object : Slot} {id : FieldId}
    (hnames : Place.Names p f (.field object id) c) (hw : Readable p kind (some id) s c w) :
    needFieldClass p f kind id = .ok (.needClass f id.className) := by
  obtain ⟨ref, _, _, _, _, rfl⟩ := hnames
  obtain ⟨type, ⟨owner, field, hlookup, rfl⟩, haccepts, _⟩ := hw.type
  rw [needFieldClass, hlookup]
  exact bind_eq_ok.2 ⟨(), if_pos haccepts, rfl⟩

/-- An element that can be read is read. -/
theorem get_element {array index : Slot} (hnames : Place.Names p f (.element array index) c)
    (hw : Readable p kind none s c w) (hroom : f.HasRoom kind.valueKind dest) :
    ∃ f', exec p s f (.arrayGet kind dest array index) = (s, .ok (.next f')) ∧
      ∀ h, f'.readKind h kind.valueKind dest = .ok w := by
  obtain ⟨ref, n, hread, hindex, hn, rfl⟩ := hnames
  obtain ⟨type, ⟨a, ha, rfl⟩, haccepts, hfits⟩ := hw.type
  obtain ⟨f', hwrite⟩ := writeKind_ok (h := s.heap) hfits haccepts hroom
  obtain ⟨a', ha', hvalue⟩ := Option.bind_eq_some_iff.1 hw.cell
  obtain rfl := Option.some.inj (ha.symm.trans ha')
  have harray : s.heap.array ref = .ok a := by
    rw [Heap.array, ha]
  -- there is a value at the index, so the index is in range
  have hlt : n.toInt.toNat < a.values.size := (Array.getElem?_eq_some_iff.1 hvalue).1
  have hplace : a.place n.toInt = .ok n.toInt.toNat := if_pos (by omega)
  have helement : a.get n.toInt = .ok w := by
    refine bind_eq_ok.2 ⟨_, hplace, ?_⟩
    rw [hvalue]
    rfl
  have hget : arrayGet s.heap f kind dest array index = .ok f' := by
    refine bind_eq_ok.2 ⟨_, hread, bind_eq_ok.2 ⟨ref, rfl, bind_eq_ok.2 ⟨n, hindex, bind_eq_ok.2
      ⟨a, harray, ?_⟩⟩⟩⟩
    rw [if_pos haccepts]
    exact bind_eq_ok.2 ⟨w, helement, hwrite⟩
  refine ⟨f', ?_, readKind_of_writeKind hwrite⟩
  rw [exec, hget]
  rfl

/-- A location that can be read is read by every instruction that names it, in any frame with room for the
value; the state stays as it is but for the journal. -/
theorem get_executes (setup : Setup) (hnames : place.Names setup.program f c)
    (hw : Readable setup.program kind place.fieldId? s c w)
    (hready : ∀ id, place.fieldId? = some id → ClassReady setup.program id.className s)
    (hroom : f.HasRoom kind.valueKind dest)
    (hi : f.code.instructions[f.pc]? = some (place.get kind dest)) (waiting : List Waiting) :
    ∃ journal f', Executes setup ⟨s, .run f, waiting⟩ (.more ⟨{ s with journal }, .run f', waiting⟩) ∧
      ∀ h, f'.readKind h kind.valueKind dest = .ok w := by
  obtain ⟨line, hrun⟩ := step_run setup hi s waiting
  -- the first step writes a line into the journal, which plays no part in reading
  have hw' : Readable setup.program kind place.fieldId? (s.log .trace line) c w := ⟨hw.cell, hw.type⟩
  cases place with
  | static id =>
    obtain ⟨f', haccess, hread⟩ := get_static hnames hw' hroom
    exact ⟨_, _, executes_field hrun (hready id rfl) haccess, hread⟩
  | field object id =>
    obtain ⟨f', haccess, hread⟩ := get_field hnames hw' hroom
    simp only [Place.get, exec, needFieldClass_of_readable hnames hw'] at hrun
    exact ⟨_, _, executes_field hrun (hready id rfl) haccess, hread⟩
  | element array index =>
    obtain ⟨f', hexec, hread⟩ := get_element hnames hw' hroom
    simp only [Place.get, hexec] at hrun
    refine ⟨_, _, ⟨_, .refl, hrun, fun m' hm' => ?_⟩, hread⟩
    obtain rfl := Progress.more.inj hm'
    exact Nat.le_refl _

/-! ## The law -/

/-- Reading a slot does not depend on the heap. -/
theorem readKind_any {h : Heap} {kind : ValueKind} {slot : Slot} {v : Value}
    (hread : f.readKind h kind slot = .ok v) (h' : Heap) : f.readKind h' kind slot = .ok v := by
  cases kind with
  | single | wide => exact hread
  | object =>
    -- the heap is for the message only
    obtain ⟨x, hx, hread⟩ := bind_eq_ok.1 hread
    split at hread
    · next href => exact bind_eq_ok.2 ⟨x, hx, (if_pos href).trans hread⟩
    · cases hread

/-- Take a store by an accessor of any kind that comes to its end: of a static field, of a field of an
instance or of an element, named by an instruction in any frame. It stores the value `v` of its slot in
the location `c`.

- After it the location has the value, reduced to the kind, and it is all that the store changes. It is
  made in the state at the start, unless it has the class of the field set up: then in the state after
  that.
- Any instruction in any frame that names the location, by the same identifier if it is a field, and that
  has room for the value in its frame, reads the reduced value and changes nothing else.
- The value is reduced as conversions do for the types that have one, to the lowest byte for a boolean,
  and not at all for the other kinds. -/
theorem memory_law (setup : Setup) (s s' : State) (f f' : Frame) (kind : AccessKind) (place : Place)
    (src : Slot) (waiting : List Waiting)
    (hi : f.code.instructions[f.pc]? = some (place.put kind src))
    (hput : Executes setup ⟨s, .run f, waiting⟩ (.more ⟨s', .run f', waiting⟩)) :
    ∃ v c s₁,
      f.readKind s.heap kind.valueKind src = .ok v ∧ place.Names setup.program f c ∧
      MadeIn setup place kind src f waiting s s₁ ∧ s₁.Writes c (v.reduce kind) s' ∧
      f' = { f with pc := f.pc + 1 } ∧
      (∀ (g : Frame) (place' : Place) (dest : Slot) (waiting' : List Waiting),
        place'.fieldId? = place.fieldId? → place'.Names setup.program g c →
        g.HasRoom kind.valueKind dest →
        g.code.instructions[g.pc]? = some (place'.get kind dest) →
        ∃ journal g', Executes setup ⟨s', .run g, waiting'⟩
            (.more ⟨{ s' with journal }, .run g', waiting'⟩) ∧
          g'.readKind s'.heap kind.valueKind dest = .ok (v.reduce kind)) ∧
      (∀ conversion, kind.conversion? = some conversion →
        ∀ (g : Frame) (dest src' : Slot) (n : Int32), g.readInt src' = .ok n →
          exec setup.program s' g (.convert conversion dest src') =
            proceed s' (g.write dest ((Value.int n).reduce kind))) ∧
      (kind = .boolean → ∀ n, (Value.int n).reduce kind = .int (n &&& 0xFF)) ∧
      (kind = .int ∨ kind = .wide ∨ kind = .object → v.reduce kind = v) := by
  obtain ⟨v, c, s₁, hspec, hmade, hready, hframe⟩ := stores_of_executes hi hput
  -- what was written has the type of the location and can be read
  have hreadable : Readable setup.program kind place.fieldId? s' c (v.reduce kind) :=
    ⟨hspec.writes.written, hspec.type⟩
  -- the store leaves the status of the class alone
  have hready' (id : FieldId) (hid : place.fieldId? = some id) :
      ClassReady setup.program id.className s' := by
    obtain ⟨owner, howner, hstatus⟩ := hready id hid
    refine ⟨owner, howner, ?_⟩
    rw [hspec.writes.rest]
    exact hstatus
  refine ⟨v, c, s₁, readKind_any hspec.value s.heap, hspec.names, hmade, hspec.writes, hframe, ?_,
    fun conversion hkind g dest src' n hn => ?_, ?_, fun hkind => reduce_self hkind v⟩
  -- reading by the same identifier meets the same field
  · intro g place' dest waiting' hid hnames hroom hj
    rw [← hid] at hreadable hready'
    obtain ⟨journal, g', hexec, hread⟩ :=
      get_executes setup hnames hreadable hready' hroom hj waiting'
    exact ⟨journal, g', hexec, hread s'.heap⟩
  · rw [exec, convert_reduce hkind hn]
  · rintro rfl n
    exact congrArg Value.int (truncate_eq .boolean n).symm

namespace Narrowing

/-- A static field for bytes. -/
def low : Field where
  flags := .ofWords ["static"]
  name := "low"
  type := .byte
  initial? := none

/-- A machine with a class for the field. -/
def machine : Setup where
  program := ClassTable.freeze
    ⟨[("LCell;", { flags := .ofWords [], name := "LCell;", fields := ⟨[("low", low)]⟩ })]⟩

/-- The place of the field. -/
def lowByte : Place :=
  .static ⟨"LCell;", "low", .byte⟩

/-- A method of one instruction. -/
def method (i : Instruction) : Method where
  className := "LCell;"
  name := "use"
  flags := .ofWords ["static"]
  params := []
  returnType := .void
  body := .code { registerCount := 2, instructions := #[i] }

/-- The frame before the instruction: its first register holds a number that is no byte. -/
def frame (i : Instruction) : Frame where
  method := method i
  code := { registerCount := 2, instructions := #[i] }
  registers := ⟨#[some (.int 200), none]⟩
  parameters := ⟨#[]⟩

/-- The class has been set up. -/
def ready : State :=
  (({} : State).installStatics 0 ⟨[("low", .int 0)]⟩).setClassStatus 0 .initialized

end Narrowing

open Narrowing in
/-- A number is stored as a byte in a field whose class has to be set up before; another frame
reads what was left of it. -/
theorem narrowing_memory :
    Executes machine ⟨{}, .run (frame (lowByte.put .byte (.register 0))), []⟩
      (.more ⟨ready.setStatic 0 "low" (.int (-56)),
        .run { frame (lowByte.put .byte (.register 0)) with pc := 1 }, []⟩) ∧
    ∃ journal g', Executes machine
        ⟨ready.setStatic 0 "low" (.int (-56)), .run (frame (lowByte.get .byte (.register 1))), []⟩
        (.more ⟨{ ready.setStatic 0 "low" (.int (-56)) with journal }, .run g', []⟩) ∧
      g'.readKind {} .single (.register 1) = .ok (.int (-56)) := by
  -- two steps set the class up, the third one stores
  have hput : Executes machine
      ⟨{}, .run (frame (lowByte.put .byte (.register 0))), []⟩
      (.more ⟨ready.setStatic 0 "low" (.int (-56)),
        .run { frame (lowByte.put .byte (.register 0)) with pc := 1 }, []⟩) := by
    refine ⟨⟨ready, .finished none, [.access (frame (lowByte.put .byte (.register 0)))
      (lowByte.put .byte (.register 0))]⟩, .tail (.single (b := ⟨{}, .initClass "LCell;",
        [.access (frame (lowByte.put .byte (.register 0))) (lowByte.put .byte (.register 0))]⟩)
          ⟨by decide, by decide⟩) ⟨by decide, by decide⟩, by decide, fun m' hm' => ?_⟩
    obtain rfl := Progress.more.inj hm'
    exact Nat.le_refl _
  refine ⟨hput, ?_⟩
  obtain ⟨v, c, s₁, hv, hnames, -, -, -, hget, -⟩ :=
    memory_law machine {} _ _ _ .byte lowByte (.register 0) [] rfl hput
  obtain rfl : .int 200 = v := Except.ok.inj hv
  exact hget (frame (lowByte.get .byte (.register 1))) lowByte (.register 1) [] rfl hnames
    (show 1 < 2 by decide) rfl

end Smali.Machine
