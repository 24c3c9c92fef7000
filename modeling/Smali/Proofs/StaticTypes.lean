import Smali.Proofs.ClassStatus
import Smali.Proofs.HeapTyping
import Smali.Proofs.Names

/-!
# The types of static fields

The value of a static field is written in four ways: the set-up of its class gives it the initial value
from its declaration or else the first value of its type, and later an instruction or a method of the host
may write it. The last two check what they write against the type of the field. The set-up does not: a text
or a truth value may be declared as the initial value of a field of any type.

So what the declaration says decides. If the first value of a field fits its type, every later value does,
and an instruction that reads the field with an accessor for that type cannot fail on the value. If it does
not, the field has a value that does not fit as soon as its class is set up.

## Key results

- `fits_initialValue`: when the first value of a field fits
- `ClassMove.fieldFits`: a field whose first value fits keeps to its type
- `statics_fit_iff`: what this means for the sessions of a machine
- `misfit_read_fails`: a field that cannot be read with the accessor for its type
-/

namespace Smali

/-- Whether the value that an initial value stands for fits a type. -/
def Constant.fits (c : Constant) (type : Descriptor) : Bool :=
  match c with
  -- zero is null, no other number is a reference
  | .integer v => if type.isReference then v.toInt32 = 0 else type ≠ .void
  | .boolean b => if type.isReference then !b else !type.isWide && type ≠ .void
  | .string _ => type.isReference
  | .null => !type.isWide && type ≠ .void

/-- Whether the first value of a static field fits the type of the field. -/
def Field.firstFits (f : Field) : Bool :=
  match f.initial? with
  | some c => c.fits f.type
  | none => f.type ≠ .void

namespace Machine

/-! ## First values -/

/-- The zero of a type fits the type, except for void. -/
theorem fits_zeroOf (type : Descriptor) : (Value.zeroOf type).fits type = (type ≠ .void : Bool) := by
  cases type <;> rfl

/-- So does its first value. -/
theorem fits_defaultValue (s : State) (type : Descriptor) :
    (s.defaultValue type).2.fits type = (type ≠ .void : Bool) := by
  unfold State.defaultValue
  split
  · next htype =>
    subst htype
    rfl
  · exact fits_zeroOf type

/-- A 32-bit number fits the types of that width, and zero fits the reference types. -/
theorem fits_int (n : Int32) (type : Descriptor) : (Value.int n).fits type =
    if type.isReference then (n = 0 : Bool) else !type.isWide && type ≠ .void := by
  cases type <;> simp [Value.fits, Value.variant, Value.isReferenceOrNull, Value.isReference,
    Value.isNull, Descriptor.isReference, Descriptor.isWide]

/-- Whether the value of a constant fits can be told from the constant. -/
theorem fits_constantValue (s : State) (c : Constant) (type : Descriptor) :
    (s.constantValue c type).2.fits type = c.fits type := by
  -- a number is widened for a type of 64 bits; truth values and null are always 32 bits
  cases c with
  | integer v =>
    simp only [State.constantValue, Constant.fits]
    split
    · next hwide =>
      cases type with
      | long | double => rfl
      | _ => cases hwide
    · next hwide =>
      rw [fits_int]
      simp [hwide]
  | boolean b =>
    simp only [State.constantValue, Constant.fits]
    rw [fits_int]
    cases b <;> rfl
  | string text => cases type <;> rfl
  | null =>
    simp only [State.constantValue, Constant.fits]
    rw [fits_int]
    cases type <;> rfl

/-- When the first value of a field fits its type. -/
theorem fits_initialValue (s : State) (f : Field) :
    (s.initialValue f).2.fits f.type = f.firstFits := by
  unfold State.initialValue Field.firstFits
  cases f.initial? with
  | some c => exact fits_constantValue s c f.type
  | none => exact fits_defaultValue s f.type

/-! ## Later values -/

/-- The static field has no value that does not fit its type. -/
def State.FieldFits (c : LoadedClass) (f : Field) (s : State) : Prop :=
  ∀ v, s.static? c.id f.name = some v → v.fits f.type = true

/-- In the program the number of a class tells the class, and the name of a field the field. -/
structure Distinct (p : Program) : Prop where
  ids : DistinctIds p
  fields : ∀ c ∈ p.classes, ∀ f ∈ c.fields.values, ∀ f' ∈ c.fields.values, f.name = f'.name → f = f'

/-- So it is in a frozen table with tidy classes. -/
theorem distinct_freeze {t : ClassTable} (h : t.Tidy) : Distinct t.freeze where
  ids := distinctIds_freeze t
  fields _ hc _ hf _ hf' hname := (h.ofClass hc).field_unique hf hf' hname

variable {setup : Setup} {p : Program} {s s' : State} {m m' : Snapshot} {o o' : Outcome}
  {c : LoadedClass} {f : Field}

/-- Only the static fields matter. -/
theorem State.FieldFits.congr (h : s.FieldFits c f) (hstatics : s'.statics = s.statics) :
    s'.FieldFits c f := by
  intro v hv
  unfold State.static? at hv
  rw [hstatics] at hv
  exact h v hv

/-- A write to a static field changes that field only. -/
theorem static?_setStatic (s : State) (id id' : Nat) (name name' : String) (v : Value) :
    (s.setStatic id name v).static? id' name' =
      if id' = id ∧ name' = name then some v else s.static? id' name' := by
  show ((s.statics.insert id _).get? id').bind (·.get? name') = _
  rw [Table.get?_insert]
  -- another class is left alone, and so is another field of the class
  by_cases hid : id' = id
  · subst hid
    rw [if_pos rfl]
    show (Table.insert _ name v).get? name' = _
    rw [Table.get?_insert]
    by_cases hname : name' = name
    · rw [if_pos hname, if_pos ⟨rfl, hname⟩]
    · rw [if_neg hname, if_neg fun h => hname h.2]
      -- a class without static fields has none under the other name either
      cases h : s.statics.get? id' <;> simp [State.static?, h]
  · rw [if_neg hid, if_neg fun h => hid h.1]
    rfl

/-- The set-up of a class changes the static fields of that class only. -/
theorem static?_setUp (s : State) (id id' : Nat) (fields : Table String Value)
    (status : ClassStatus) (name : String) :
    ((s.installStatics id fields).setClassStatus id status).static? id' name =
      if id' = id then fields.get? name else s.static? id' name := by
  show ((s.statics.insert id fields).get? id').bind (·.get? name) = _
  rw [Table.get?_insert]
  split <;> rfl

/-- A declared write puts into the field only what fits. -/
theorem fieldFits_setStatic (hp : Distinct p) (hf : p.HasField c f) (h : s.FieldFits c f)
    {c' : LoadedClass} {f' : Field} {v : Value} (hw : (DeclaredStatic p).static c' f' v) :
    (s.setStatic c'.id f'.name v).FieldFits c f := by
  intro w hv
  rw [static?_setStatic] at hv
  split at hv
  · next hsame =>
    -- the field that is written is the field itself
    obtain rfl := hp.ids c hf.1 c' hw.1.1 hsame.1
    obtain rfl := hp.fields c hf.1 f hf.2 f' hw.1.2 hsame.2
    exact Option.some.inj hv ▸ hw.2.2
  · exact h w hv

/-- Changes other than the set-up of classes keep the field to its type. -/
theorem Evolves.fieldFits (hp : Distinct p) (hf : p.HasField c f) (h : Evolves p s s')
    (hs : s.FieldFits c f) : s'.FieldFits c f := by
  -- the induction is on the changes; only a write to a static field matters
  induction h with
  | refl => exact hs
  | tail _ h ih =>
    cases h with
    | calls | lastReturn => exact ih.congr rfl
    | change _ h =>
      cases h with
      | setStatic c' f' v hw => exact fieldFits_setStatic hp hf ih hw
      | intern text => exact ih.congr (intern_fields _ text).2.2
      | lock _ v h => exact ih.congr (lock_fields h).2.2.1
      | unlock _ v h => exact ih.congr (unlock_fields h).2.2.1
      | log | newInstance | newHost | newArray | setField | setContents | setElement => exact ih.congr rfl

/-- Under its name a field has its own first value. -/
theorem FirstValues.fits_eq {fields : Table String Value} (h : FirstValues c fields)
    (hp : Distinct p) (hf : p.HasField c f) {v : Value} (hv : fields.get? f.name = some v) :
    v.fits f.type = f.firstFits := by
  obtain ⟨f', hf', hname, s, rfl⟩ := h f.name v hv
  -- no other field of the class has the name
  obtain rfl := hp.fields c hf.1 f hf.2 f' (List.mem_filter.1 hf').1 hname.symm
  exact fits_initialValue s f

/-- The set-up of a class puts the first value into the field. -/
theorem fieldFits_setUp (hp : Distinct p) (hf : p.HasField c f) (hfirst : f.firstFits = true)
    (h : s.FieldFits c f) {c' : LoadedClass} (hc' : c' ∈ p.classes) {fields : Table String Value}
    (hfields : FirstValues c' fields) (status : ClassStatus) :
    ((s.installStatics c'.id fields).setClassStatus c'.id status).FieldFits c f := by
  intro v hv
  rw [static?_setUp] at hv
  split at hv
  · next hid =>
    -- no other class has the number
    obtain rfl := hp.ids c hf.1 c' hc' hid
    exact (hfields.fits_eq hp hf hv).trans hfirst
  · exact h v hv

/-- A field whose first value fits keeps to its type in every step. -/
theorem ClassMove.fieldFits (hp : Distinct p) (hf : p.HasField c f) (hfirst : f.firstFits = true)
    (h : ClassMove p m m') (hm : m.state.FieldFits c f) : m'.state.FieldFits c f := by
  cases h with
  | quiet _ h => exact h.state.fieldFits hp hf hm
  | ready => exact hm
  | start className c' htask hc' hstatus s hs fields hfields method hinit hvalues =>
    exact fieldFits_setUp hp hf hfirst ((Evolves.of_quiet hs).fieldFits hp hf hm)
      (mem_of_findClass hc') hvalues .initializing
  | complete className c' htask hc' hstatus s hs fields hfields hvalues =>
    exact fieldFits_setUp hp hf hfirst ((Evolves.of_quiet hs).fieldFits hp hf hm)
      (mem_of_findClass hc') hvalues .initialized
  | finish => exact hm.congr rfl

/-- So does a move of a session. -/
theorem SessionMove.fieldFits (hp : Distinct setup.program) (hf : setup.program.HasField c f)
    (hfirst : f.firstFits = true) (h : SessionMove setup o o') (ho : o.state.FieldFits c f) :
    o'.state.FieldFits c f := by
  -- between calls the static fields stay, and in a call each step keeps to the type
  cases h with
  | start _ s task h hcall =>
    rw [state_of_ended h] at ho
    exact ho
  | step m m' hstep h => exact h.fieldFits hp hf hfirst ho
  | done => exact ho
  | fault m s₁ s e h hs => exact hs.fieldFits hp hf ho
  | idle _ _ s s' h h' hs =>
    rw [state_of_ended h] at ho
    rw [state_of_ended h']
    exact hs.fieldFits hp hf ho

/-! ## Sessions -/

/-- A field whose first value fits keeps to its type throughout a session. -/
theorem fieldFits_history (hn : setup.natives = .standard) (hp : Distinct setup.program)
    (hf : setup.program.HasField c f) (hfirst : f.firstFits = true) (journal : Journal)
    (ops : List (Operation × Nat)) :
    ∀ o ∈ history setup { journal } ops, o.state.FieldFits c f := by
  have hchain : List.IsChain (SessionMove setup)
      (.returned { journal } none :: history setup { journal } ops) :=
    isChain_sessionMove setup hn (known_empty setup.program) ops
  have hstart : State.FieldFits c f { journal } := fun v hv => by cases hv
  exact hchain.cons_induction (fun o => o.state.FieldFits c f) _
    (fun _ _ h => h.fieldFits hp hf hfirst) hstart

/-- The set-up of a class gives the field its first value. -/
theorem initClass_first (hn : setup.natives = .standard) (hp : Distinct setup.program)
    (hf : setup.program.HasField c f) (hc : findClass setup.program c.name = .ok c)
    (journal : Journal) :
    let s := (initClass setup 1 { journal } c.name).state
    s.classStatus c.id ≠ .uninitialized ∧
      ∀ v, s.static? c.id f.name = some v → v.fits f.type = f.firstFits := by
  obtain ⟨m', hstep⟩ := step_initClass_found (m := ⟨{ journal }, .initClass c.name, []⟩) rfl hc
  have hrun : initClass setup 1 { journal } c.name = .unfinished m' := by
    unfold initClass run
    rw [hstep]
    rfl
  -- a fresh machine has the class in its first status
  have hmove : Move setup ⟨{ journal }, .initClass c.name, []⟩ (.more m') := hstep ▸ step_move hn _
  rw [hrun]
  -- with an initializer or without one, the first values are installed in the one step
  cases hmove with
  | ready _ _ _ c' hc' hstatus => exact absurd rfl hstatus
  | beginInit _ s' _ _ c' method fields hc' hstatus hs hfields hinit hvalues =>
    obtain rfl := Except.ok.inj (hc.symm.trans hc')
    refine ⟨by simp [Outcome.state], fun v hv => ?_⟩
    rw [Outcome.state, static?_setUp, if_pos rfl] at hv
    exact hvalues.fits_eq hp hf hv
  | completeInit _ s' _ _ c' fields hc' hstatus hs hfields hinit hvalues =>
    obtain rfl := Except.ok.inj (hc.symm.trans hc')
    refine ⟨by simp [Outcome.state], fun v hv => ?_⟩
    rw [Outcome.state, static?_setUp, if_pos rfl] at hv
    exact hvalues.fits_eq hp hf hv

/-! ## Reading a static field -/

/-- An accessor that passes the check is one for the type of the field. -/
theorem checkAccessor_ok {kind : AccessKind} {id : FieldId} {u : Unit}
    (h : checkAccessor kind f id = .ok u) : kind.accepts f.type = true := by
  unfold checkAccessor at h
  split at h
  · assumption
  · cases h

/-- The field that is accessed is the one that is looked up. -/
theorem staticField_ok {kind : AccessKind} {id : FieldId} (h : staticField p kind id = .ok (c, f)) :
    lookupStaticField p id = .ok (c, f) ∧ kind.accepts f.type = true := by
  obtain ⟨⟨c', f'⟩, hplace, h⟩ := bind_eq_ok.1 h
  obtain ⟨_, hcheck, h⟩ := bind_eq_ok.1 h
  obtain ⟨rfl, rfl⟩ := Prod.mk.inj (Except.ok.inj h)
  exact ⟨hplace, checkAccessor_ok hcheck⟩

/-- What fits can be read with every accessor for the type of the field. -/
theorem staticGet_ok {frame : Frame} {kind : AccessKind} {dest : Slot} {id : FieldId} {v : Value}
    (hfield : staticField p kind id = .ok (c, f)) (hv : s.static? c.id f.name = some v)
    (hfits : v.fits f.type = true) (hroom : frame.HasRoom kind.valueKind dest) :
    ∃ frame', staticGet p s frame kind dest id = .ok frame' := by
  obtain ⟨frame', hwrite⟩ := writeKind_ok (h := s.heap) hfits (staticField_ok hfield).2 hroom
  refine ⟨frame', bind_eq_ok.2 ⟨(c, f), hfield, ?_⟩⟩
  dsimp only
  rw [hv]
  exact hwrite

/-- Take a static field of a class in a program that is loaded from sources. Its first value fits its type
if and only if the field has a value that fits its type at every moment of every session of a fresh machine
at which its class has left the first status. If so, an instruction that reads the field with an accessor
for its type goes on with the next instruction, provided that the frame has the slots. -/
theorem statics_fit_iff {sources : List String} {p : Program} (h : loadProgram sources = .ok p)
    (maxDepth : Nat) {c : LoadedClass} {f : Field} (hf : p.HasField c f) (hstatic : f.isStatic = true) :
    let setup : Setup := { program := p, maxDepth }
    (f.firstFits = true ↔ ∀ journal ops, ∀ o ∈ history setup { journal } ops,
      o.state.classStatus c.id ≠ .uninitialized →
        ∃ v, o.state.static? c.id f.name = some v ∧ v.fits f.type = true) ∧
    (f.firstFits = true → ∀ journal ops s value? frame kind dest id waiting,
      let m : Snapshot := ⟨s, .finished value?, .access frame (.staticGet kind dest id) :: waiting⟩
      .unfinished m ∈ history setup { journal } ops → staticField p kind id = .ok (c, f) →
        frame.HasRoom kind.valueKind dest →
          ∃ frame', step setup m = .more ⟨s, .run frame', waiting⟩) := by
  intro setup
  obtain ⟨t, ht, rfl⟩ := loadProgram_tidy h
  have hp : Distinct setup.program := distinct_freeze ht
  -- a class that is set up has some value for the field
  have hfound (journal ops) : ∀ o ∈ history setup { journal } ops,
      o.state.classStatus c.id ≠ .uninitialized → ∃ v, o.state.static? c.id f.name = some v :=
    fun o ho hstatus => (recorded_of_settled (settled_history rfl hp.ids journal ops o ho)).static_found
      hf hstatic hstatus
  refine ⟨⟨fun hfirst journal ops o ho hstatus => ?_, fun hfits => ?_⟩, ?_⟩
  · obtain ⟨v, hv⟩ := hfound journal ops o ho hstatus
    exact ⟨v, hv, fieldFits_history rfl hp hf hfirst journal ops o ho v hv⟩
  · -- the first value shows in the first moment after the set-up
    have hc : findClass setup.program c.name = .ok c := by
      unfold findClass
      rw [show setup.program.find? c.name = some c from ht.find?_name hf.1]
    obtain ⟨hstatus, hvalue⟩ := initClass_first rfl hp hf hc {}
    have hmem : initClass setup 1 {} c.name ∈ history setup {} [(.initClass c.name, 1)] :=
      List.mem_append_left _ (List.mem_map.2 ⟨1, List.mem_range.2 (by omega), rfl⟩)
    obtain ⟨v, hv, hvfits⟩ := hfits {} _ _ hmem hstatus
    exact (hvalue v hv).symm.trans hvfits
  · intro hfirst journal ops s value? frame kind dest id waiting m hm hfield hroom
    obtain ⟨v, hv⟩ := (settled_history rfl hp.ids journal ops _ hm).static_found rfl
      (staticField_ok hfield).1
    have hfits := fieldFits_history rfl hp hf hfirst journal ops _ hm v hv
    obtain ⟨frame', hframe'⟩ := staticGet_ok hfield hv hfits hroom
    refine ⟨{ frame' with pc := frame'.pc + 1 }, ?_⟩
    show carryOn s (Flow.next <$> staticGet t.freeze s frame kind dest id) _ waiting = _
    rw [hframe']
    rfl

/-! ## A field that cannot be read -/

/-- A class with a truth value for a field of 64 bits, and a method that reads the field. -/
def misfitSource : String := "
.class LMisfit;
.field static on:J = true
.field static count:J = 1
.method static get()J
    .registers 2
    sget-wide v0, LMisfit;->on:J
    return-wide v0
.end method
"

namespace Misfit

/-- The field with a truth value for 64 bits. -/
def on : Field where
  flags := .ofWords ["static"]
  name := "on"
  type := .long
  initial? := some (.boolean true)

/-- The field with a number. -/
def count : Field where
  flags := .ofWords ["static"]
  name := "count"
  type := .long
  initial? := some (.integer 1)

/-- The instruction that reads the first field. -/
def readOn : Instruction :=
  .staticGet .wide (.register 0) ⟨"LMisfit;", "on", .long⟩

/-- The code of the method. -/
def getCode : Code :=
  { registerCount := 2, instructions := #[readOn, .returnValue .wide (.register 0)] }

/-- The method that reads the first field. -/
def get : Method where
  className := "LMisfit;"
  name := "get"
  flags := .ofWords ["static"]
  params := []
  returnType := .long
  body := .code getCode

/-- The class that is read from the source, behind those of the library. -/
def misfit : LoadedClass where
  flags := .ofWords []
  name := "LMisfit;"
  fields := ⟨[("on", on), ("count", count)]⟩
  methods := [get]
  id := 12
  superId? := none

/-- The class is set up. -/
def ready (s : State) : State :=
  (s.installStatics 12 ⟨[("on", .int 1), ("count", .long 1)]⟩).setClassStatus 12 .initialized

/-- The state that the failure leaves. -/
def left (fault : Fault) : State :=
  reportFailure (ready { calls := [get] }) get fault

end Misfit

open Misfit

set_option maxRecDepth 10000 in
/-- The class is read from the source. -/
theorem loadClass?_misfit : loadClass? [misfitSource] "LMisfit;" = some misfit := by
  rw [loadClass?, loadProgram_ofTexts (show [misfitSource] = List.map String.ofList [_] from rfl)]
  decide +kernel

/-- The method fails, though it reads the field with the accessor for its type. -/
theorem invoke_get (hp : p.find? "LMisfit;" = some misfit) :
    let fault := .typeMismatch (.wrongKind .wide "1")
    invoke { program := p } 4 {} get none [] = .failed (left fault) fault := by
  let s : State := { calls := [get] }
  let waiting : List Waiting := [.access (.enter get getCode none []) readOn]
  have hc : findClass p "LMisfit;" = .ok misfit := by
    unfold findClass
    rw [hp]
  -- the call is entered, the class is needed and set up, and the read fails
  have hcall : step { program := p } ⟨{}, .call get none [], []⟩ =
      .more ⟨s, .run (.enter get getCode none []), []⟩ := rfl
  have hneed : step { program := p } ⟨s, .run (.enter get getCode none []), []⟩ =
      .more ⟨s, .initClass "LMisfit;", waiting⟩ := rfl
  have hinit : step { program := p } ⟨s, .initClass "LMisfit;", waiting⟩ =
      .more ⟨ready s, .finished none, waiting⟩ := by
    show startInit { program := p } s "LMisfit;" waiting = _
    unfold startInit
    rw [hc]
    rfl
  have hfield : staticField p .wide ⟨"LMisfit;", "on", .long⟩ = .ok (misfit, on) := by
    unfold staticField lookupStaticField
    rw [hc]
    rfl
  have hread : step { program := p } ⟨ready s, .finished none, waiting⟩ =
      .fault (ready s) (.typeMismatch (.wrongKind .wide "1")) := by
    show carryOn (ready s) ((staticGet p (ready s) _ .wide (.register 0)
      ⟨"LMisfit;", "on", .long⟩).map .next) readOn [] = _
    unfold staticGet
    rw [hfield]
    rfl
  unfold invoke invokeMethod
  rw [run_more hcall, run_more hneed, run_more hinit, run, hread]
  rfl

/-- A static field may hold a value that does not fit its type, so that reading it with the accessor for
the type fails. -/
theorem misfit_read_fails : ∃ p c f m s fault, loadProgram [misfitSource] = .ok p ∧
    p.HasField c f ∧ f.isStatic = true ∧ AccessKind.wide.accepts f.type = true ∧ m ∈ c.methods ∧
    invoke { program := p } 4 {} m none [] = .failed s fault ∧
    s.classStatus c.id = .initialized ∧
    ∃ v, s.static? c.id f.name = some v ∧ v.fits f.type = false := by
  obtain ⟨p, hload, hp⟩ := loadClass?_eq_some loadClass?_misfit
  exact ⟨p, misfit, on, get, _, _, hload, ⟨Array.mem_of_find?_eq_some hp, by decide⟩, by decide,
    by decide, by decide, invoke_get hp, by decide, .int 1, by decide, by decide⟩

/-- Of the two fields the one never has a value that does not fit, the other has one in some session. -/
theorem misfit_statics : ∃ p, loadProgram [misfitSource] = .ok p ∧ p.HasField misfit on ∧
    p.HasField misfit count ∧ count.firstFits = true ∧ on.firstFits = false ∧
    (∀ journal ops, ∀ o ∈ history { program := p } { journal } ops,
      o.state.classStatus misfit.id ≠ .uninitialized →
        ∃ v, o.state.static? misfit.id "count" = some v ∧ v.fits .long = true) ∧
    ¬ ∀ journal ops, ∀ o ∈ history { program := p } { journal } ops,
      o.state.classStatus misfit.id ≠ .uninitialized →
        ∃ v, o.state.static? misfit.id "on" = some v ∧ v.fits .long = true := by
  obtain ⟨p, hload, hp⟩ := loadClass?_eq_some loadClass?_misfit
  have hmem : misfit ∈ p.classes := Array.mem_of_find?_eq_some hp
  have hon : p.HasField misfit on := ⟨hmem, by decide⟩
  have hcount : p.HasField misfit count := ⟨hmem, by decide⟩
  have hfits : count.firstFits = true := by decide
  have hmisfits : on.firstFits = false := by decide
  refine ⟨p, hload, hon, hcount, hfits, hmisfits,
    (statics_fit_iff hload 128 hcount (by decide)).1.1 hfits, fun hall => ?_⟩
  have hfirst := (statics_fit_iff hload 128 hon (by decide)).1.2 hall
  exact absurd (hfirst.symm.trans hmisfits) (by decide)

end Machine

end Smali
