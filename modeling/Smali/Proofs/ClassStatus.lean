import Smali.Proofs.ClassMoves

/-!
# The set-up of classes

A class is set up once: its status only moves forward, its static fields get their first values and its
initializer is called when it leaves the first status, and never again. From then on the class has a value
for each of its static fields, so that reading one finds it.

## Key results

- `SessionMove.rank_le`: the status of a class never goes back
- `ClassMove.settled`: what is known of the static fields is kept
- `class_setup`: what holds of the classes throughout a session
-/

namespace Smali.Machine

/-- The place in the order of the statuses. -/
def ClassStatus.rank : ClassStatus → Nat
  | .uninitialized => 0
  | .initializing => 1
  | .initialized => 2

/-- The first status is not reached again. -/
theorem ClassStatus.ne_uninitialized_of_rank_le {a b : ClassStatus} (h : a.rank ≤ b.rank)
    (ha : a ≠ .uninitialized) : b ≠ .uninitialized := by
  rintro rfl
  cases a with
  | uninitialized => exact ha rfl
  | initializing | initialized => exact absurd h (by decide)

variable {setup : Setup} {p : Program} {m m' : Snapshot} {o o' : Outcome}

/-! ## Statuses move forward -/

/-- The status of a class is read off the record of statuses. -/
theorem classStatus_of_status_eq {s s' : State} (h : s'.status = s.status) (id : Nat) :
    s'.classStatus id = s.classStatus id := by
  unfold State.classStatus
  rw [h]

/-- Changes other than the set-up of classes leave every status alone. -/
theorem Evolves.classStatus_eq {s s' : State} (h : Evolves p s s') (id : Nat) :
    s'.classStatus id = s.classStatus id :=
  classStatus_of_status_eq h.status_eq id

/-- The status of the class is the only one that its set-up changes. -/
theorem classStatus_setUp {s s' : State} (h : s'.status = s.status) (c : LoadedClass)
    (fields : Table String Value) (status : ClassStatus) (id : Nat) :
    ((s'.installStatics c.id fields).setClassStatus c.id status).classStatus id =
      if id = c.id then status else s.classStatus id := by
  rw [State.classStatus_setClassStatus, ← classStatus_of_status_eq h]
  rfl

/-- No step takes the status of a class back. -/
theorem ClassMove.rank_le (h : ClassMove p m m') (id : Nat) :
    (m.state.classStatus id).rank ≤ (m'.state.classStatus id).rank := by
  -- only the set-up of the class and the end of its initializer change its status
  cases h with
  | quiet _ h => rw [h.state.classStatus_eq]
  | ready => exact Nat.le_refl _
  | start className c htask hc hstatus s hs fields hfields method hinit =>
    dsimp only
    rw [classStatus_setUp hs.status_eq]
    split
    · next heq =>
      rw [heq, hstatus]
      exact Nat.zero_le _
    · exact Nat.le_refl _
  | complete className c htask hc hstatus s hs fields hfields =>
    dsimp only
    rw [classStatus_setUp hs.status_eq]
    split
    · next heq =>
      rw [heq, hstatus]
      exact Nat.zero_le _
    · exact Nat.le_refl _
  | finish id' value? rest htask hwaiting =>
    dsimp only
    rw [State.classStatus_setClassStatus]
    split
    -- the last status is the highest one
    · cases m.state.classStatus id <;> decide
    · exact Nat.le_refl _

/-- The status of a class never goes back. -/
theorem SessionMove.rank_le (h : SessionMove setup o o') (id : Nat) :
    (o.state.classStatus id).rank ≤ (o'.state.classStatus id).rank := by
  cases h with
  | start _ s task h hcall =>
    rw [state_of_ended h]
    exact Nat.le_refl _
  | step m m' hstep h => exact h.rank_le id
  | done => exact Nat.le_refl _
  | fault m s₁ s e h hs => exact Nat.le_of_eq (congrArg _ (hs.classStatus_eq id).symm)
  | idle _ _ s s' h h' hs =>
    rw [state_of_ended h, state_of_ended h', hs.classStatus_eq]

/-- Nor does any number of moves. -/
theorem rank_le_of_later (h : Relation.ReflTransGen (SessionMove setup) o o') (id : Nat) :
    (o.state.classStatus id).rank ≤ (o'.state.classStatus id).rank := by
  induction h with
  | refl => exact Nat.le_refl _
  | tail _ h ih => exact ih.trans (h.rank_le id)

/-! ## Set-up happens once -/

/-- The next step gives the class its static fields. -/
def Snapshot.Installs (p : Program) (m : Snapshot) (id : Nat) : Prop :=
  ∃ className c, m.task = .initClass className ∧ findClass p className = .ok c ∧ c.id = id ∧
    m.state.classStatus id = .uninitialized

/-- A class that is there can be set up. -/
theorem step_initClass_found {className : String} {c : LoadedClass}
    (htask : m.task = .initClass className) (hc : findClass setup.program className = .ok c) :
    ∃ m', step setup m = .more m' := by
  obtain ⟨s, task, waiting⟩ := m
  obtain rfl : task = .initClass className := htask
  show ∃ m', startInit setup s className waiting = .more m'
  unfold startInit
  rw [hc]
  dsimp only
  split
  · exact ⟨_, rfl⟩
  · split <;> exact ⟨_, rfl⟩

/-- The step that gives a class its static fields takes it out of the first status. -/
theorem ClassMove.installed (h : ClassMove p m m') {id : Nat} (hm : m.Installs p id) :
    m'.state.classStatus id ≠ .uninitialized := by
  obtain ⟨className, c, htask, hc, rfl, hfresh⟩ := hm
  -- the class of a move that sets a class up is the one of the task
  have hsame {className' : String} {c' : LoadedClass} (htask' : m.task = .initClass className')
      (hc' : findClass p className' = .ok c') : c' = c := by
    obtain rfl := Task.initClass.inj (htask.symm.trans htask')
    exact Except.ok.inj (hc'.symm.trans hc)
  cases h with
  -- a step that sets no class up has another task
  | quiet _ h =>
    have htask' := h.task
    rw [htask] at htask'
    cases htask'
  | ready className' c' htask' hc' hstatus => exact absurd hfresh (hsame htask' hc' ▸ hstatus)
  | start className' c' htask' hc' hstatus s hs fields hfields method hinit =>
    obtain rfl := hsame htask' hc'
    simp
  | complete className' c' htask' hc' hstatus s hs fields hfields =>
    obtain rfl := hsame htask' hc'
    simp
  | finish id value? rest htask' hwaiting => cases htask.symm.trans htask'

/-- So does the move of a session that makes the step. -/
theorem SessionMove.installed (h : SessionMove setup (.unfinished m) o') {id : Nat}
    (hm : m.Installs setup.program id) : o'.state.classStatus id ≠ .uninitialized := by
  cases h with
  | start _ s task h hcall => cases h
  | step _ m' hstep h => exact h.installed hm
  | done _ value? htask hwaiting =>
    obtain ⟨className, c, htask', _⟩ := hm
    cases htask.symm.trans htask'
  | fault _ s₁ s e h hs =>
    obtain ⟨className, c, htask, hc, _⟩ := hm
    -- the set-up of a class that is there does not fail at its start
    obtain ⟨m', hmore⟩ := step_initClass_found htask hc
    cases h.symm.trans hmore
  | idle _ _ s s' h h' hs => cases h

/-- The static fields of a class are installed once. -/
theorem installs_once (h : Relation.TransGen (SessionMove setup) (.unfinished m) (.unfinished m'))
    {id : Nat} (hm : m.Installs setup.program id) : ¬ m'.Installs setup.program id := by
  rintro ⟨_, _, _, _, _, hfresh⟩
  -- after the first of the two moments the class has left the first status for good
  obtain ⟨o, hfirst, hrest⟩ := Relation.TransGen.head'_iff.1 h
  exact ClassStatus.ne_uninitialized_of_rank_le (rank_le_of_later hrest id) (hfirst.installed hm)
    hfresh

/-- Where an initializer is called, its class has just left the first status. -/
theorem SessionMove.callsInitializer (h : SessionMove setup o (.unfinished m')) {id : Nat}
    (hm' : m'.CallsInitializer id) :
    o.state.classStatus id = .uninitialized ∧ m'.state.classStatus id ≠ .uninitialized := by
  cases h with
  | start _ s task h hcall => exact absurd hm' (hcall id)
  | step m _ hstep h =>
    cases h with
    | quiet _ h => exact absurd hm' (h.noCall id)
    -- only the start of a set-up leaves a call of an initializer to do
    | ready | complete | finish =>
      obtain ⟨method, rest, htask, _⟩ := hm'
      cases htask
    | start className c htask hc hstatus s hs fields hfields method hinit =>
      obtain ⟨_, rest, _, hwaiting⟩ := hm'
      obtain ⟨hhead, _⟩ := List.cons.inj hwaiting
      obtain rfl := Waiting.initializer.inj hhead
      exact ⟨hstatus, by simp⟩
  | idle _ _ s s' h h' hs => cases h'

/-- The set-up of a class calls its initializer once. -/
theorem callsInitializer_once {first : Outcome}
    (hbefore : Relation.TransGen (SessionMove setup) first (.unfinished m))
    (h : Relation.TransGen (SessionMove setup) (.unfinished m) (.unfinished m')) {id : Nat}
    (hm : m.CallsInitializer id) : ¬ m'.CallsInitializer id := by
  intro hm'
  -- the first call leaves the first status behind, which the moment before the second would need
  obtain ⟨_, _, hlast⟩ := Relation.TransGen.tail'_iff.1 hbefore
  obtain ⟨o, hrest, hcall⟩ := Relation.TransGen.tail'_iff.1 h
  exact ClassStatus.ne_uninitialized_of_rank_le (rank_le_of_later hrest id)
    (hlast.callsInitializer hm).2 (hcall.callsInitializer hm').1

/-! ## Static fields -/

/-- No two classes of a program have one number. -/
def DistinctIds (p : Program) : Prop :=
  ∀ c ∈ p.classes, ∀ c' ∈ p.classes, c.id = c'.id → c = c'

/-- The classes of a frozen table are numbered in order. -/
theorem distinctIds_freeze (t : ClassTable) : DistinctIds t.freeze := by
  unfold DistinctIds ClassTable.freeze
  simp only [List.mem_toArray, List.mem_mapIdx]
  rintro c ⟨i, hi, rfl⟩ c' ⟨j, hj, rfl⟩ hid
  obtain rfl : i = j := hid
  rfl

/-- Every class that has left the first status has a value for each of its static fields. -/
def State.Recorded (p : Program) (s : State) : Prop :=
  ∀ c ∈ p.classes, s.classStatus c.id ≠ .uninitialized →
    ∃ fields, s.statics.get? c.id = some fields ∧ StaticsOf c fields

variable {s s' : State}

/-- Only statuses and static fields matter. -/
theorem State.Recorded.congr (hs : s.Recorded p) (hstatus : s'.status = s.status)
    (hstatics : s'.statics = s.statics) : s'.Recorded p := by
  intro c hc hne
  rw [classStatus_of_status_eq hstatus] at hne
  rw [hstatics]
  exact hs c hc hne

/-- A write to one of the fields brings in no new name. -/
theorem StaticsOf.insert {c : LoadedClass} {fields : Table String Value} (h : StaticsOf c fields)
    {f : Field} (hf : f ∈ c.fields.values) (hstatic : f.isStatic = true) (v : Value) :
    StaticsOf c (fields.insert f.name v) := by
  have hname : f.name ∈ c.staticFields.map (·.name) :=
    List.mem_map_of_mem (List.mem_filter.2 ⟨hf, hstatic⟩)
  refine ⟨Table.nodup_keys_insert h.nodup f.name v, fun name => ?_⟩
  rw [Table.mem_keys_insert, h.mem_keys]
  -- the new name is an old one
  constructor
  · rintro (hold | rfl)
    · exact hold
    · exact hname
  · exact .inl

/-- A write to a static field keeps the record complete. -/
theorem recorded_setStatic (hids : DistinctIds p) (hs : s.Recorded p) {c : LoadedClass} {f : Field}
    {v : Value} (hf : (DeclaredStatic p).static c f v) : (s.setStatic c.id f.name v).Recorded p := by
  intro c' hc' hne
  obtain ⟨fields, hfields, hof⟩ := hs c' hc' hne
  unfold State.setStatic
  dsimp only
  rw [Table.get?_insert]
  -- the write is to a field of this class or of another one
  split
  · next hid =>
    obtain rfl := hids c' hc' c hf.1.1 hid
    rw [hfields]
    exact ⟨_, rfl, hof.insert hf.1.2 hf.2.1 v⟩
  · exact ⟨fields, hfields, hof⟩

/-- Changes other than the set-up of classes keep the record complete. -/
theorem Evolves.recorded (hids : DistinctIds p) (h : Evolves p s s') (hs : s.Recorded p) :
    s'.Recorded p := by
  -- the induction is on the changes; only a write to a static field touches the record
  induction h with
  | refl => exact hs
  | tail _ h ih =>
    cases h with
    | calls | lastReturn => exact ih.congr rfl rfl
    | change _ h =>
      cases h with
      | setStatic c f v hf => exact recorded_setStatic hids ih hf
      | intern text => exact ih.congr (intern_fields _ text).2.1 (intern_fields _ text).2.2
      | lock _ v h => exact ih.congr (lock_fields h).2.1 (lock_fields h).2.2.1
      | unlock _ v h => exact ih.congr (unlock_fields h).2.1 (unlock_fields h).2.2.1
      | log | newInstance | newHost | newArray | setField | setContents | setElement => exact ih.congr rfl rfl

/-- A class that is set up gets a value for each of its static fields. -/
theorem recorded_setUp (hids : DistinctIds p) (hs : s.Recorded p) {c : LoadedClass}
    (hc : c ∈ p.classes) {fields : Table String Value} (hfields : StaticsOf c fields)
    (status : ClassStatus) :
    ((s.installStatics c.id fields).setClassStatus c.id status).Recorded p := by
  intro c' hc' hne
  rw [classStatus_setUp rfl] at hne
  show ∃ fields', (s.statics.insert c.id fields).get? c'.id = some fields' ∧ StaticsOf c' fields'
  rw [Table.get?_insert]
  -- the class is the one that is set up, or it has been recorded before
  split
  · next hid =>
    obtain rfl := hids c' hc' c hc hid
    exact ⟨fields, rfl, hfields⟩
  · next hid =>
    rw [if_neg hid] at hne
    exact hs c' hc' hne

/-- What is known of the classes at a moment of a run. An initializer runs for a class that has left the
first status only, and so has the class that a field access waits for, once it is its turn. -/
structure Settled (p : Program) (m : Snapshot) : Prop where
  recorded : m.state.Recorded p
  initializing : ∀ id ∈ m.initializing, m.state.classStatus id ≠ .uninitialized
  ready : ∀ w ∈ m.waiting, ∀ name c, w.className? = some name → findClass p name = .ok c →
    m.state.classStatus c.id ≠ .uninitialized ∨ m.task = .initClass name

/-- A set-up of a class leaves that class out of the first status. -/
theorem Settled.ready_next (hm : Settled p m) (hmono : ∀ id,
      m.state.classStatus id ≠ .uninitialized → m'.state.classStatus id ≠ .uninitialized)
    {className : String} {c : LoadedClass} (htask : m.task = .initClass className)
    (hc : findClass p className = .ok c) (hc' : m'.state.classStatus c.id ≠ .uninitialized) :
    ∀ w ∈ m.waiting, ∀ name c, w.className? = some name → findClass p name = .ok c →
      m'.state.classStatus c.id ≠ .uninitialized ∨ m'.task = .initClass name := by
  intro w hw name c₁ hname hc₁
  -- the class that the work waits for was ready before, or it is the one of the task
  cases hm.ready w hw name c₁ hname hc₁ with
  | inl hne => exact .inl (hmono c₁.id hne)
  | inr htask' =>
    obtain rfl := Task.initClass.inj (htask.symm.trans htask')
    obtain rfl := Except.ok.inj (hc.symm.trans hc₁)
    exact .inl hc'

/-- What is known of the classes is kept. -/
theorem ClassMove.settled (hids : DistinctIds p) (h : ClassMove p m m') (hm : Settled p m) :
    Settled p m' := by
  have hmono (id : Nat) (hne : m.state.classStatus id ≠ .uninitialized) :
      m'.state.classStatus id ≠ .uninitialized :=
    ClassStatus.ne_uninitialized_of_rank_le (h.rank_le id) hne
  cases h with
  | quiet _ h =>
    refine ⟨h.state.recorded hids hm.recorded, fun id hid => ?_, fun w hw name c hname hc => ?_⟩
    · rw [h.initializing] at hid
      exact hmono id (hm.initializing id hid)
    · cases h.waiting w hw with
      | inr hfresh => exact .inr (hfresh.className name hname)
      | inl hold =>
        -- a quiet step has no class to set up
        cases hm.ready w hold name c hname hc with
        | inl hne => exact .inl (hmono c.id hne)
        | inr htask =>
          have hquiet := h.task
          rw [htask] at hquiet
          cases hquiet
  | ready className c htask hc hstatus =>
    exact ⟨hm.recorded, hm.initializing, hm.ready_next hmono htask hc hstatus⟩
  | start className c htask hc hstatus s hs fields hfields method hinit =>
    have hset : ((s.installStatics c.id fields).setClassStatus c.id .initializing).classStatus c.id ≠
        .uninitialized := by simp
    refine ⟨?_, ?_, List.forall_mem_cons.2 ⟨nofun, hm.ready_next hmono htask hc hset⟩⟩
    · exact recorded_setUp hids ((Evolves.of_quiet hs).recorded hids hm.recorded)
        (mem_of_findClass hc) hfields .initializing
    · exact List.forall_mem_cons.2 ⟨hset, fun id hid => hmono id (hm.initializing id hid)⟩
  | complete className c htask hc hstatus s hs fields hfields =>
    have hset : ((s.installStatics c.id fields).setClassStatus c.id .initialized).classStatus c.id ≠
        .uninitialized := by simp
    refine ⟨?_, fun id hid => hmono id (hm.initializing id hid), hm.ready_next hmono htask hc hset⟩
    exact recorded_setUp hids ((Evolves.of_quiet hs).recorded hids hm.recorded)
      (mem_of_findClass hc) hfields .initialized
  | finish id value? rest htask hwaiting =>
    obtain ⟨hrecorded, hinitializing, hready⟩ := hm
    -- the initializer on top is over, those below go on
    unfold Snapshot.initializing at hinitializing
    rw [hwaiting] at hinitializing hready
    obtain ⟨hid, hrest⟩ := List.forall_mem_cons.1 hinitializing
    refine ⟨fun c hc hne => ?_, fun id' hid' => hmono id' (hrest id' hid'), ?_⟩
    · -- the class had left the first status before
      refine hrecorded c hc fun hfresh => ?_
      rw [State.classStatus_setClassStatus] at hne
      split at hne
      · next heq => exact hid (heq ▸ hfresh)
      · exact hne hfresh
    · intro w hw name c hname hc
      cases hready w (List.mem_cons_of_mem _ hw) name c hname hc with
      | inl hne => exact .inl (hmono c.id hne)
      | inr htask' => cases htask.symm.trans htask'

/-! ## Sessions -/

/-- What is known of the classes at a moment of a session. -/
abbrev Outcome.Settled (p : Program) : Outcome → Prop :=
  Outcome.All (Machine.Settled p) (fun s _ => s.Recorded p) (fun s _ => s.Recorded p)

/-- The record is complete at every moment. -/
theorem recorded_of_settled (ho : o.Settled p) : o.state.Recorded p := by
  cases o with
  | returned s value? | failed s e => exact ho
  | unfinished m => exact ho.recorded

/-- After a call nothing but the record is left to know. -/
theorem settled_of_ended (h : o.ended? = some s) (hs : s.Recorded p) : o.Settled p := by
  cases o with
  | returned s' value? | failed s' e => exact Option.some.inj h ▸ hs
  | unfinished m => cases h

/-- A move of a session keeps what is known of the classes. -/
theorem SessionMove.settled (hids : DistinctIds setup.program) (h : SessionMove setup o o')
    (ho : o.Settled setup.program) : o'.Settled setup.program := by
  have hrecorded := recorded_of_settled ho
  -- a call starts with nothing waiting
  cases h with
  | start _ s task h hcall =>
    rw [state_of_ended h] at hrecorded
    exact ⟨hrecorded, List.forall_mem_nil _, List.forall_mem_nil _⟩
  | step m m' hstep h => exact h.settled hids ho
  | done => exact hrecorded
  | fault m s₁ s e h hs => exact hs.recorded hids hrecorded
  | idle _ _ s s' h h' hs =>
    rw [state_of_ended h] at hrecorded
    exact settled_of_ended h' (hs.recorded hids hrecorded)

/-- A fresh machine has set up no class. -/
theorem recorded_fresh (p : Program) (journal : Journal) : State.Recorded p { journal } :=
  fun _ _ hne => absurd rfl hne

/-- What is known of the classes holds throughout a session. -/
theorem settled_history (hn : setup.natives = .standard) (hids : DistinctIds setup.program)
    (journal : Journal) (ops : List (Operation × Nat)) :
    ∀ o ∈ history setup { journal } ops, o.Settled setup.program := by
  have hchain : List.IsChain (SessionMove setup)
      (.returned { journal } none :: history setup { journal } ops) :=
    isChain_sessionMove setup hn (known_empty setup.program) ops
  exact hchain.cons_induction _ _ (fun _ _ h => h.settled hids)
    (recorded_fresh setup.program journal)

/-- A class that has left the first status has a value for the field. -/
theorem State.Recorded.static_found (h : s.Recorded p) {c : LoadedClass} {f : Field}
    (hf : p.HasField c f) (hstatic : f.isStatic = true)
    (hstatus : s.classStatus c.id ≠ .uninitialized) :
    ∃ v, s.static? c.id f.name = some v := by
  obtain ⟨fields, hfields, hof⟩ := h c hf.1 hstatus
  have hname : f.name ∈ fields.keys :=
    (hof.mem_keys f.name).2 (List.mem_map_of_mem (List.mem_filter.2 ⟨hf.2, hstatic⟩))
  obtain ⟨v, hv⟩ := Table.mem_keys_iff.1 hname
  refine ⟨v, ?_⟩
  show (s.statics.get? c.id).bind (·.get? f.name) = some v
  rw [hfields]
  exact hv

/-- Reading a static field of a class that an access has waited for finds a value. -/
theorem Settled.static_found {s : State} {value? : Option Value} {f : Frame} {i : Instruction}
    {waiting : List Waiting} (hm : Settled p ⟨s, .finished value?, .access f i :: waiting⟩)
    {id : FieldId} (hi : i.fieldClass? = some id.className) {c : LoadedClass} {field : Field}
    (hlookup : lookupStaticField p id = .ok (c, field)) :
    ∃ v, s.static? c.id field.name = some v := by
  have hc := (lookupStaticField_ok hlookup).1
  obtain ⟨hfield, hstatic⟩ := hasField_of_lookupStaticField hlookup
  have hne : s.classStatus c.id ≠ .uninitialized :=
    (hm.ready _ List.mem_cons_self id.className c hi hc).resolve_right nofun
  exact hm.recorded.static_found hfield hstatic hne

/-- Setting up a class that has left the first status is over in one step. -/
theorem step_ready {s : State} {className : String} {c : LoadedClass} {waiting : List Waiting}
    (hc : findClass setup.program className = .ok c)
    (hstatus : s.classStatus c.id ≠ .uninitialized) :
    step setup ⟨s, .initClass className, waiting⟩ = .more ⟨s, .finished none, waiting⟩ := by
  show startInit setup s className waiting = _
  unfold startInit
  rw [hc]
  exact if_pos hstatus

/-- And it changes nothing. -/
theorem initClass_ready {s : State} {className : String} {c : LoadedClass}
    (hc : findClass setup.program className = .ok c)
    (hstatus : s.classStatus c.id ≠ .uninitialized) (steps : Nat) :
    initClass setup (steps + 2) s className = .returned s none := by
  unfold initClass run
  rw [step_ready hc hstatus]
  rfl

/-- Throughout a session of a fresh machine: the status of a class never goes back; setting up a class that
has left the first status does nothing; the static fields of a class are installed and its initializer is
called by the set-up at most once; a class that has left the first status has one value for each of its
static fields and no other; and so a static field that an instruction has looked up is found. -/
theorem class_setup (t : ClassTable) (maxDepth : Nat) (journal : Journal)
    (ops : List (Operation × Nat)) :
    let p := t.freeze
    let setup : Setup := { program := p, maxDepth }
    let moments := history setup { journal } ops
    (moments.Pairwise fun o o' => ∀ id,
      (o.state.classStatus id).rank ≤ (o'.state.classStatus id).rank) ∧
    (∀ s className c waiting steps, findClass p className = .ok c →
      s.classStatus c.id ≠ .uninitialized →
        step setup ⟨s, .initClass className, waiting⟩ = .more ⟨s, .finished none, waiting⟩ ∧
        initClass setup (steps + 2) s className = .returned s none) ∧
    (moments.Pairwise fun o o' => ∀ m m' id, o = .unfinished m → o' = .unfinished m' →
      ¬ (m.Installs p id ∧ m'.Installs p id) ∧
      ¬ (m.CallsInitializer id ∧ m'.CallsInitializer id)) ∧
    ∀ o ∈ moments,
      (∀ c ∈ p.classes, o.state.classStatus c.id ≠ .uninitialized →
        ∃ fields, o.state.statics.get? c.id = some fields ∧ fields.keys.Nodup ∧
          ∀ name, name ∈ fields.keys ↔ name ∈ c.staticFields.map (·.name)) ∧
      ∀ s value? f kind dest id waiting c field,
        o = .unfinished ⟨s, .finished value?, .access f (.staticGet kind dest id) :: waiting⟩ →
        lookupStaticField p id = .ok (c, field) → ∃ v, s.static? c.id field.name = some v := by
  intro p setup moments
  have hids : DistinctIds p := distinctIds_freeze t
  have hchain : List.IsChain (SessionMove setup) (.returned { journal } none :: moments) :=
    isChain_sessionMove _ rfl (known_empty p) ops
  -- of any two moments the later one is reached from the earlier one by at least one move
  have hlater : (Outcome.returned { journal } none :: moments).Pairwise
      (Relation.TransGen (SessionMove setup)) :=
    List.isChain_iff_pairwise.1 (hchain.imp fun _ _ => .single)
  have hsettled : ∀ o ∈ moments, o.Settled p := settled_history rfl hids journal ops
  refine ⟨?_, ?_, ?_, fun o ho => ⟨fun c hc hne => ?_, ?_⟩⟩
  · exact hlater.of_cons.imp fun h id => rank_le_of_later h.to_reflTransGen id
  · intro s className c waiting steps hc hstatus
    exact ⟨step_ready hc hstatus, initClass_ready hc hstatus steps⟩
  · refine hlater.of_cons.imp_of_mem fun {o o'} ho _ h m m' id hm hm' => ?_
    subst hm hm'
    exact ⟨fun hboth => installs_once h hboth.1 hboth.2,
      fun hboth => callsInitializer_once (List.rel_of_pairwise_cons hlater ho) h hboth.1 hboth.2⟩
  · obtain ⟨fields, hfields, hof⟩ := recorded_of_settled (hsettled o ho) c hc hne
    exact ⟨fields, hfields, hof.nodup, hof.mem_keys⟩
  · rintro s value? f kind dest id waiting c field rfl hlookup
    exact (hsettled _ ho).static_found rfl hlookup

end Smali.Machine
