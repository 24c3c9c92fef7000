import Smali.Proofs.Handles
import Smali.Proofs.Moves
import Smali.Proofs.Session

/-!
# What a step does to the classes

Most steps leave the classes alone: they keep the status of every class and write no static field but one
that the program declares (`Quiet`). The others set a class up: they find it set up already, begin or
complete its set-up, or end its initializer. `ClassMove` lists these kinds with what each does to the
state and to the waiting work.

## Key results

- `move_class`: every step of a run that keeps to the program is of one of the kinds
- `known_invariant`: runs keep to the program
-/

namespace Smali.Machine

/-! ## States that differ by declared writes -/

/-- Static fields are written only if the program declares them, and with values that fit. -/
def DeclaredStatic (p : Program) : Allowance where
  static c f v := p.HasField c f ∧ f.isStatic = true ∧ v.fits f.type = true
  array _ _ := True
  contents _ := True

/-- A change that writes declared static fields only, or a call entered or left, or its value kept. -/
inductive Evolution (p : Program) : State → State → Prop
  | change (s s' : State) (h : Change p (DeclaredStatic p) s s') : Evolution p s s'
  | calls (s : State) (calls : CallStack) : Evolution p s { s with calls }
  | lastReturn (s : State) (value? : Option Value) : Evolution p s { s with lastReturn? := value? }

/-- Any number of them. -/
abbrev Evolves (p : Program) : State → State → Prop :=
  Relation.ReflTransGen (Evolution p)

variable {p : Program} {s s' : State}

/-- Changes that write declared static fields only. -/
theorem Evolves.of_changes {W : Allowance} (h : Changes p W s s')
    (hW : ∀ c f v, W.static c f v → p.HasField c f ∧ f.isStatic = true ∧ v.fits f.type = true) :
    Evolves p s s' := by
  have hdeclared : Changes p (DeclaredStatic p) s s' :=
    h.mono ⟨hW, fun _ _ _ => trivial, fun _ _ => trivial⟩
  exact hdeclared.lift id fun s s' hchange => .change s s' hchange

/-- Changes that write no static field. -/
theorem Evolves.of_quiet {array : Descriptor → Array Value → Prop} {contents : Nat → Prop}
    (h : Changes p { array, contents } s s') : Evolves p s s' :=
  .of_changes h fun _ _ _ h => h.elim

/-- A call is entered before other changes. -/
theorem Evolves.of_entered {calls : CallStack} {contents : Nat → Prop}
    (h : Changes p { contents } { s with calls } s') : Evolves p s s' :=
  .head (.calls s calls) (Evolves.of_quiet h)

/-- The status of every class stays. -/
theorem Evolves.status_eq (h : Evolves p s s') : s'.status = s.status := by
  -- the induction is on the changes
  induction h with
  | refl => rfl
  | tail _ h ih =>
    cases h with
    | change _ h => exact h.calls_status.2.trans ih
    | calls | lastReturn => exact ih

/-- Handles stand for what the program has. -/
theorem Evolves.known (h : Evolves p s s') (hs : s.heap.Known p) : s'.heap.Known p := by
  induction h with
  | refl => exact hs
  | tail _ h ih =>
    cases h with
    | change _ h => exact h.known ih
    | calls | lastReturn => exact ih

/-! ## Waiting work and classes -/

/-- The class that a task sets up. -/
def Task.className? : Task → Option String
  | .initClass className => some className
  | _ => none

namespace Waiting

/-- The class whose initializer runs. -/
def initializer? : Waiting → Option Nat
  | .initializer id => some id
  | _ => none

/-- The field that a host method is about to touch. -/
def field? : Waiting → Option (LoadedClass × Field)
  | .readField _ owner field _ | .writeField _ owner field _ _ => some (owner, field)
  | _ => none

/-- The value that a host method is about to write into a field. -/
def write? : Waiting → Option (Field × Value)
  | .writeField _ _ field _ v => some (field, v)
  | _ => none

/-- The class that an instruction needs for a field. -/
def className? : Waiting → Option String
  | .access _ i => i.fieldClass?
  | _ => none

/-- Work that has just started to wait: its field is in the program, what it is going to write fits, and
its class is set up next. -/
structure Fresh (p : Program) (task : Task) (w : Waiting) : Prop where
  field : ∀ c f, w.field? = some (c, f) → p.HasField c f
  write : ∀ f v, w.write? = some (f, v) → v.fits f.type = true
  className : ∀ name, w.className? = some name → task = .initClass name

end Waiting

namespace Snapshot

/-- The classes whose initializers run, innermost first. -/
def initializing (m : Snapshot) : List Nat :=
  m.waiting.filterMap Waiting.initializer?

/-- The set-up of a class calls its initializer next. -/
def CallsInitializer (m : Snapshot) (id : Nat) : Prop :=
  ∃ method rest, m.task = .call method none [] ∧ m.waiting = .initializer id :: rest

/-- Handles on the heap and fields about to be touched are in the program, and what is about to be
written fits. -/
structure Known (p : Program) (m : Snapshot) : Prop where
  heap : m.state.heap.Known p
  fields : ∀ w ∈ m.waiting, ∀ c f, w.field? = some (c, f) → p.HasField c f
  writes : ∀ w ∈ m.waiting, ∀ f v, w.write? = some (f, v) → v.fits f.type = true

end Snapshot

/-! ## The kinds of steps -/

/-- A step that leaves the classes alone. -/
structure Quiet (p : Program) (m m' : Snapshot) : Prop where
  task : m.task.className? = none
  state : Evolves p m.state m'.state
  waiting : ∀ w ∈ m'.waiting, w ∈ m.waiting ∨ w.Fresh p m'.task
  initializing : m'.initializing = m.initializing
  noCall : ∀ id, ¬ m'.CallsInitializer id

/-- What a step may do to the classes. -/
inductive ClassMove (p : Program) (m : Snapshot) : Snapshot → Prop
  | quiet (m' : Snapshot) (h : Quiet p m m') : ClassMove p m m'
  /-- The class counts as set up. -/
  | ready (className : String) (c : LoadedClass) (htask : m.task = .initClass className)
    (hc : findClass p className = .ok c) (hstatus : m.state.classStatus c.id ≠ .uninitialized) :
    ClassMove p m ⟨m.state, .finished none, m.waiting⟩
  /-- The class gets its static fields, and its initializer is called next. -/
  | start (className : String) (c : LoadedClass) (htask : m.task = .initClass className)
    (hc : findClass p className = .ok c) (hstatus : m.state.classStatus c.id = .uninitialized)
    (s : State) (hs : Changes p noWrite m.state s) (fields : Table String Value)
    (hfields : StaticsOf c fields) (method : Method) (hm : c.initMethod? = some method)
    (hfirst : FirstValues c fields) :
    ClassMove p m ⟨(s.installStatics c.id fields).setClassStatus c.id .initializing,
      .call method none [], .initializer c.id :: m.waiting⟩
  /-- The class gets its static fields and is set up. -/
  | complete (className : String) (c : LoadedClass) (htask : m.task = .initClass className)
    (hc : findClass p className = .ok c) (hstatus : m.state.classStatus c.id = .uninitialized)
    (s : State) (hs : Changes p noWrite m.state s) (fields : Table String Value)
    (hfields : StaticsOf c fields) (hfirst : FirstValues c fields) :
    ClassMove p m ⟨(s.installStatics c.id fields).setClassStatus c.id .initialized,
      .finished none, m.waiting⟩
  /-- The initializer of the class has returned. -/
  | finish (id : Nat) (value? : Option Value) (rest : List Waiting)
    (htask : m.task = .finished value?) (hwaiting : m.waiting = .initializer id :: rest) :
    ClassMove p m ⟨m.state.setClassStatus id .initialized, .finished none, rest⟩

/-- A step is of one of the kinds; a run ends with nothing waiting, and a fault leaves the classes
alone. -/
abbrev Progress.ClassMove (p : Program) (m : Snapshot) : Progress → Prop :=
  Progress.All (Machine.ClassMove p m)
    (fun s value? => s = m.state ∧ m.task = .finished value? ∧ m.waiting = [])
    (fun s _ => Evolves p m.state s)

variable {setup : Setup} {m : Snapshot} {waiting : List Waiting}

/-- What follows a step from a snapshot: its work, or the rest of it, still waits. -/
structure Keeps (m : Snapshot) (waiting : List Waiting) : Prop where
  subset : ∀ w ∈ waiting, w ∈ m.waiting
  initializing : waiting.filterMap Waiting.initializer? = m.initializing

/-- All the work still waits. -/
theorem Keeps.all (m : Snapshot) : Keeps m m.waiting :=
  ⟨fun _ => id, rfl⟩

/-- A piece of work that is no initializer is done. -/
theorem Keeps.rest {work : Waiting} {state : State} {task : Task}
    (hwork : work.initializer? = none) : Keeps ⟨state, task, work :: waiting⟩ waiting := by
  refine ⟨fun w => List.mem_cons_of_mem work, ?_⟩
  unfold Snapshot.initializing
  rw [List.filterMap_cons_none hwork]

/-- A quiet step that makes nothing wait. -/
theorem Keeps.quiet (h : Keeps m waiting) (htask : m.task.className? = none)
    {s : State} (hs : Evolves p m.state s) {task : Task}
    (hcall : ∀ method, task ≠ .call method none []) : Quiet p m ⟨s, task, waiting⟩ where
  task := htask
  state := hs
  waiting w hw := .inl (h.subset w hw)
  initializing := h.initializing
  noCall := fun _ ⟨method, _, hcalled, _⟩ => hcall method hcalled

/-- A quiet step that makes a piece of work wait. -/
theorem Keeps.quiet_cons (h : Keeps m waiting)
    (htask : m.task.className? = none) {s : State} (hs : Evolves p m.state s)
    {task : Task} {work : Waiting} (hwork : work.initializer? = none) (hfresh : work.Fresh p task) :
    Quiet p m ⟨s, task, work :: waiting⟩ where
  task := htask
  state := hs
  waiting w hw := by
    cases List.mem_cons.1 hw with
    | inl heq => exact .inr (heq ▸ hfresh)
    | inr hmem => exact .inl (h.subset w hmem)
  initializing := (List.filterMap_cons_none hwork).trans h.initializing
  noCall := by
    rintro id ⟨method, rest, _, hcons⟩
    obtain ⟨rfl, _⟩ := List.cons.inj hcons
    cases hwork

/-! ### Calls and instructions -/

/-- A call is left. -/
theorem leaveCall_class (h : Keeps m waiting) (htask : m.task.className? = none)
    {s : State} (hs : Evolves p m.state s) (value? : Option Value) :
    (leaveCall s value? waiting).ClassMove p m :=
  .quiet _ (h.quiet htask (hs.tail (.calls s _)) fun _ => nofun)

/-- What a host method is going to write fits. -/
theorem Reply.From.write_fits {heap : Heap} {owner : LoadedClass} {field f : Field}
    {args : List Value} {v w : Value} (h : Reply.From heap (.writeField owner field args v))
    {method : Method} (hw : (Waiting.writeField method owner field args v).write? = some (f, w)) :
    w.fits f.type = true := by
  obtain ⟨rfl, rfl⟩ := Prod.mk.inj (Option.some.inj hw)
  cases h with
  | writeField _ _ _ _ d hd hf hv => exact hv

/-- What follows a host method. -/
theorem follow_class (h : Keeps m waiting) (htask : m.task.className? = none)
    {s : State} (hs : Evolves p m.state s) {heap : Heap} (hheap : heap.Known p) {reply : Reply}
    (hreply : Reply.From heap reply) (method : Method) :
    (follow s method reply waiting).ClassMove p m := by
  cases reply with
  | finish value? => exact leaveCall_class h htask hs value?
  | fail e => exact hs
  | call m' receiver? args => exact .quiet _ (h.quiet_cons htask hs rfl ⟨nofun, nofun, nofun⟩)
  -- the host method waits for the class of a field that a handle stands for
  | readField owner field args =>
    refine .quiet _ (h.quiet_cons htask hs rfl ⟨fun c f hf => ?_, nofun, nofun⟩)
    exact hreply.field_known hf hheap
  | writeField owner field args v =>
    refine .quiet _ (h.quiet_cons htask hs rfl ⟨fun c f hf => ?_, fun f w hw => ?_, nofun⟩)
    · exact hreply.field_known hf hheap
    · exact hreply.write_fits hw

/-- What follows an instruction. -/
theorem carryOn_class (h : Keeps m waiting) (htask : m.task.className? = none)
    {s : State} (hs : Evolves p m.state s) {f : Frame} {i : Instruction}
    {flow : Except Fault Flow} (hflow : ∀ x, flow = .ok x → Continues p f i x) :
    (carryOn s flow i waiting).ClassMove p m := by
  cases flow with
  | error e => exact hs
  | ok x =>
    cases hflow x rfl with
    | next f' hm hc hpc => exact .quiet _ (h.quiet htask hs fun _ => nofun)
    | jump label pc hn hl => exact .quiet _ (h.quiet htask hs fun _ => nofun)
    | leave value? => exact leaveCall_class h htask hs value?
    | call m' receiver? args hm => exact .quiet _ (h.quiet_cons htask hs rfl ⟨nofun, nofun, nofun⟩)
    -- the instruction waits for the class of its field
    | needClass className hi =>
      refine .quiet _ (h.quiet_cons htask hs rfl ⟨nofun, nofun, fun name hname => ?_⟩)
      rw [Option.some.inj (hi.symm.trans hname)]
    | endless hp => exact .quiet _ (h.quiet htask hs fun _ => nofun)

/-- A call is entered. -/
theorem entered_class (h : Keeps m waiting) (htask : m.task.className? = none)
    (hheap : m.state.heap.Known setup.program) {method : Method} {receiver? : Option Value}
    {args : List Value} {q : Progress}
    (hq : Entered setup m.state method receiver? args waiting q) : q.ClassMove setup.program m := by
  cases hq with
  | overflow _ => exact .refl
  | code code s' hroom hcode hs => exact .quiet _ (h.quiet htask (.of_entered hs) fun _ => nofun)
  | host reply s' hroom hs hreply =>
    exact follow_class h htask (.of_entered hs) hheap hreply method

/-- Every step of a run that keeps to the program is of one of the kinds. -/
theorem move_class {q : Progress} (h : Move setup m q) (hm : m.Known setup.program) :
    q.ClassMove setup.program m := by
  -- one case for each kind of move
  cases h with
  | refuse s method receiver? args waiting e he | unknown s className waiting e he
  | unended s f waiting e he => exact .refl
  | prepare s method ref args waiting className =>
    exact .quiet _ ((Keeps.all _).quiet_cons rfl .refl rfl ⟨nofun, nofun, nofun⟩)
  | call s method receiver? receiver?' args waiting q h =>
    exact entered_class (Keeps.all _) rfl hm.heap h
  | enter s value? method receiver? args waiting q h =>
    exact entered_class (Keeps.rest rfl) rfl hm.heap h
  | ready s className waiting c hc hstatus => exact .ready className c rfl hc hstatus
  | beginInit s s' className waiting c method fields hc hstatus hs hfields hinit hfirst =>
    exact .start className c rfl hc hstatus s' hs fields hfields method hinit hfirst
  | completeInit s s' className waiting c fields hc hstatus hs hfields hinit hfirst =>
    exact .complete className c rfl hc hstatus s' hs fields hfields hfirst
  | ended s f waiting => exact leaveCall_class (Keeps.all _) rfl .refl none
  | exec s f waiting i s' flow hi hs hflow hplain =>
    exact carryOn_class (Keeps.all _) rfl (.of_quiet hs) hflow
  | access s value? f i waiting s' flow hs hflow hplain =>
    refine carryOn_class (Keeps.rest rfl) rfl (.of_changes hs ?_) fun x hx => (hflow x hx).continues i
    -- the field that is written is the one that the instruction has looked up
    rintro c field v ⟨kind, src, id, _, hlookup, hfits⟩
    have hfield := hasField_of_lookupStaticField hlookup
    exact ⟨hfield.1, hfield.2, hfits⟩
  | caller s value? f waiting =>
    exact .quiet _ ((Keeps.rest rfl).quiet rfl
      (.single (.lastReturn s value?)) fun _ => nofun)
  | initializer s value? id waiting => exact .finish id value? waiting rfl rfl
  | host s value? method waiting =>
    exact leaveCall_class (Keeps.rest rfl) rfl .refl value?
  | readField s value? method owner field args waiting s' reply hs hreply =>
    exact follow_class (Keeps.rest rfl) rfl (.of_quiet hs)
      hm.heap hreply.toFrom method
  | writeField s value? method owner field args v waiting s' reply hs hreply =>
    refine follow_class (Keeps.rest rfl) rfl (.of_changes hs ?_) hm.heap hreply.toFrom
      method
    -- the field that is written has waited with the host method, and so has the value
    rintro c f w ⟨rfl, rfl, hstatic, rfl⟩
    exact ⟨hm.fields _ List.mem_cons_self c f rfl, hstatic, hm.writes _ List.mem_cons_self f w rfl⟩
  | done s value? => exact ⟨rfl, rfl, rfl⟩
  | endless s waiting =>
    exact .quiet _ ((Keeps.all _).quiet rfl .refl fun _ => nofun)

/-! ## Sessions -/

/-- A step that keeps to the program leads to a snapshot that does. -/
theorem ClassMove.known {m' : Snapshot} (h : ClassMove p m m') (hm : m.Known p) : m'.Known p := by
  cases h with
  | quiet _ h =>
    refine ⟨h.state.known hm.heap, fun w hw c f hf => ?_, fun w hw f v hv => ?_⟩
    -- work that waits has waited before, or it is fresh
    · cases h.waiting w hw with
      | inl hold => exact hm.fields w hold c f hf
      | inr hfresh => exact hfresh.field c f hf
    · cases h.waiting w hw with
      | inl hold => exact hm.writes w hold f v hv
      | inr hfresh => exact hfresh.write f v hv
  | ready className c htask hc hstatus => exact ⟨hm.heap, hm.fields, hm.writes⟩
  | start className c htask hc hstatus s hs fields hfields method hinit =>
    exact ⟨hs.known hm.heap, List.forall_mem_cons.2 ⟨nofun, hm.fields⟩,
      List.forall_mem_cons.2 ⟨nofun, hm.writes⟩⟩
  | complete className c htask hc hstatus s hs fields hfields =>
    exact ⟨hs.known hm.heap, hm.fields, hm.writes⟩
  | finish id value? rest htask hwaiting =>
    obtain ⟨hheap, hfields, hwrites⟩ := hm
    rw [hwaiting] at hfields hwrites
    exact ⟨hheap, (List.forall_mem_cons.1 hfields).2, (List.forall_mem_cons.1 hwrites).2⟩

/-- Runs keep to the program. -/
theorem known_invariant (hn : setup.natives = .standard) :
    Invariant setup (fun _ => True) (fun s => s.heap.Known setup.program)
      (Snapshot.Known setup.program) (fun _ => True) where
  invoke _ _ _ _ hs _ := ⟨hs, List.forall_mem_nil _, List.forall_mem_nil _⟩
  initClass _ _ hs := ⟨hs, List.forall_mem_nil _, List.forall_mem_nil _⟩
  changes _ _ hchanges hs := hchanges.known hs
  forget _ hs := hs
  step m hm := by
    have hclass := move_class (step_move hn m) hm
    cases h : step setup m with
    | more m' =>
      rw [h] at hclass
      exact hclass.known hm
    | done s value? =>
      rw [h] at hclass
      exact hclass.1 ▸ hm.heap
    | fault s e =>
      rw [h] at hclass
      exact ⟨hclass.known hm.heap, trivial⟩
  plain _ _ := trivial

/-- How a session gets from one moment to the next, as far as the classes are concerned. -/
inductive SessionMove (setup : Setup) : Outcome → Outcome → Prop
  /-- An operation starts. -/
  | start (o : Outcome) (s : State) (task : Task) (h : o.ended? = some s)
    (hcall : ∀ id, ¬ Snapshot.CallsInitializer ⟨s, task, []⟩ id) :
    SessionMove setup o (.unfinished ⟨s, task, []⟩)
  | step (m m' : Snapshot) (hstep : Machine.step setup m = .more m')
    (h : ClassMove setup.program m m') : SessionMove setup (.unfinished m) (.unfinished m')
  | done (m : Snapshot) (value? : Option Value) (htask : m.task = .finished value?)
    (hwaiting : m.waiting = []) : SessionMove setup (.unfinished m) (.returned m.state value?)
  | fault (m : Snapshot) (s₁ s : State) (e : Fault) (h : Machine.step setup m = .fault s₁ e)
    (hs : Evolves setup.program m.state s) : SessionMove setup (.unfinished m) (.failed s e)
  /-- Nothing is under way. -/
  | idle (o o' : Outcome) (s s' : State) (h : o.ended? = some s) (h' : o'.ended? = some s')
    (hs : Evolves setup.program s s') : SessionMove setup o o'

/-- Nothing waits when an operation starts. -/
theorem not_callsInitializer_start (s : State) (task : Task) (id : Nat) :
    ¬ Snapshot.CallsInitializer ⟨s, task, []⟩ id := by
  rintro ⟨_, _, _, hcons⟩
  cases hcons

/-- The next moment of a session that keeps to the program follows by a move. -/
theorem Next.sessionMove (hn : setup.natives = .standard) {allowed : Operation → Prop}
    {o o' : Outcome} (h : Next setup allowed o o')
    (ho : Invariant.Holds (fun s => s.heap.Known setup.program) (Snapshot.Known setup.program)
      (fun _ => True) o) : SessionMove setup o o' := by
  cases h with
  | invoke _ s method receiver? args h hop => exact .start o s _ h (not_callsInitializer_start s _)
  | initClass _ s className h => exact .start o s _ h (not_callsInitializer_start s _)
  | alloc _ _ s s' h h' hs hplain => exact .idle o o' s s' h h' (.of_quiet hs)
  | step m =>
    have hclass := move_class (step_move hn m) ho
    unfold run
    cases h : Machine.step setup m with
    | more m' =>
      rw [h] at hclass
      exact .step m m' h hclass
    | done s value? =>
      rw [h] at hclass
      obtain ⟨rfl, htask, hwaiting⟩ := hclass
      exact .done m value? htask hwaiting
    | fault s e =>
      rw [h] at hclass
      exact .fault m s s e h hclass
  -- a failure is reported, which leaves the classes alone
  | report m s s' e h hs =>
    have hclass := move_class (step_move hn m) ho
    rw [h] at hclass
    exact .fault m s _ e h ((hclass.trans (Evolves.of_quiet hs)).tail (.calls s' []))
  | stay _ s h => exact .idle o o s s h h .refl

/-- In a session each moment follows the one before by such a move. -/
theorem isChain_sessionMove (setup : Setup) (hn : setup.natives = .standard) {s : State}
    (hs : s.heap.Known setup.program) (ops : List (Operation × Nat)) :
    List.IsChain (SessionMove setup) (.returned s none :: history setup s ops) := by
  have hchain : List.IsChain (Next setup fun _ => True) (.returned s none :: history setup s ops) :=
    isChain_history (fun _ _ => trivial) rfl
  -- each moment keeps to the program, so that what follows it is one of the moves
  refine hchain.imp_of_mem_imp fun o o' ho _ h => h.sessionMove hn ?_
  cases List.mem_cons.1 ho with
  | inl hstart => exact hstart ▸ hs
  | inr hlater => exact (known_invariant hn).history (fun _ _ => trivial) hs hlater

end Smali.Machine
