import Smali.Proofs.Changes

/-!
# What a step can do

A step of a run is a move of one of a few kinds. `Move` lists them, each with what the program and the
host methods of the standard library guarantee: which changes the state goes through, what a host method
replies with, how the flow of an instruction goes on, and which faults end a run. An invariant of runs is
shown by going through the kinds; `step` is not opened again.

## Key results

- `step_move`: every step is such a move
-/

namespace Smali.Machine

/-- What entering a call comes to. A method of the host replies at once. -/
inductive Entered (setup : Setup) (s : State) (m : Method) (receiver? : Option Value)
    (args : List Value) (waiting : List Waiting) : Progress → Prop
  | overflow (h : setup.maxDepth ≤ s.calls.length) :
    Entered setup s m receiver? args waiting (.fault s (.stackOverflow setup.maxDepth))
  | code (code : Code) (s' : State) (hdepth : s.calls.length < setup.maxDepth)
    (hcode : m.body = .code code)
    (hs : Changes setup.program noWrite { s with calls := m :: s.calls } s') :
    Entered setup s m receiver? args waiting
      (.more ⟨s', .run (.enter m code receiver? args), waiting⟩)
  | host (reply : Reply) (s' : State) (hdepth : s.calls.length < setup.maxDepth)
    (hs : Changes setup.program (Constructs m.hostKey receiver? reply)
      { s with calls := m :: s.calls } s')
    (hreply : Reply.From s.heap reply) (hbody : m.body = .native) :
    Entered setup s m receiver? args waiting (follow s' m reply waiting)

/-- A table has one entry for each static field of a class, and no other. -/
structure StaticsOf (c : LoadedClass) (fields : Table String Value) : Prop where
  nodup : fields.keys.Nodup
  mem_keys : ∀ name, name ∈ fields.keys ↔ name ∈ c.staticFields.map (·.name)

/-- A table has under the name of a static field the first value of such a field. -/
def FirstValues (c : LoadedClass) (fields : Table String Value) : Prop :=
  ∀ name v, fields.get? name = some v →
    ∃ f ∈ c.staticFields, f.name = name ∧ ∃ s : State, (s.initialValue f).2 = v

/-- Where a run goes from a snapshot in one step. -/
inductive Move (setup : Setup) : Snapshot → Progress → Prop
  /-- A call is refused. -/
  | refuse (s m receiver? args waiting e) (he : Fault.isControl e = false) :
    Move setup ⟨s, .call m receiver? args, waiting⟩ (.fault s e)
  /-- The class of the receiver is needed. -/
  | prepare (s m ref args waiting className) :
    Move setup ⟨s, .call m (some (.object ref)) args, waiting⟩
      (.more ⟨s, .initClass className, .enter m (some (.object ref)) args :: waiting⟩)
  /-- The receiver, if there is one, has no class to set up. -/
  | call (s m receiver? receiver?' args waiting q)
    (h : Entered setup s m receiver?' args waiting q)
    (hreceiver : ∀ ref, receiver?' ≠ some (.object ref)) :
    Move setup ⟨s, .call m receiver? args, waiting⟩ q
  | enter (s value? m receiver? args waiting q) (h : Entered setup s m receiver? args waiting q) :
    Move setup ⟨s, .finished value?, .enter m receiver? args :: waiting⟩ q
  /-- There is no class of the name. -/
  | unknown (s className waiting e) (he : Fault.isControl e = false) :
    Move setup ⟨s, .initClass className, waiting⟩ (.fault s e)
  /-- The class counts as set up. -/
  | ready (s className waiting c) (hc : findClass setup.program className = .ok c)
    (h : s.classStatus c.id ≠ .uninitialized) :
    Move setup ⟨s, .initClass className, waiting⟩ (.more ⟨s, .finished none, waiting⟩)
  /-- The class gets its static fields, and its initializer is called. -/
  | beginInit (s s' className waiting c m fields)
    (hc : findClass setup.program className = .ok c) (h : s.classStatus c.id = .uninitialized)
    (hs : Changes setup.program noWrite s s') (hfields : StaticsOf c fields)
    (hm : c.initMethod? = some m) (hfirst : FirstValues c fields) :
    Move setup ⟨s, .initClass className, waiting⟩
      (.more ⟨(s'.installStatics c.id fields).setClassStatus c.id .initializing, .call m none [],
        .initializer c.id :: waiting⟩)
  /-- The class gets its static fields and needs no more. -/
  | completeInit (s s' className waiting c fields)
    (hc : findClass setup.program className = .ok c) (h : s.classStatus c.id = .uninitialized)
    (hs : Changes setup.program noWrite s s') (hfields : StaticsOf c fields)
    (hm : c.initMethod? = none) (hfirst : FirstValues c fields) :
    Move setup ⟨s, .initClass className, waiting⟩
      (.more ⟨(s'.installStatics c.id fields).setClassStatus c.id .initialized, .finished none,
        waiting⟩)
  /-- The code of a call is at its end. -/
  | ended (s f waiting) : Move setup ⟨s, .run f, waiting⟩ (leaveCall s none waiting)
  | unended (s f waiting e) (he : Fault.isControl e = false) :
    Move setup ⟨s, .run f, waiting⟩ (.fault s e)
  | exec (s f waiting i s' flow) (hi : f.code.instructions[f.pc]? = some i)
    (hs : Changes setup.program (Makes i) s s')
    (hflow : ∀ x, flow = .ok x → Continues setup.program f i x)
    (hplain : Defines f.code i → Plain flow) :
    Move setup ⟨s, .run f, waiting⟩ (carryOn s' flow i waiting)
  | access (s value? f i waiting s' flow)
    (hs : Changes setup.program (Writes setup.program i) s s')
    (hflow : ∀ x, flow = .ok x → Resumes setup.program f x) (hplain : Plain flow) :
    Move setup ⟨s, .finished value?, .access f i :: waiting⟩ (carryOn s' flow i waiting)
  | caller (s value? f waiting) :
    Move setup ⟨s, .finished value?, .caller f :: waiting⟩
      (.more ⟨{ s with lastReturn? := value? }, .run { f with pc := f.pc + 1 }, waiting⟩)
  | initializer (s value? id waiting) :
    Move setup ⟨s, .finished value?, .initializer id :: waiting⟩
      (.more ⟨s.setClassStatus id .initialized, .finished none, waiting⟩)
  | host (s value? m waiting) :
    Move setup ⟨s, .finished value?, .host m :: waiting⟩ (leaveCall s value? waiting)
  | readField (s value? m owner field args waiting s' reply)
    (hs : Changes setup.program noWrite s s') (hreply : Reply.Ends reply) :
    Move setup ⟨s, .finished value?, .readField m owner field args :: waiting⟩
      (follow s' m reply waiting)
  | writeField (s value? m owner field args v waiting s' reply)
    (hs : Changes setup.program
      { static := fun c f w => c = owner ∧ f = field ∧ field.isStatic = true ∧ w = v } s s')
    (hreply : Reply.Ends reply) :
    Move setup ⟨s, .finished value?, .writeField m owner field args v :: waiting⟩
      (follow s' m reply waiting)
  | done (s value?) : Move setup ⟨s, .finished value?, []⟩ (.done s value?)
  | endless (s waiting) :
    Move setup ⟨s, .endless, waiting⟩ (.more ⟨s, .endless, waiting⟩)

/-! ## Class set-up -/

/-- The fields come into the table one after the other, under their names. -/
theorem staticsOf_initialStatics (s : State) (c : LoadedClass) :
    StaticsOf c (s.initialStatics c.staticFields).2 := by
  unfold State.initialStatics
  -- the fold is followed from any table on, whose names stay and are joined by those of the fields
  suffices hfold : ∀ (fields : List Field) (s : State) (table : Table String Value),
      table.keys.Nodup →
        let result := fields.foldl (fun (x : State × Table String Value) f =>
          ((x.1.initialValue f).1, x.2.insert f.name (x.1.initialValue f).2)) (s, table)
        result.2.keys.Nodup ∧
          ∀ name, name ∈ result.2.keys ↔ name ∈ table.keys ∨ name ∈ fields.map (·.name) by
    obtain ⟨hnodup, hmem⟩ := hfold c.staticFields s {} List.nodup_nil
    exact ⟨hnodup, fun name => (hmem name).trans (or_iff_right List.not_mem_nil)⟩
  intro fields
  induction fields with
  | nil =>
    intro s table htable
    exact ⟨htable, fun name => (or_iff_left List.not_mem_nil).symm⟩
  | cons f rest ih =>
    intro s table htable
    have hnext := Table.nodup_keys_insert htable f.name (s.initialValue f).2
    obtain ⟨hnodup, hmem⟩ := ih (s.initialValue f).1 _ hnext
    refine ⟨hnodup, fun name => (hmem name).trans ?_⟩
    rw [Table.mem_keys_insert, List.map_cons, List.mem_cons, or_assoc]

/-- Each value of the table is the first value of a field with that name. -/
theorem firstValues_initialStatics (s : State) (c : LoadedClass) :
    FirstValues c (s.initialStatics c.staticFields).2 := by
  unfold State.initialStatics
  -- a value of the table that the fold ends with was there before, or some field has it first
  suffices hfold : ∀ (fields : List Field) (s : State) (table : Table String Value),
      let result := fields.foldl (fun (x : State × Table String Value) f =>
        ((x.1.initialValue f).1, x.2.insert f.name (x.1.initialValue f).2)) (s, table)
      ∀ name v, result.2.get? name = some v → table.get? name = some v ∨
        ∃ f ∈ fields, f.name = name ∧ ∃ s : State, (s.initialValue f).2 = v by
    intro name v hv
    exact (hfold c.staticFields s {} name v hv).resolve_left nofun
  intro fields
  induction fields with
  | nil => exact fun _ _ _ _ => .inl
  | cons f rest ih =>
    intro s table result name v hv
    cases ih _ _ name v hv with
    | inr hlater =>
      obtain ⟨f', hf', hvalue⟩ := hlater
      exact .inr ⟨f', List.mem_cons_of_mem f hf', hvalue⟩
    | inl hhere =>
      rw [Table.get?_insert] at hhere
      split at hhere
      · next hname =>
        exact .inr ⟨f, List.mem_cons_self, hname.symm, s, Option.some.inj hhere⟩
      · exact .inl hhere

variable {setup : Setup}

/-- Setting a class up. -/
theorem startInit_move (s : State) (className : String) (waiting : List Waiting) :
    Move setup ⟨s, .initClass className, waiting⟩ (startInit setup s className waiting) := by
  unfold startInit
  split
  · next e he => exact .unknown s className waiting e (plain_findClass _ className e he)
  · next c hc =>
    split
    · next hready => exact .ready s className waiting c hc hready
    · next hfresh =>
      have hfresh := Decidable.not_not.1 hfresh
      -- the first values may need string objects, so that the state has changed before the class does
      dsimp only
      split
      · next m hm =>
        exact .beginInit s _ className waiting c m _ hc hfresh
          (.head (.log s _ _) (initialStatics_changes _ _)) (staticsOf_initialStatics _ c) hm
          (firstValues_initialStatics _ c)
      · next hm =>
        exact .completeInit s _ className waiting c _ hc hfresh
          (.head (.log s _ _) (initialStatics_changes _ _)) (staticsOf_initialStatics _ c) hm
          (firstValues_initialStatics _ c)

/-! ## Calls -/

/-- Writing the journal and recording a call can change places. -/
theorem log_withCalls {p : Program} {W : Allowance} (s : State)
    (calls : CallStack) (level : Level) (message : Unit → String) :
    Change p W { s with calls } { s.log level message with calls } :=
  .log { s with calls } level message

/-- A host method that is regular is entered. -/
theorem entered_host {host : HostMethod} {m : Method} (hregular : host.Regular m.hostKey)
    (hbody : m.body = .native) {s s₁ : State} {args : List Value} {waiting : List Waiting}
    (hdepth : s.calls.length < setup.maxDepth) (call : HostCall)
    (hs : ∀ W, Change setup.program W { s with calls := m :: s.calls } s₁)
    (hheap : s₁.heap = s.heap) :
    Entered setup s m call.receiver? args waiting
      (follow (host setup.program call s₁).1 m (host setup.program call s₁).2 waiting) := by
  obtain ⟨hchanges, hreply⟩ := hregular setup.program call s₁
  exact .host _ _ hdepth (.head (hs _) hchanges) (hheap ▸ hreply) hbody

/-- Entering a call. -/
theorem enterCall_entered (hn : setup.natives = .standard) (s : State) (m : Method)
    (receiver? : Option Value) (args : List Value) (waiting : List Waiting) :
    Entered setup s m receiver? args waiting (enterCall setup s m receiver? args waiting) := by
  unfold enterCall CallStack.push
  -- there is room for the call, or it is refused
  by_cases hdepth : s.calls.length < setup.maxDepth
  · simp only [hdepth, ↓reduceIte]
    split
    · next code hcode => exact .code code _ hdepth hcode (.single (log_withCalls s _ _ _))
    · next hbody =>
      split
      -- a method that the host does not have is one that fails at once
      · exact .host (.fail _) _ hdepth (.single (log_withCalls s _ _ _)) (.fail _ rfl) hbody
      · next host hhost =>
        rw [hn] at hhost
        exact entered_host (standard_regular hhost) hbody hdepth ⟨receiver?, _, _⟩
          (fun _ => log_withCalls s _ _ _) rfl
  · simp only [hdepth, ↓reduceIte]
    exact .overflow (Nat.le_of_not_lt hdepth)

/-- Calling a method. -/
theorem startCall_move (hn : setup.natives = .standard) (s : State) (m : Method)
    (receiver? : Option Value) (args : List Value) (waiting : List Waiting) :
    Move setup ⟨s, .call m receiver? args, waiting⟩
      (startCall setup s m receiver? args waiting) := by
  unfold startCall
  split
  · exact .refuse s m receiver? args waiting _ rfl
  · split
    · next ref hreceiver =>
      -- a static method is called without its receiver
      obtain rfl : receiver? = some (.object ref) := by
        split at hreceiver
        · cases hreceiver
        · exact hreceiver
      split
      · exact .prepare s m ref args waiting _
      · next e he =>
        exact .refuse s m _ args waiting e (Heap.plain_object s.heap _ e he)
    · next hreceiver =>
      exact .call s m receiver? _ args waiting _ (enterCall_entered hn s m _ args waiting) hreceiver

/-! ## Steps -/

/-- Running an instruction. -/
theorem runNext_move (s : State) (f : Frame) (waiting : List Waiting) :
    Move setup ⟨s, .run f, waiting⟩ (runNext setup s f waiting) := by
  unfold runNext
  split
  · split
    · exact .ended s f waiting
    · exact .unended s f waiting _ rfl
  · next i hi =>
    exact .exec s f waiting i _ _ hi (.head (.log s _ _) (exec_changes _ _ f i))
      (fun _ => exec_continues) plain_exec

/-- Handing a value to waiting work. -/
theorem resume_move (hn : setup.natives = .standard) (s : State) (value? : Option Value)
    (work : Waiting) (waiting : List Waiting) :
    Move setup ⟨s, .finished value?, work :: waiting⟩ (resume setup s value? work waiting) := by
  cases work with
  | caller f => exact .caller s value? f waiting
  | access f i =>
    exact .access s value? f i waiting _ _ (access_changes _ s f i) (fun _ => access_resumes)
      (plain_access _ s f i)
  | enter m receiver? args =>
    exact .enter s value? m receiver? args waiting _ (enterCall_entered hn s m receiver? args waiting)
  | initializer id => exact .initializer s value? id waiting
  | host m => exact .host s value? m waiting
  | readField m owner field args =>
    obtain ⟨hchanges, hreply⟩ := replyField_changes s owner field args
    exact .readField s value? m owner field args waiting _ _ hchanges hreply
  | writeField m owner field args v =>
    have hwrite := writeField_changes (p := setup.program)
      (W := { static := fun c f w => c = owner ∧ f = field ∧ field.isStatic = true ∧ w = v }) (v := v)
      (fun h => ⟨rfl, rfl, h, rfl⟩) s args
    exact .writeField s value? m owner field args v waiting _ _ hwrite.1 hwrite.2

/-- Every step is a move of one of the kinds. -/
theorem step_move (hn : setup.natives = .standard) (m : Snapshot) : Move setup m (step setup m) := by
  obtain ⟨s, task, waiting⟩ := m
  -- one case for each task, and with a value one for each kind of work that waits for it
  cases task with
  | call m receiver? args => exact startCall_move hn s m receiver? args waiting
  | initClass className => exact startInit_move s className waiting
  | run f => exact runNext_move s f waiting
  | finished value? =>
    cases waiting with
    | nil => exact .done s value?
    | cons work rest => exact resume_move hn s value? work rest
  | endless => exact .endless s waiting

end Smali.Machine
