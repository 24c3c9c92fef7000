import Mathlib.Data.List.Range
import Smali.Machine.Run
import Smali.Proofs.Changes

/-!
# Sessions

A machine is used from outside by operations, one after the other: methods are called, classes are set up,
things are put on the heap. An operation is given a number of steps, and the next one starts when it has
come to an end, be it with a value or with a fault.

The history of a session lists what each operation has come to after no step, after one step and so on.
Neighbours in a history are tied by `Next`, one step of the machine or the start of an operation, so
that a statement about all moments of all sessions needs a look at one step only.

## Key results

- `run_all`: what one step keeps, a run of any length keeps
- `isChain_history`: in a session each moment is next to the one before
- `track_of_isChain`: what can be told from the moments before, moment by moment
- `Invariant.history`: what the steps of a machine keep holds throughout its sessions
-/

namespace Smali.Machine

/-! ## Runs -/

/-- What a step comes to satisfies the predicate for its kind. -/
def Progress.All (more : Snapshot → Prop) (done : State → Option Value → Prop)
    (fault : State → Fault → Prop) : Progress → Prop
  | .more m => more m
  | .done s value? => done s value?
  | .fault s e => fault s e

/-- What a run comes to satisfies the predicate for its kind. -/
def Outcome.All (unfinished : Snapshot → Prop) (returned : State → Option Value → Prop)
    (failed : State → Fault → Prop) : Outcome → Prop
  | .unfinished m => unfinished m
  | .returned s value? => returned s value?
  | .failed s e => failed s e

variable {setup : Setup}

/-- What one step keeps, a run of any length keeps. -/
theorem run_all {J : Snapshot → Prop} {D : State → Option Value → Prop} {F : State → Fault → Prop}
    (hstep : ∀ m, J m → (step setup m).All J D F) (steps : Nat) {m : Snapshot} (hm : J m) :
    (run setup steps m).All J D F := by
  -- the induction is on the bound of the run
  induction steps generalizing m with
  | zero => exact hm
  | succ steps ih =>
    have h := hstep m hm
    unfold run
    split
    · next m' hmore =>
      rw [hmore] at h
      exact ih h
    · next s value? hdone =>
      rw [hdone] at h
      exact h
    · next s e hfault =>
      rw [hfault] at h
      exact h

/-- A run whose first step goes on is a run from there. -/
theorem run_more {m m' : Snapshot} (h : step setup m = .more m') (steps : Nat) :
    run setup (steps + 1) m = run setup steps m' := by
  rw [run, h]

/-- A run of one more step makes one more step where the shorter run was unfinished. -/
theorem run_succ (steps : Nat) (m : Snapshot) :
    run setup (steps + 1) m =
      match run setup steps m with
      | .unfinished m' => run setup 1 m'
      | ended => ended := by
  induction steps generalizing m with
  | zero => rfl
  | succ steps ih =>
    -- the first step is taken off both runs
    rw [run]
    cases h : step setup m with
    | more m' =>
      dsimp only
      rw [ih m', run, h]
    | done s value? => rw [run, h]
    | fault s e => rw [run, h]

/-! ## Operations -/

/-- Something that is done with a machine from outside. -/
inductive Operation where
  /-- Calls a method. -/
  | invoke (method : Method) (receiver? : Option Value) (args : List Value)
  /-- Sets a class up. -/
  | initClass (className : String)
  | newObject (className : String)
  | newArray (elementType : Descriptor) (values : Array Value)
  | newString (text : String)
  /-- The string object for a literal. -/
  | literal (text : String)
  deriving Repr, DecidableEq, Inhabited

/-- An allocation is over at once. -/
def Outcome.ofAllocation : State × Except Fault Nat → Outcome
  | (s, .ok r) => .returned s (some (.object r))
  | (s, .error e) => .failed s e

/-- What an operation comes to in so many steps at most. -/
def Operation.perform (setup : Setup) (s : State) (steps : Nat) : Operation → Outcome
  | .invoke m receiver? args => Machine.invoke setup steps s m receiver? args
  | .initClass className => Machine.initClass setup steps s className
  | .newObject className => .ofAllocation (Machine.newObject setup.program s className)
  | .newArray elementType values =>
    let (s, r) := s.allocArray elementType values
    .returned s (some (.array r))
  | .newString text =>
    let (s, r) := s.newString text
    .returned s (some (.object r))
  | .literal text =>
    let (s, r) := s.intern text
    .returned s (some (.object r))

/-- The state at a moment. -/
def Outcome.state : Outcome → State
  | .returned s _ | .failed s _ => s
  | .unfinished m => m.state

/-- The state that an operation leaves behind at its end. -/
def Outcome.ended? : Outcome → Option State
  | .returned s _ | .failed s _ => some s
  | .unfinished _ => none

/-- At its end an operation has left the state. -/
theorem state_of_ended {o : Outcome} {s : State} (h : o.ended? = some s) : o.state = s := by
  cases o with
  | returned s' value? | failed s' e => exact Option.some.inj h
  | unfinished m => cases h

/-- The state in which a step leaves the machine. -/
def Progress.state : Progress → State
  | .more m => m.state
  | .done s _ | .fault s _ => s

/-- A run of one step leaves the state of the step. -/
theorem state_run_one (m : Snapshot) : (run setup 1 m).state = (step setup m).state := by
  unfold run
  cases step setup m <;> rfl

/-- The moments of a session: for each operation what it has come to after no step, after one step and so
on up to the steps that it is given. No operation follows one that is unfinished. -/
def history (setup : Setup) (s : State) : List (Operation × Nat) → List Outcome
  | [] => []
  | (op, steps) :: rest =>
    (List.range (steps + 1)).map (op.perform setup s) ++
      match (op.perform setup s steps).ended? with
      | some s' => history setup s' rest
      | none => []

/-! ## From one moment to the next -/

/-- The arrays that are made from outside are those of the operations that are used. -/
def allocation (allowed : Operation → Prop) : Allowance where
  array elementType values := allowed (.newArray elementType values)

/-- How a session in which only some operations are used gets from one moment to the next. -/
inductive Next (setup : Setup) (allowed : Operation → Prop) : Outcome → Outcome → Prop
  /-- A method is called. -/
  | invoke (o : Outcome) (s : State) (method : Method) (receiver? : Option Value)
    (args : List Value) (h : o.ended? = some s) (hop : allowed (.invoke method receiver? args)) :
    Next setup allowed o (.unfinished ⟨s, .call method receiver? args, []⟩)
  /-- A class is to be set up. -/
  | initClass (o : Outcome) (s : State) (className : String) (h : o.ended? = some s) :
    Next setup allowed o (.unfinished ⟨s, .initClass className, []⟩)
  /-- Something is put on the heap, or cannot be. -/
  | alloc (o o' : Outcome) (s s' : State) (h : o.ended? = some s) (h' : o'.ended? = some s')
    (hs : Changes setup.program (allocation allowed) s s')
    (hplain : ∀ e, o' = .failed s' e → e.isControl = false) : Next setup allowed o o'
  | step (m : Snapshot) : Next setup allowed (.unfinished m) (run setup 1 m)
  /-- A failed call is reported. -/
  | report (m : Snapshot) (s s' : State) (e : Fault) (h : step setup m = .fault s e)
    (hs : Changes setup.program noWrite s s') :
    Next setup allowed (.unfinished m) (.failed { s' with calls := [] } e)
  /-- Nothing happens after the end of an operation. -/
  | stay (o : Outcome) (s : State) (h : o.ended? = some s) : Next setup allowed o o

variable {allowed : Operation → Prop}

theorem ended?_ofAllocation (x : State × Except Fault Nat) :
    (Outcome.ofAllocation x).ended? = some x.1 := by
  obtain ⟨s, r⟩ := x
  cases r <;> rfl

/-- An object that is made from outside. -/
theorem next_newObject (s : State) (className : String) {o : Outcome} (h : o.ended? = some s) :
    Next setup allowed o (.ofAllocation (newObject setup.program s className)) := by
  have hchanges := newObject_changes (W := allocation allowed) setup.program s className
  have hplain := plain_newObject setup.program s className
  -- from here on only what the allocation comes to matters
  generalize newObject setup.program s className = x at hchanges hplain
  refine .alloc o _ s x.1 h (ended?_ofAllocation x) hchanges fun e he => ?_
  obtain ⟨s', r⟩ := x
  cases r with
  | ok r => cases he
  | error e' =>
    obtain ⟨-, rfl⟩ := Outcome.failed.inj he
    exact hplain e' rfl

/-- The start of an operation. -/
theorem next_start {op : Operation} (hop : allowed op) {o : Outcome} {s : State}
    (h : o.ended? = some s) : Next setup allowed o (op.perform setup s 0) := by
  -- a call and the set-up of a class begin without a step, the others are over at once
  cases op with
  | invoke method receiver? args => exact .invoke o s method receiver? args h hop
  | initClass className => exact .initClass o s className h
  | newObject className => exact next_newObject s className h
  | newArray elementType values =>
    exact .alloc o _ s _ h rfl (.single (.newArray s elementType values hop)) (fun _ => nofun)
  | newString text =>
    exact .alloc o _ s _ h rfl (.single (.newHost s stringClass _ (.of_none rfl rfl rfl)))
      (fun _ => nofun)
  | literal text => exact .alloc o _ s _ h rfl (.single (.intern s text)) (fun _ => nofun)

/-- A report writes the journal and forgets the calls in progress. -/
theorem reportFailure_eq (p : Program) (s : State) (method : Method) (e : Fault) :
    ∃ s', Changes p noWrite s s' ∧ reportFailure s method e = { s' with calls := [] } := by
  -- the induction is on the lines of the report
  have hlines (lines : List String) (s : State) :
      Changes p noWrite s (lines.foldl (fun s line => s.log .error fun _ => line) s) := by
    induction lines generalizing s with
    | nil => exact .refl
    | cons line rest ih => exact .head (.log s _ _) (ih _)
  exact ⟨_, .head (.log s _ _) (hlines _ _), rfl⟩

/-- One more step of a run is one `Next`. -/
theorem next_run (steps : Nat) (m : Snapshot) :
    Next setup allowed (run setup steps m) (run setup (steps + 1) m) := by
  rw [run_succ]
  cases run setup steps m with
  | unfinished m' => exact .step m'
  | returned s value? => exact .stay _ s rfl
  | failed s e => exact .stay _ s rfl

/-- A run of one step fails if the step does. -/
theorem run_one_failed {m : Snapshot} {s : State} {e : Fault} (h : run setup 1 m = .failed s e) :
    step setup m = .fault s e := by
  unfold run at h
  split at h
  · cases h
  · cases h
  · next hfault =>
    obtain ⟨rfl, rfl⟩ := Outcome.failed.inj h
    exact hfault

/-- A call from outside reports its failure in the step in which it fails. -/
theorem next_invoke (s : State) (method : Method) (receiver? : Option Value) (args : List Value)
    (steps : Nat) :
    Next setup allowed (Machine.invoke setup steps s method receiver? args)
      (Machine.invoke setup (steps + 1) s method receiver? args) := by
  unfold Machine.invoke invokeMethod
  rw [run_succ]
  cases run setup steps ⟨s, .call method receiver? args, []⟩ with
  -- only the step that fails now is reported
  | unfinished m =>
    dsimp only
    split
    · next s e h =>
      obtain ⟨s', hs, heq⟩ := reportFailure_eq setup.program s method e
      rw [heq]
      exact .report m s s' e (run_one_failed h) hs
    · exact .step m
  | returned s value? => exact .stay _ s rfl
  | failed s e => exact .stay _ _ rfl

/-- One more step of an operation is one `Next`. -/
theorem next_perform (op : Operation) (s : State) (steps : Nat) :
    Next setup allowed (op.perform setup s steps) (op.perform setup s (steps + 1)) := by
  cases op with
  | invoke method receiver? args => exact next_invoke s method receiver? args steps
  | initClass className => exact next_run steps _
  | newObject className => exact .stay _ _ (ended?_ofAllocation _)
  | newArray | newString | literal => exact .stay _ _ rfl

/-! ## Histories -/

/-- The moments of an operation follow each other, from the end of the operation before on. -/
theorem isChain_perform (setup : Setup) {op : Operation} (hop : allowed op) {o : Outcome} {s : State}
    (h : o.ended? = some s) (steps : Nat) :
    List.IsChain (Next setup allowed) (o :: (List.range (steps + 1)).map (op.perform setup s)) := by
  refine List.IsChain.cons ?_ fun o' ho' => ?_
  · rw [List.isChain_map, List.isChain_range_succ]
    exact fun n _ => next_perform op s n
  · rw [List.range_succ_eq_map, List.map_cons, List.head?_cons, Option.mem_some_iff] at ho'
    exact ho' ▸ next_start hop h

/-- In a session each moment is next to the one before. -/
theorem isChain_history {ops : List (Operation × Nat)} (hops : ∀ op ∈ ops, allowed op.1)
    {o : Outcome} {s : State} (h : o.ended? = some s) :
    List.IsChain (Next setup allowed) (o :: history setup s ops) := by
  -- the induction is on the operations
  induction ops generalizing o s with
  | nil => exact List.isChain_singleton o
  | cons entry rest ih =>
    obtain ⟨op, steps⟩ := entry
    have hop : allowed op := hops (op, steps) List.mem_cons_self
    have hrest : ∀ op ∈ rest, allowed op.1 := fun op hmem => hops op (List.mem_cons_of_mem _ hmem)
    have hfirst := isChain_perform setup hop h steps
    have hlast : List.IsChain (Next setup allowed) (op.perform setup s steps ::
        match (op.perform setup s steps).ended? with
        | some s' => history setup s' rest
        | none => []) := by
      split
      · next s' hs' => exact ih hrest hs'
      · exact List.isChain_singleton _
    -- the last moment of the operation belongs to both chains
    rw [List.range_succ, List.map_append, List.map_singleton] at hfirst
    rw [history, List.range_succ, List.map_append, List.map_singleton, List.append_assoc]
    exact List.isChain_cons_split.2 ⟨hfirst, hlast⟩

/-- A property of a moment and of the moments before it that passes from one moment to the next. -/
theorem track_of_isChain {R : Outcome → Outcome → Prop} {T : List Outcome → Outcome → Prop}
    (hstep : ∀ before o o', R o o' → T before o → T (before ++ [o]) o') {o o' : Outcome}
    {before l : List Outcome} (hchain : List.IsChain R (o :: l)) (ho : T before o)
    {between after : List Outcome} (hsplit : o :: l = between ++ o' :: after) :
    T (before ++ between) o' := by
  induction between generalizing before o l with
  | nil =>
    obtain ⟨rfl, _⟩ := List.cons.inj hsplit
    rwa [List.append_nil]
  | cons first rest ih =>
    obtain ⟨rfl, hrest⟩ := List.cons.inj hsplit
    -- the moment after the first is the start of the rest
    cases l with
    | nil => exact absurd hrest.symm (List.append_ne_nil_of_right_ne_nil _ (List.cons_ne_nil _ _))
    | cons o₁ l₁ =>
      rw [List.isChain_cons_cons] at hchain
      rw [← List.singleton_append, ← List.append_assoc]
      exact ih hchain.2 (hstep before o o₁ hchain.1 ho) hrest

/-! ## Invariants -/

/-- A property of states between operations, one of snapshots and one of faults that a session keeps. -/
structure Invariant (setup : Setup) (allowed : Operation → Prop) (idle : State → Prop)
    (busy : Snapshot → Prop) (fails : Fault → Prop) : Prop where
  invoke : ∀ s method receiver? args, idle s → allowed (.invoke method receiver? args) →
    busy ⟨s, .call method receiver? args, []⟩
  initClass : ∀ s className, idle s → busy ⟨s, .initClass className, []⟩
  changes : ∀ s s', Changes setup.program (allocation allowed) s s' → idle s → idle s'
  forget : ∀ s, idle s → idle { s with calls := [] }
  step : ∀ m, busy m → (step setup m).All busy (fun s _ => idle s) (fun s e => idle s ∧ fails e)
  plain : ∀ e, e.isControl = false → fails e

namespace Invariant

variable {idle : State → Prop} {busy : Snapshot → Prop} {fails : Fault → Prop}

/-- What is known of a moment. -/
abbrev Holds (idle : State → Prop) (busy : Snapshot → Prop) (fails : Fault → Prop) :
    Outcome → Prop :=
  Outcome.All busy (fun s _ => idle s) (fun s e => idle s ∧ fails e)

/-- Between operations the property of states holds. -/
theorem idle_of_ended {o : Outcome} {s : State} (ho : Holds idle busy fails o)
    (h : o.ended? = some s) : idle s := by
  cases o with
  | unfinished m => cases h
  | returned s' value? =>
    obtain rfl := Option.some.inj h
    exact ho
  | failed s' e =>
    obtain rfl := Option.some.inj h
    exact ho.1

/-- An invariant passes from one moment to the next. -/
theorem next (inv : Invariant setup allowed idle busy fails) {o o' : Outcome}
    (h : Next setup allowed o o') (ho : Holds idle busy fails o) : Holds idle busy fails o' := by
  cases h with
  | invoke _ s method receiver? args h hop =>
    exact inv.invoke s method receiver? args (idle_of_ended ho h) hop
  | initClass _ s className h => exact inv.initClass s className (idle_of_ended ho h)
  | alloc _ _ s s' h h' hs hplain =>
    -- an allocation has ended, with a value or with a plain fault
    have hidle := inv.changes s s' hs (idle_of_ended ho h)
    cases o' with
    | unfinished m => cases h'
    | returned s'' value? =>
      obtain rfl := Option.some.inj h'
      exact hidle
    | failed s'' e =>
      obtain rfl := Option.some.inj h'
      exact ⟨hidle, inv.plain e (hplain e rfl)⟩
  | step m => exact run_all inv.step 1 ho
  -- the step before the report keeps the invariant, and so does the report
  | report m s s' e h hs =>
    have hfault := inv.step m ho
    rw [h] at hfault
    have hreport : Changes setup.program (allocation allowed) s s' := hs.mono noWrite_within
    exact ⟨inv.forget s' (inv.changes s s' hreport hfault.1), hfault.2⟩
  | stay _ s h => exact ho

/-- An invariant holds at every moment of a session. -/
theorem history (inv : Invariant setup allowed idle busy fails) {ops : List (Operation × Nat)}
    (hops : ∀ op ∈ ops, allowed op.1) {s : State} (hs : idle s) {o : Outcome}
    (ho : o ∈ history setup s ops) : Holds idle busy fails o := by
  have hchain : List.IsChain (Next setup allowed) (.returned s none :: Machine.history setup s ops) :=
    isChain_history hops rfl
  exact hchain.cons_induction _ _ (fun _ _ => inv.next) hs o ho

end Invariant

end Smali.Machine
