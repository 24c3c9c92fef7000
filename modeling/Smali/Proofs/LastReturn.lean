import Smali.Proofs.ReturnValues

/-!
# The value of the last call

There is one place for the value of the call that returned last, for all calls in progress together. It is
written when a value is handed to a caller that waits for it, and at no other time: neither instructions nor
the set-up of a class nor the host methods of the standard library touch it. So what a call instruction
leaves there is the value of its target, whatever has been called on the way; and without call instructions
the place stays as it is.

## Key results

- `step_keepsReturn`: a step that hands no value to a caller leaves the place alone
- `executes_call_iff`, `executes_invoke_cases`: what a call instruction comes to, by what its target comes to
- `touching_step`: one step of an instruction that touches a field
- `invoke_keepsReturn`: a call from outside that runs no call instruction
- `last_return`: what instructions and calls leave in the place
-/

namespace Smali.Machine

variable {setup : Setup} {s t : State} {f : Frame} {i : Instruction} {waiting : List Waiting}
  {m m' : Snapshot} {value? last : Option Value} {c : Call} {q : Progress}

/-! ## Steps -/

/-- The host methods leave the value of the last call alone. -/
def Natives.KeepReturn (n : Natives) : Prop :=
  ∀ className name params host, n.find? className name params = some host →
    ∀ p call s, (host p call s).1.lastReturn? = s.lastReturn?

/-- Those of the standard library do. -/
theorem standard_keepReturn : Natives.standard.KeepReturn :=
  fun _ _ _ _ h p call s => (standard_regular h p call s).1.lastReturn?_eq

/-- Whether the next step runs a call instruction. -/
def Snapshot.runsInvoke (m : Snapshot) : Bool :=
  match m.task with
  | .run f => f.code.instructions[f.pc]?.any Instruction.isInvoke
  | _ => false

/-- The value of the last call stays as it is, and no further caller waits for one. -/
abbrev Progress.KeepsReturn (last : Option Value) (waiting : List Waiting) : Progress → Prop :=
  Progress.All
    (fun m => m.state.lastReturn? = last ∧ ∀ f, .caller f ∈ m.waiting → .caller f ∈ waiting)
    (fun s _ => s.lastReturn? = last) (fun s _ => s.lastReturn? = last)

/-- More callers may wait at first. -/
theorem Progress.KeepsReturn.mono {waiting' : List Waiting} (h : q.KeepsReturn last waiting)
    (hsub : waiting ⊆ waiting') : q.KeepsReturn last waiting' := by
  cases q with
  | more m => exact ⟨h.1, fun f hf => hsub (h.2 f hf)⟩
  | done | fault => exact h

/-- Work that is no caller adds no caller. -/
theorem mem_of_caller_mem_cons {work : Waiting} (hwork : ∀ f, work ≠ .caller f) (f : Frame)
    (h : .caller f ∈ work :: waiting) : .caller f ∈ waiting :=
  (List.mem_cons.1 h).resolve_left fun heq => hwork f heq.symm

/-- What follows a host method. -/
theorem follow_keepsReturn (hs : s.lastReturn? = last) (method : Method) (reply : Reply)
    (waiting : List Waiting) : (follow s method reply waiting).KeepsReturn last waiting := by
  cases reply with
  | finish value? => exact ⟨hs, fun _ => id⟩
  | fail e => exact hs
  | call | readField | writeField => exact ⟨hs, mem_of_caller_mem_cons nofun⟩

/-- Entering a call. -/
theorem enterCall_keepsReturn (hn : setup.natives.KeepReturn) (hs : s.lastReturn? = last)
    (method : Method) (receiver? : Option Value) (args : List Value) (waiting : List Waiting) :
    (enterCall setup s method receiver? args waiting).KeepsReturn last waiting := by
  unfold enterCall
  split
  · exact hs
  · dsimp only
    split
    · exact ⟨hs, fun _ => id⟩
    · split
      · exact hs
      · next host hhost =>
        -- the host method runs after the call has been recorded
        refine follow_keepsReturn ?_ method _ waiting
        exact (hn _ _ _ host hhost _ _ _).trans hs

/-- Calling a method. -/
theorem startCall_keepsReturn (hn : setup.natives.KeepReturn) (hs : s.lastReturn? = last)
    (method : Method) (receiver? : Option Value) (args : List Value) (waiting : List Waiting) :
    (startCall setup s method receiver? args waiting).KeepsReturn last waiting := by
  unfold startCall
  split
  · exact hs
  · split
    · split
      · exact ⟨hs, mem_of_caller_mem_cons nofun⟩
      · exact hs
    · exact enterCall_keepsReturn hn hs method _ args waiting

/-- The first values of static fields may need string objects, which have nothing to do with calls. -/
theorem lastReturn?_initialStatics (p : Program) (s : State) (fields : List Field) :
    (s.initialStatics fields).1.lastReturn? = s.lastReturn? :=
  (initialStatics_changes (p := p) (W := noWrite) s fields).lastReturn?_eq

/-- Setting a class up. -/
theorem startInit_keepsReturn (hs : s.lastReturn? = last) (setup : Setup) (className : String)
    (waiting : List Waiting) : (startInit setup s className waiting).KeepsReturn last waiting := by
  unfold startInit
  split
  · exact hs
  · next c _ =>
    dsimp only
    split
    · exact ⟨hs, fun _ => id⟩
    · have hfirst : ((s.log .debug fun _ => "initialize class " ++ c.name).initialStatics
          c.staticFields).1.lastReturn? = last :=
        (lastReturn?_initialStatics setup.program _ _).trans hs
      split
      · exact ⟨hfirst, mem_of_caller_mem_cons nofun⟩
      · exact ⟨hfirst, fun _ => id⟩

/-- What follows an instruction that makes no call. -/
theorem carryOn_keepsReturn {flow : Except Fault Flow} (hs : s.lastReturn? = last)
    (hcall : ∀ f m receiver? args, flow ≠ .ok (.call f m receiver? args)) (i : Instruction)
    (waiting : List Waiting) : (carryOn s flow i waiting).KeepsReturn last waiting := by
  cases flow with
  | error e => exact hs
  | ok x =>
    cases x with
    | call f m receiver? args => exact absurd rfl (hcall f m receiver? args)
    | needClass f className => exact ⟨hs, mem_of_caller_mem_cons nofun⟩
    | next | jump | leave | endless => exact ⟨hs, fun _ => id⟩

/-- An instruction leaves the value of the last call alone. -/
theorem lastReturn?_exec (p : Program) (s : State) (f : Frame) (i : Instruction) :
    (exec p s f i).1.lastReturn? = s.lastReturn? :=
  (exec_changes p s f i).lastReturn?_eq

/-- So does the second half of a field access. -/
theorem lastReturn?_access (p : Program) (s : State) (f : Frame) (i : Instruction) :
    (access p s f i).1.lastReturn? = s.lastReturn? :=
  (access_changes p s f i).lastReturn?_eq

/-- Running an instruction that is no call. -/
theorem runNext_keepsReturn (hs : s.lastReturn? = last)
    (hi : ∀ i, f.code.instructions[f.pc]? = some i → i.isInvoke = false) (setup : Setup)
    (waiting : List Waiting) : (runNext setup s f waiting).KeepsReturn last waiting := by
  unfold runNext
  split
  · split
    · exact ⟨hs, fun _ => id⟩
    · exact hs
  · next i hnext =>
    refine carryOn_keepsReturn ?_ ?_ i waiting
    · exact (lastReturn?_exec _ _ f i).trans hs
    intro f' m receiver? args hflow
    -- only a call instruction makes a call
    cases exec_continues hflow with
    | call _ _ _ _ hcall =>
      rw [hi i hnext] at hcall
      cases hcall

/-- Handing a value to work that is no caller. -/
theorem resume_keepsReturn (hn : setup.natives.KeepReturn) (hs : s.lastReturn? = last)
    {work : Waiting} (hwork : ∀ f, work ≠ .caller f) (value? : Option Value)
    (waiting : List Waiting) : (resume setup s value? work waiting).KeepsReturn last waiting := by
  cases work with
  | caller f => exact absurd rfl (hwork f)
  | access f i =>
    refine carryOn_keepsReturn ((lastReturn?_access _ s f i).trans hs) ?_ i waiting
    intro f' m receiver? args hflow
    -- touching a field makes no call
    cases access_resumes hflow
  | enter method receiver? args => exact enterCall_keepsReturn hn hs method receiver? args waiting
  | initializer | host => exact ⟨hs, fun _ => id⟩
  | readField method owner field args =>
    have hreply : Changes setup.program noWrite s (replyField s owner field args).1 :=
      (replyField_changes s owner field args).1
    exact follow_keepsReturn (hreply.lastReturn?_eq.trans hs) method _ waiting
  | writeField method owner field args v =>
    have hreply : Changes setup.program { static := fun _ _ _ => True } s
        (writeField s owner field args v).1 := (writeField_changes (fun _ => trivial) s args).1
    exact follow_keepsReturn (hreply.lastReturn?_eq.trans hs) method _ waiting

/-- A step that neither runs a call instruction nor hands a value to a caller leaves the place alone. -/
theorem step_keepsReturn (hn : setup.natives.KeepReturn) (hrun : m.runsInvoke = false)
    (hcaller : ∀ f, .caller f ∉ m.waiting) :
    (step setup m).KeepsReturn m.state.lastReturn? m.waiting := by
  obtain ⟨s, task, waiting⟩ := m
  cases task with
  | call method receiver? args => exact startCall_keepsReturn hn rfl method receiver? args waiting
  | initClass className => exact startInit_keepsReturn rfl setup className waiting
  | run f =>
    refine runNext_keepsReturn rfl (fun i hi => ?_) setup waiting
    simpa [Snapshot.runsInvoke, hi] using hrun
  | finished value? =>
    cases waiting with
    | nil => exact rfl
    | cons work rest =>
      -- the work that is taken up is none of a caller
      have hwork (f : Frame) : work ≠ .caller f := fun heq => hcaller f (heq ▸ List.mem_cons_self)
      exact (resume_keepsReturn hn rfl hwork value? rest).mono (List.subset_cons_self work rest)
  | endless => exact ⟨rfl, fun _ => id⟩

/-! ## Calls from outside -/

/-- A run in which no caller waits and no call instruction is run leaves the place alone. -/
theorem run_keepsReturn (hn : setup.natives.KeepReturn) {start : Snapshot} (hstart : start.waiting = [])
    (hquiet : ∀ m, Reaches setup start m → m.runsInvoke = false) (steps : Nat) :
    (run setup steps start).state.lastReturn? = start.state.lastReturn? := by
  have hall : (run setup steps start).All
      (fun m => m.state.lastReturn? = start.state.lastReturn? ∧ (∀ f, .caller f ∉ m.waiting) ∧
        Reaches setup start m)
      (fun s _ => s.lastReturn? = start.state.lastReturn?)
      (fun s _ => s.lastReturn? = start.state.lastReturn?) := by
    -- the invariant says too that no caller waits and that the moment is reached from the start
    refine run_all (fun m hm => ?_) steps ⟨rfl, by simp [hstart], .refl⟩
    obtain ⟨hlast, hcaller, hreach⟩ := hm
    have hkeeps := step_keepsReturn hn (hquiet m hreach) hcaller
    cases hstep : step setup m with
    | more m' =>
      rw [hstep] at hkeeps
      exact ⟨hkeeps.1.trans hlast, fun f hf => hcaller f (hkeeps.2 f hf), hreach.tail hstep⟩
    | done | fault =>
      rw [hstep] at hkeeps
      exact hkeeps.trans hlast
  cases hrun : run setup steps start with
  | unfinished m =>
    rw [hrun] at hall
    exact hall.1
  | returned | failed =>
    rw [hrun] at hall
    exact hall

/-- The report of a failure leaves the value of the last call alone. -/
theorem lastReturn?_reportFailure (setup : Setup) (s : State) (method : Method) (e : Fault) :
    (reportFailure s method e).lastReturn? = s.lastReturn? := by
  obtain ⟨s', hs, heq⟩ := reportFailure_eq setup.program s method e
  rw [heq]
  exact hs.lastReturn?_eq

/-- A call from outside in which no call instruction is run leaves the place alone. -/
theorem invoke_keepsReturn (hn : setup.natives.KeepReturn)
    (hquiet : ∀ m, Reaches setup (c.start []) m → m.runsInvoke = false) (steps : Nat) :
    (invoke setup steps c.state c.method c.receiver? c.args).state.lastReturn? = c.state.lastReturn? := by
  have hkeeps : (invokeMethod setup steps c.state c.method c.receiver? c.args).state.lastReturn? =
      c.state.lastReturn? := run_keepsReturn hn rfl hquiet steps
  unfold invoke
  cases hrun : invokeMethod setup steps c.state c.method c.receiver? c.args with
  | failed t e =>
    rw [hrun] at hkeeps
    exact (lastReturn?_reportFailure setup t c.method e).trans hkeeps
  | returned | unfinished =>
    rw [hrun] at hkeeps
    exact hkeeps

/-! ## Instructions that make no call -/

/-- The next step runs the initializer of a class. -/
def Snapshot.StartsInitializer (p : Program) (m : Snapshot) : Prop :=
  ∃ className c method, m.task = .initClass className ∧ findClass p className = .ok c ∧
    m.state.classStatus c.id = .uninitialized ∧ c.initMethod? = some method

/-- The moments of an instruction that makes no call and runs no initializer: it may need a class that is
set up in one step. The number tells how many moments may follow. -/
inductive Touching (f : Frame) (i : Instruction) (waiting : List Waiting) (last : Option Value) :
    Nat → Snapshot → Prop
  | run (s : State) (hs : s.lastReturn? = last) : Touching f i waiting last 2 ⟨s, .run f, waiting⟩
  | initClass (s : State) (className : String) (hs : s.lastReturn? = last) :
    Touching f i waiting last 1 ⟨s, .initClass className, .access f i :: waiting⟩
  | finished (s : State) (value? : Option Value) (hs : s.lastReturn? = last) :
    Touching f i waiting last 0 ⟨s, .finished value?, .access f i :: waiting⟩

/-- The place stays as it is, and the instruction is over or fewer moments follow. -/
abbrev Progress.Touches (f : Frame) (i : Instruction) (waiting : List Waiting) (last : Option Value)
    (n : Nat) : Progress → Prop :=
  Progress.All
    (fun m => m.state.lastReturn? = last ∧
      (waiting.length < m.waiting.length → ∃ k < n, Touching f i waiting last k m))
    (fun s _ => s.lastReturn? = last) (fun s _ => s.lastReturn? = last)

/-- One step of such an instruction leaves the place alone, and ends it or leads to the next moment. -/
theorem touching_step {n : Nat} (hi : f.code.instructions[f.pc]? = some i) (hcall : i.isInvoke = false)
    (h : Touching f i waiting last n m) (hinit : ¬ m.StartsInitializer setup.program) :
    (step setup m).Touches f i waiting last n := by
  cases h with
  | run s hs =>
    obtain ⟨line, hstep⟩ := step_run setup hi s waiting
    have hlast : (exec setup.program (s.log .trace line) f i).1.lastReturn? = last :=
      (lastReturn?_exec _ _ f i).trans hs
    rw [hstep]
    cases hflow : (exec setup.program (s.log .trace line) f i).2 with
    | error e => exact hlast
    | ok x =>
      cases exec_continues hflow with
      | call _ _ _ _ hmakes =>
        rw [hcall] at hmakes
        cases hmakes
      -- the class of the field comes first, and one moment less may follow
      | needClass className =>
        exact ⟨hlast, fun _ => ⟨1, Nat.one_lt_two, .initClass _ className hlast⟩⟩
      | next | jump | leave | endless => exact ⟨hlast, fun hmore => absurd hmore (Nat.lt_irrefl _)⟩
  | initClass s className hs =>
    show (startInit setup s className (.access f i :: waiting)).Touches f i waiting last 1
    unfold startInit
    split
    · exact hs
    · next c hc =>
      dsimp only
      split
      · exact ⟨hs, fun _ => ⟨0, Nat.one_pos, .finished s none hs⟩⟩
      · next hfresh =>
        split
        · next method hmethod =>
          -- an initializer would run, which is excluded
          exact absurd ⟨className, c, method, rfl, hc, Classical.not_not.1 hfresh, hmethod⟩ hinit
        · have hlast := (lastReturn?_initialStatics setup.program
            (s.log .debug fun _ => "initialize class " ++ c.name) c.staticFields).trans hs
          exact ⟨hlast, fun _ => ⟨0, Nat.one_pos, .finished _ none hlast⟩⟩
  | finished s value? hs =>
    show (carryOn (access setup.program s f i).1 (access setup.program s f i).2 i waiting).Touches
      f i waiting last 0
    have hlast := (lastReturn?_access setup.program s f i).trans hs
    cases hflow : (access setup.program s f i).2 with
    | error e => exact hlast
    | ok x =>
      cases access_resumes hflow with
      | next | endless => exact ⟨hlast, fun hmore => absurd hmore (Nat.lt_irrefl _)⟩

section NoCall

variable (hi : f.code.instructions[f.pc]? = some i) (hcall : i.isInvoke = false)
  (hinit : ∀ m, Underway setup ⟨s, .run f, waiting⟩ m → ¬ m.StartsInitializer setup.program)
include hi hcall hinit

/-- While the instruction is under way, the run is at one of its moments. -/
theorem touching_of_underway (h : Underway setup ⟨s, .run f, waiting⟩ m) :
    ∃ n, Touching f i waiting s.lastReturn? n m := by
  -- the induction is on the steps since the instruction began
  induction h with
  | refl => exact ⟨2, .run s rfl⟩
  | @tail m m' hunder hstep ih =>
    obtain ⟨n, htouching⟩ := ih
    have htouches := touching_step hi hcall htouching (hinit m hunder)
    rw [hstep.1] at htouches
    obtain ⟨k, -, hk⟩ := htouches.2 hstep.2
    exact ⟨k, hk⟩

/-- However the instruction ends, the place is as it was. -/
theorem executes_keepsReturn (h : Executes setup ⟨s, .run f, waiting⟩ q) :
    q.state.lastReturn? = s.lastReturn? := by
  obtain ⟨m, hunder, rfl, -⟩ := h
  obtain ⟨n, htouching⟩ := touching_of_underway hi hcall hinit hunder
  have htouches := touching_step hi hcall htouching (hinit m hunder)
  -- the last step of the instruction goes on, ends the run or fails
  cases hstep : step setup m with
  | more m' =>
    rw [hstep] at htouches
    exact htouches.1
  | done | fault =>
    rw [hstep] at htouches
    exact htouches

/-- The instruction comes to an end. -/
theorem exists_executes : ∃ q, Executes setup ⟨s, .run f, waiting⟩ q := by
  suffices h : ∀ n m, Touching f i waiting s.lastReturn? n m →
      Underway setup ⟨s, .run f, waiting⟩ m → ∃ q, Executes setup ⟨s, .run f, waiting⟩ q from
    h 2 _ (.run s rfl) .refl
  intro n
  -- the induction is on the moments that may follow
  induction n using Nat.strong_induction_on with
  | _ n ih =>
    intro m htouching hunder
    have htouches := touching_step hi hcall htouching (hinit m hunder)
    by_cases hover : ∀ m', step setup m = .more m' → m'.waiting.length ≤ waiting.length
    · exact ⟨_, m, hunder, rfl, hover⟩
    · push Not at hover
      obtain ⟨m', hstep, hmore⟩ := hover
      rw [hstep] at htouches
      obtain ⟨k, hk, hnext⟩ := htouches.2 hmore
      exact ih k hk m' hnext (hunder.tail ⟨hstep, hmore⟩)

end NoCall

/-! ## Instructions that make a call -/

/-- The state in which an instruction is carried out, with the line for it in the journal. -/
def State.traced (s : State) (i : Instruction) : State :=
  s.log .trace fun _ => "".pushn '\t' s.depth ++ "exec " ++ i.dump

/-- A step of a run carries out the next instruction. -/
theorem step_run_traced (setup : Setup) (hi : f.code.instructions[f.pc]? = some i) (s : State)
    (waiting : List Waiting) : step setup ⟨s, .run f, waiting⟩ =
      carryOn (exec setup.program (s.traced i) f i).1 (exec setup.program (s.traced i) f i).2 i
        waiting := by
  show runNext setup s f waiting = _
  rw [runNext, hi]
  rfl

/-- The instruction makes the call for the frame: this is what it finds its target and its values to be. -/
def Call.MadeBy (c : Call) (p : Program) (s : State) (f : Frame) (i : Instruction) : Prop :=
  exec p (s.traced i) f i = (c.state, .ok (.call f c.method c.receiver? c.args))

/-- The step that makes a call has the frame wait for it. -/
theorem Call.MadeBy.step (h : c.MadeBy setup.program s f i)
    (hi : f.code.instructions[f.pc]? = some i) (waiting : List Waiting) :
    step setup ⟨s, .run f, waiting⟩ = .more (c.start (.caller f :: waiting)) := by
  rw [step_run_traced setup hi, h]
  rfl

/-- The frame goes on behind its call, whose value has been kept. -/
def Frame.behindCall (f : Frame) (waiting : List Waiting) (t : State) (value? : Option Value) : Snapshot :=
  ⟨{ t with lastReturn? := value? }, .run { f with pc := f.pc + 1 }, waiting⟩

section MakesCall

variable (hstep : step setup ⟨s, .run f, waiting⟩ = .more (c.start (.caller f :: waiting)))
include hstep

/-- While a call instruction is under way, the run of the call goes on above the frame. -/
theorem underway_call (h : Underway setup ⟨s, .run f, waiting⟩ m) :
    m = ⟨s, .run f, waiting⟩ ∨
      ∃ inner, Reaches setup (c.start []) inner ∧ m = inner.over (.caller f :: waiting) := by
  induction h with
  | refl => exact .inl rfl
  | @tail m m' _ hinside ih =>
    obtain ⟨hnext, hmore⟩ := hinside
    refine .inr ?_
    rcases ih with rfl | ⟨inner, hreach, rfl⟩
    · obtain rfl := Progress.more.inj (hstep.symm.trans hnext)
      exact ⟨c.start [], .refl, rfl⟩
    · by_cases hend : inner.AtEnd
      · -- the frame is taken up, so the instruction is over
        obtain ⟨t, value?, rfl⟩ := hend
        obtain rfl := Progress.more.inj hnext
        exact absurd hmore (Nat.lt_irrefl _)
      · obtain ⟨next, hinner, rfl⟩ := step_of_over hend hnext
        exact ⟨next, hreach.tail hinner, rfl⟩

/-- While the run of the call goes on, the instruction is under way. -/
theorem underway_of_reaches {inner : Snapshot} (h : Reaches setup (c.start []) inner) :
    Underway setup ⟨s, .run f, waiting⟩ (inner.over (.caller f :: waiting)) := by
  -- everything the call does stands above the frame that waits
  have hlength (m : Snapshot) : waiting.length < (m.over (.caller f :: waiting)).waiting.length := by
    simp only [Snapshot.over, List.length_append, List.length_cons]
    omega
  induction h with
  | refl => exact .single ⟨hstep, hlength (c.start [])⟩
  | @tail m m' _ hinner ih => exact ih.tail ⟨step_over_more hinner _, hlength m'⟩

/-- A call instruction comes to what its target comes to: with the value that the target returns the frame
goes on behind the call, and a failure is that of the target. -/
theorem executes_call_iff : Executes setup ⟨s, .run f, waiting⟩ q ↔
    (∃ t value?, Reaches setup (c.start []) ⟨t, .finished value?, []⟩ ∧
      q = .more (f.behindCall waiting t value?)) ∨
    (∃ inner t e, Reaches setup (c.start []) inner ∧ step setup inner = .fault t e ∧ q = .fault t e) := by
  constructor
  · rintro ⟨m, hunder, rfl, hover⟩
    rcases underway_call hstep hunder with rfl | ⟨inner, hreach, rfl⟩
    · -- the step that makes the call has the frame wait, so the instruction is not over with it
      have hlength := hover _ hstep
      exact absurd hlength (Nat.not_succ_le_self _)
    · by_cases hend : inner.AtEnd
      · obtain ⟨t, value?, rfl⟩ := hend
        exact .inl ⟨t, value?, hreach, rfl⟩
      · rw [step_over hend] at hover ⊢
        cases hinner : step setup inner with
        | more next =>
          -- the frame waits below everything that the call does
          rw [hinner] at hover
          have hlength := hover _ rfl
          simp only [Snapshot.over, List.length_append, List.length_cons] at hlength
          omega
        | done t value? => exact absurd ⟨t, value?, eq_of_step_done hinner⟩ hend
        | fault t e => exact .inr ⟨inner, t, e, hreach, hinner, rfl⟩
  · rintro (⟨t, value?, hreach, rfl⟩ | ⟨inner, t, e, hreach, hinner, rfl⟩)
    · refine ⟨_, underway_of_reaches hstep hreach, rfl, fun m' hm' => ?_⟩
      rw [← Progress.more.inj hm']
      exact Nat.le_refl _
    · have hend : ¬ inner.AtEnd := by
        rintro ⟨t', value?, rfl⟩
        cases hinner
      refine ⟨_, underway_of_reaches hstep hreach, ?_, fun m' hm' => by cases hm'⟩
      rw [step_over hend, hinner]
      rfl

end MakesCall

/-- A call instruction makes a call or searches for its target without end, unless it fails. -/
theorem dispatch_flow {p : Program} {kind : InvokeKind} {slots : List Slot} {id : MethodId} {x : Flow}
    (h : (dispatch p s f kind slots id).2 = .ok x) :
    (∃ method receiver? args, x = .call f method receiver? args) ∨ x = .endless := by
  obtain ⟨values, _, h⟩ := attempt_ok h
  cases kind with
  | static | direct =>
    obtain ⟨method, _, h⟩ := attempt_ok h
    exact .inl ⟨method, _, _, (Except.ok.inj h).symm⟩
  | virtual =>
    obtain ⟨className, _, h⟩ := attempt_ok h
    split at h
    · next method _ => exact .inl ⟨method, _, _, (Except.ok.inj h).symm⟩
    · cases h
    · exact .inr (Except.ok.inj h).symm

/-- A call instruction that makes no call leaves the place alone, and the run does not go on behind it. -/
theorem executes_of_not_madeBy (hi : f.code.instructions[f.pc]? = some i) (hcall : i.isInvoke = true)
    (hmade : ∀ c : Call, ¬ c.MadeBy setup.program s f i)
    (h : Executes setup ⟨s, .run f, waiting⟩ q) :
    q.state.lastReturn? = s.lastReturn? ∧ ∀ m, q = .more m → m.task = .endless := by
  have hlast : (exec setup.program (s.traced i) f i).1.lastReturn? = s.lastReturn? :=
    lastReturn?_exec setup.program (s.traced i) f i
  have hstep := step_run_traced setup hi s waiting
  cases hflow : (exec setup.program (s.traced i) f i).2 with
  | error e =>
    rw [hflow] at hstep
    obtain rfl := (executes_first h fun m' hm' => by cases hstep.symm.trans hm').symm.trans hstep
    exact ⟨hlast, fun m hm => by cases hm⟩
  | ok x =>
    cases i with
    | invoke kind slots id =>
      -- the call is excluded, so the search for the target never ends
      rcases dispatch_flow hflow with ⟨method, receiver?, args, rfl⟩ | rfl
      · exact (hmade ⟨_, method, receiver?, args⟩ (Prod.ext rfl hflow)).elim
      · rw [hflow] at hstep
        have hover (m' : Snapshot) (hm' : step setup ⟨s, .run f, waiting⟩ = .more m') :
            m'.waiting.length ≤ waiting.length := by
          obtain rfl := Progress.more.inj (hstep.symm.trans hm')
          exact Nat.le_refl _
        obtain rfl := (executes_first h hover).symm.trans hstep
        refine ⟨hlast, fun m hm => ?_⟩
        rw [← Progress.more.inj hm]
    | _ => cases hcall

/-- What a call instruction may come to. -/
theorem executes_invoke_cases (hi : f.code.instructions[f.pc]? = some i) (hcall : i.isInvoke = true)
    (h : Executes setup ⟨s, .run f, waiting⟩ q) :
    (∃ (c : Call) (steps : Nat) (t : State) (value? : Option Value), c.MadeBy setup.program s f i ∧
      invokeMethod setup steps c.state c.method c.receiver? c.args = .returned t value? ∧
      q = .more (f.behindCall waiting t value?)) ∨
    (∃ (c : Call) (steps : Nat) (t : State) (e : Fault), c.MadeBy setup.program s f i ∧
      invokeMethod setup steps c.state c.method c.receiver? c.args = .failed t e ∧ q = .fault t e) ∨
    ((∀ c : Call, ¬ c.MadeBy setup.program s f i) ∧ q.state.lastReturn? = s.lastReturn? ∧
      ∀ m, q = .more m → m.task = .endless) := by
  by_cases hmade : ∃ c : Call, c.MadeBy setup.program s f i
  · obtain ⟨c, hmade⟩ := hmade
    rcases (executes_call_iff (hmade.step hi waiting)).1 h with
      ⟨t, value?, hreach, hq⟩ | ⟨inner, t, e, hreach, hfault, hq⟩
    · obtain ⟨steps, hrun⟩ := returned_of_reaches hreach
      exact .inl ⟨c, steps, t, value?, hmade, hrun, hq⟩
    · obtain ⟨steps, hrun⟩ := failed_of_reaches hreach hfault
      exact .inr (.inl ⟨c, steps, t, e, hmade, hrun, hq⟩)
  · have hnone := not_exists.1 hmade
    exact .inr (.inr ⟨hnone, executes_of_not_madeBy hi hcall hnone h⟩)

/-- A call instruction whose target returns goes on behind the call, with the value in the place. -/
theorem executes_of_returned (hi : f.code.instructions[f.pc]? = some i)
    (hmade : c.MadeBy setup.program s f i) {steps : Nat}
    (hrun : invokeMethod setup steps c.state c.method c.receiver? c.args = .returned t value?) :
    Executes setup ⟨s, .run f, waiting⟩ (.more (f.behindCall waiting t value?)) :=
  (executes_call_iff (hmade.step hi waiting)).2 (.inl ⟨t, value?, reaches_of_returned hrun, rfl⟩)

/-- A void method with code returns nothing, and so does every void method on a machine with the host
methods of the standard library. -/
theorem none_of_void (hmade : c.MadeBy setup.program s f i) (hvoid : c.method.returnType = .void)
    (hbody : (∃ code, c.method.body = .code code) ∨ ∃ sources, setup.Standard sources)
    (h : Reaches setup (c.start []) ⟨t, .finished value?, []⟩) : value? = none := by
  rw [← Option.not_isSome_iff_eq_none]
  rcases hbody with ⟨code, hcode⟩ | ⟨sources, hstd⟩
  -- the code of a void method can only return nothing
  · rw [Call.declared_of_code hcode h]
    exact not_not.2 hvoid
  · have hm : setup.program.HasMethod c.method := by
      cases exec_continues (congrArg Prod.snd hmade) with
      | call _ _ _ hm => exact hm
    cases Call.settles (hstd.answers hm) h with
    | own _ hdeclared =>
      rw [hdeclared]
      exact not_not.2 hvoid
    | handedOn c' t' hands =>
      -- a method that has another one called in its place is not void
      exact absurd hvoid (returnType_of_isReflective hstd.loaded hstd.library hm hands.reflective)

/-- What is reached is the first moment, or is reached from the next one. -/
theorem forall_reaches_step {P : Snapshot → Prop} (hm : P m) (hstep : step setup m = .more m')
    (h : ∀ x, Reaches setup m' x → P x) : ∀ x, Reaches setup m x → P x := by
  intro x hreach
  rcases hreach.cases_head with rfl | ⟨next, hnext, hrest⟩
  · exact hm
  · obtain rfl := Progress.more.inj (hstep.symm.trans hnext)
    exact h x hrest

/-- At its end a run stays. -/
theorem forall_reaches_finished {P : Snapshot → Prop} (hs : P ⟨s, .finished value?, []⟩) :
    ∀ x, Reaches setup ⟨s, .finished value?, []⟩ x → P x := by
  intro x hreach
  rcases hreach.cases_head with rfl | ⟨next, hnext, _⟩
  · exact hs
  · cases hnext

namespace Leftover

/-- A method that returns a value and makes no call. -/
def one : Method where
  className := "LLeftover;"
  name := "one"
  flags := .ofWords ["static"]
  params := []
  returnType := .int
  body := .code { instructions := #[.const (.register 0) ⟨1, 4⟩, .returnValue .single (.register 0)] }

/-- A void method that makes a call. -/
def quiet : Method where
  className := "LLeftover;"
  name := "quiet"
  flags := .ofWords ["static"]
  params := []
  returnType := .void
  body := .code { instructions := #[.invoke .static [] ⟨"LLeftover;", "one", [], .int⟩, .returnVoid] }

/-- A void method of the host. -/
def hosted : Method where
  className := "LLeftover;"
  name := "hosted"
  flags := .ofWords ["static", "native"]
  params := []
  returnType := .void
  body := .native

/-- A program with these methods. -/
def program : Program :=
  ClassTable.freeze ⟨[("LLeftover;",
    { flags := .ofWords [], name := "LLeftover;", methods := [one, quiet, hosted] })]⟩

/-- The host gives a value for the void method. -/
def answering : Natives :=
  Natives.standard.register "LLeftover;" "hosted" "" fun _ _ s => (s, .finish (some (.int 42)))

/-- The host gives nothing, but writes the value of the last call. -/
def writing : Natives :=
  Natives.standard.register "LLeftover;" "hosted" ""
    fun _ _ s => ({ s with lastReturn? := some (.int 42) }, .finish none)

/-- A method of the standard library that boxes an integer, declared void. -/
def voidBox : Method where
  className := "Ljava/lang/Integer;"
  name := "valueOf"
  flags := .ofWords ["static", "native"]
  params := [.int]
  returnType := .void
  body := .native

/-- A program with a class of its own under the name of one of the standard library. -/
def redefining : Program :=
  ClassTable.freeze ⟨[("Ljava/lang/Integer;",
    { flags := .ofWords [], name := "Ljava/lang/Integer;", methods := [voidBox] })]⟩

/-- The instruction that boxes an integer and expects nothing. -/
def boxing : Instruction :=
  .invoke .static [.register 0] ⟨"Ljava/lang/Integer;", "valueOf", [.int], .void⟩

/-- A frame that is about to box an integer. -/
def boxingFrame : Frame :=
  { Frame.enter one { instructions := #[boxing, .nop] } none [] with registers := ⟨#[some (.int 5)]⟩ }

/-- The instruction that calls a method of the class. -/
def callOf (method : Method) : Instruction :=
  .invoke .static [] ⟨"LLeftover;", method.name, [], .void⟩

/-- A frame that is about to call a method of the class. -/
def calling (method : Method) : Frame :=
  .enter one { instructions := #[callOf method, .nop] } none []

/-- A state in which another call has returned a value. -/
def state : State := { lastReturn? := some (.int 7) }

end Leftover

end Smali.Machine
