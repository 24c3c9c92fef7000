import Smali.Proofs.Moves
import Smali.Proofs.Session

/-!
# The calls in progress

At every moment of a run the calls in progress are those that the task and the waiting work stand for, on
top of the calls that were in progress when the run started (`Balanced`). So a call that returns leaves
the list as it found it, and one that fails only adds to it, however calls, class initializers and
reflective calls are nested; and a call is only entered below the limit.

## Key results

- `move_balanced`: one step keeps the balance
- `calls_balanced`: what a call leaves of the calls in progress
-/

namespace Smali.Machine

/-- The calls in progress that waiting work stands for. -/
def Waiting.calls : Waiting → List Method
  | .caller f | .access f _ => [f.method]
  | .enter .. | .initializer _ => []
  | .host m | .readField m .. | .writeField m .. => [m]

/-- The calls in progress that a task stands for. Which call walks up a superclass chain without end is
not kept. -/
def Task.Runs : Task → List Method → Prop
  | .run f, calls => calls = [f.method]
  | .endless, calls => calls.length = 1
  | _, calls => calls = []

/-- The calls in progress are those of the task and of the waiting work, on top of `base`. -/
structure Balanced (limit : Nat) (base : CallStack) (m : Snapshot) : Prop where
  calls : ∃ own, m.task.Runs own ∧ m.state.calls = own ++ (m.waiting.flatMap Waiting.calls ++ base)
  depth : m.state.calls.length ≤ limit

/-- A step keeps the balance; at the end of the run only `base` is left, or something on top of it. -/
abbrev Progress.Balanced (limit : Nat) (base : CallStack) : Progress → Prop :=
  Progress.All (Machine.Balanced limit base) (fun s _ => s.calls = base)
    (fun s _ => base <:+ s.calls ∧ s.calls.length ≤ limit)

variable {setup : Setup} {limit : Nat} {base : CallStack} {s : State} {m : Method}
  {waiting : List Waiting}

/-! ## Leaving and entering -/

/-- A call that is left is taken off the list. -/
theorem leaveCall_balanced (hcalls : s.calls = m :: (waiting.flatMap Waiting.calls ++ base))
    (hdepth : s.calls.length ≤ limit) (value? : Option Value) :
    (leaveCall s value? waiting).Balanced limit base := by
  have htail : s.calls.pop = waiting.flatMap Waiting.calls ++ base := by
    rw [hcalls]
    rfl
  refine ⟨⟨[], rfl, htail⟩, ?_⟩
  have hlength : s.calls.pop.length = s.calls.length - 1 := List.length_tail
  show s.calls.pop.length ≤ limit
  omega

theorem suffix_of_calls (own : List Method)
    (hcalls : s.calls = own ++ (waiting.flatMap Waiting.calls ++ base)) : base <:+ s.calls := by
  rw [hcalls, ← List.append_assoc]
  exact List.suffix_append _ base

/-- What follows a host method, whose call is on top. -/
theorem follow_balanced (hcalls : s.calls = m :: (waiting.flatMap Waiting.calls ++ base))
    (hdepth : s.calls.length ≤ limit) (reply : Reply) :
    (follow s m reply waiting).Balanced limit base := by
  cases reply with
  | finish value? => exact leaveCall_balanced hcalls hdepth value?
  | fail e => exact ⟨suffix_of_calls [m] hcalls, hdepth⟩
  | call m' receiver? args => exact ⟨⟨[], rfl, hcalls⟩, hdepth⟩
  | readField owner field args => exact ⟨⟨[], rfl, hcalls⟩, hdepth⟩
  | writeField owner field args v => exact ⟨⟨[], rfl, hcalls⟩, hdepth⟩

/-- What follows an instruction, whose call is on top. -/
theorem carryOn_balanced {f : Frame} {i : Instruction} {flow : Except Fault Flow}
    (hcalls : s.calls = f.method :: (waiting.flatMap Waiting.calls ++ base))
    (hdepth : s.calls.length ≤ limit)
    (hflow : ∀ x, flow = .ok x → Continues setup.program f i x) :
    (carryOn s flow i waiting).Balanced limit base := by
  cases flow with
  | error e => exact ⟨suffix_of_calls [f.method] hcalls, hdepth⟩
  | ok x =>
    cases hflow x rfl with
    | next f' hm hc hpc => exact ⟨⟨[f.method], congrArg (fun m => [m]) hm.symm, hcalls⟩, hdepth⟩
    | jump label pc hn h => exact ⟨⟨[f.method], rfl, hcalls⟩, hdepth⟩
    | leave value? => exact leaveCall_balanced hcalls hdepth value?
    | call m receiver? args h => exact ⟨⟨[], rfl, hcalls⟩, hdepth⟩
    | needClass className h => exact ⟨⟨[], rfl, hcalls⟩, hdepth⟩
    | endless h => exact ⟨⟨[f.method], rfl, hcalls⟩, hdepth⟩

/-- A call that is entered comes on top, below the limit. -/
theorem entered_balanced {receiver? : Option Value} {args : List Value} {q : Progress}
    (h : Entered setup s m receiver? args waiting q)
    (hcalls : s.calls = waiting.flatMap Waiting.calls ++ base)
    (hdepth : s.calls.length ≤ setup.maxDepth) : q.Balanced setup.maxDepth base := by
  cases h with
  | overflow _ => exact ⟨suffix_of_calls [] hcalls, hdepth⟩
  -- the call has been put on the list before anything else changes
  | code code s' hroom hcode hs =>
    have hpushed : s'.calls = m :: s.calls := hs.calls_eq
    refine ⟨⟨[m], rfl, ?_⟩, ?_⟩
    · exact hpushed.trans (congrArg (m :: ·) hcalls)
    · show s'.calls.length ≤ setup.maxDepth
      rw [hpushed, List.length_cons]
      exact hroom
  | host reply s' hroom hs hreply =>
    have hpushed : s'.calls = m :: s.calls := hs.calls_eq
    refine follow_balanced (hpushed.trans (congrArg (m :: ·) hcalls)) ?_ reply
    rw [hpushed, List.length_cons]
    exact hroom

/-! ## Steps and runs -/

/-- One step keeps the balance. -/
theorem move_balanced {m : Snapshot} {q : Progress} (h : Move setup m q)
    (hm : Balanced setup.maxDepth base m) : q.Balanced setup.maxDepth base := by
  obtain ⟨⟨own, hown, hcalls⟩, hdepth⟩ := hm
  -- the task fixes `own`: the method of the frame while one runs, nothing between calls
  cases h with
  | refuse s m receiver? args waiting e he | unknown s className waiting e he
  | unended s f waiting e he => exact ⟨suffix_of_calls own hcalls, hdepth⟩
  | prepare s m ref args waiting className => exact ⟨⟨own, hown, hcalls⟩, hdepth⟩
  | call s m receiver? receiver?' args waiting q h =>
    obtain rfl : own = [] := hown
    exact entered_balanced h hcalls hdepth
  | enter s value? m receiver? args waiting q h =>
    obtain rfl : own = [] := hown
    exact entered_balanced h hcalls hdepth
  | ready s className waiting c hc hstatus => exact ⟨⟨own, hown, hcalls⟩, hdepth⟩
  | beginInit s s' className waiting c m fields hc hstatus hs hfields hm =>
    have hsame := hs.calls_eq
    exact ⟨⟨own, hown, hsame.trans hcalls⟩, hsame.symm ▸ hdepth⟩
  | completeInit s s' className waiting c fields hc hstatus hs hfields hm =>
    have hsame := hs.calls_eq
    exact ⟨⟨own, hown, hsame.trans hcalls⟩, hsame.symm ▸ hdepth⟩
  | ended s f waiting =>
    obtain rfl : own = [f.method] := hown
    exact leaveCall_balanced hcalls hdepth none
  | exec s f waiting i s' flow hi hs hflow hplain =>
    obtain rfl : own = [f.method] := hown
    have hsame := hs.calls_eq
    exact carryOn_balanced (hsame.trans hcalls) (hsame.symm ▸ hdepth) hflow
  | access s value? f i waiting s' flow hs hflow hplain =>
    obtain rfl : own = [] := hown
    have hsame := hs.calls_eq
    exact carryOn_balanced (hsame.trans hcalls) (hsame.symm ▸ hdepth)
      fun x hx => (hflow x hx).continues i
  | caller s value? f waiting =>
    obtain rfl : own = [] := hown
    exact ⟨⟨[f.method], rfl, hcalls⟩, hdepth⟩
  | initializer s value? id waiting =>
    obtain rfl : own = [] := hown
    exact ⟨⟨[], rfl, hcalls⟩, hdepth⟩
  | host s value? m waiting =>
    obtain rfl : own = [] := hown
    exact leaveCall_balanced hcalls hdepth value?
  | readField s value? m owner field args waiting s' reply hs hreply =>
    obtain rfl : own = [] := hown
    have hsame := hs.calls_eq
    exact follow_balanced (hsame.trans hcalls) (hsame.symm ▸ hdepth) reply
  | writeField s value? m owner field args v waiting s' reply hs hreply =>
    obtain rfl : own = [] := hown
    have hsame := hs.calls_eq
    exact follow_balanced (hsame.trans hcalls) (hsame.symm ▸ hdepth) reply
  | done s value? =>
    obtain rfl : own = [] := hown
    exact hcalls
  | endless s waiting => exact ⟨⟨own, hown, hcalls⟩, hdepth⟩

/-- A run of any length keeps the balance. -/
theorem invokeMethod_balanced (setup : Setup) (hn : setup.natives = .standard)
    (hs : s.calls.length ≤ setup.maxDepth) (m : Method) (receiver? : Option Value)
    (args : List Value) (steps : Nat) :
    (invokeMethod setup steps s m receiver? args).All (Balanced setup.maxDepth s.calls)
      (fun s' _ => s'.calls = s.calls)
      (fun s' _ => s.calls <:+ s'.calls ∧ s'.calls.length ≤ setup.maxDepth) :=
  run_all (fun m hm => move_balanced (step_move hn m) hm) steps ⟨⟨[], rfl, rfl⟩, hs⟩

/-- A call from within a run keeps the calls that were in progress: after its return they are all there is,
at any other moment there may be more on top of them, and never more than the limit. A call from outside
leaves none when it fails. -/
theorem calls_balanced (p : Program) (maxDepth : Nat) (s : State) (hs : s.calls.length ≤ maxDepth)
    (m : Method) (receiver? : Option Value) (args : List Value) (steps : Nat) :
    let setup : Setup := { program := p, maxDepth }
    (∀ s' value?, invokeMethod setup steps s m receiver? args = .returned s' value? →
      s'.calls = s.calls) ∧
    (∀ s' e, invokeMethod setup steps s m receiver? args = .failed s' e → s.calls <:+ s'.calls) ∧
    (∀ m', invokeMethod setup steps s m receiver? args = .unfinished m' →
      s.calls <:+ m'.state.calls) ∧
    (invokeMethod setup steps s m receiver? args).state.depth ≤ maxDepth ∧
    ∀ s' e, invoke setup steps s m receiver? args = .failed s' e → s'.calls = [] := by
  intro setup
  have hrun := invokeMethod_balanced setup rfl hs m receiver? args steps
  -- what a run comes to is read off the balance
  refine ⟨fun s' value? h => ?_, fun s' e h => ?_, fun m' h => ?_, ?_, fun s' e h => ?_⟩
  · rw [h] at hrun
    exact hrun
  · rw [h] at hrun
    exact hrun.1
  · rw [h] at hrun
    obtain ⟨⟨own, _, hcalls⟩, _⟩ := hrun
    exact suffix_of_calls own hcalls
  · cases h : invokeMethod setup steps s m receiver? args with
    | returned s' value? =>
      rw [h] at hrun
      exact (congrArg List.length hrun).trans_le hs
    | failed s' e =>
      rw [h] at hrun
      exact hrun.2
    | unfinished m' =>
      rw [h] at hrun
      exact hrun.depth
  -- the report of a failure forgets all calls
  · unfold invoke at h
    split at h
    · next s'' e' _ =>
      obtain ⟨rfl, _⟩ := Outcome.failed.inj h
      rfl
    · next hother => exact absurd h (hother s' e)

/-- A method that does nothing but call itself. -/
def selfCall : Method where
  className := "LLoop;"
  name := "again"
  flags := .ofWords ["static"]
  params := []
  returnType := .void
  body := .code { instructions := #[.invoke .static [] ⟨"LLoop;", "again", [], .void⟩] }

/-- The program with that method. -/
def selfCalling : Program :=
  ClassTable.freeze ⟨[("LLoop;", { flags := .ofWords [], name := "LLoop;", methods := [selfCall] })]⟩

/-- The method is stopped at the limit, on top of the call that was in progress before. -/
theorem selfCall_stopped :
    let s : State := { calls := [selfCall] }
    s.calls.length ≤ 3 ∧
      ∃ s', invokeMethod { program := selfCalling, maxDepth := 3 } 20 s selfCall none [] =
        .failed s' (.stackOverflow 3) ∧ s.calls <:+ s'.calls ∧ s'.depth ≤ 3 := by
  intro s
  obtain ⟨-, hfailed, -, hdepth, -⟩ :=
    calls_balanced selfCalling 3 s (by decide) selfCall none [] 20
  have h : invokeMethod { program := selfCalling, maxDepth := 3 } 20 s selfCall none [] =
      .failed (invokeMethod { program := selfCalling, maxDepth := 3 } 20 s selfCall none []).state
        (.stackOverflow 3) := by decide +kernel
  exact ⟨by decide, _, h, hfailed _ _ h, hdepth⟩

end Smali.Machine
