import Mathlib.Logic.Relation
import Smali.Proofs.Session

/-!
# Runs within runs

What the machine does never depends on work that waits further below. So a run above some waiting work goes
on like a run above none, until its value is there: a call that is made within a run is a run of its own,
and its value is handed to the work that made it.

## Key results

- `step_over`: a step does the same above other waiting work
- `Reaches.over`: so do all steps up to the end of a run
- `reaches_of_returned`, `returned_of_reaches`: what a run returns is what it comes to
- `failed_of_reaches`: a run that comes to a failure fails
- `finished_unique`: a run comes to one value only
- `returned_inner`: a run above waiting work returns no sooner than the run without it
- `reaches_caller`: the caller goes on with the value that the call returns
-/

namespace Smali.Machine

/-- The machine gets from one moment to another. -/
def Reaches (setup : Setup) : Snapshot → Snapshot → Prop :=
  Relation.ReflTransGen fun m m' => step setup m = .more m'

/-- The moment with other work waiting below. -/
def Snapshot.over (m : Snapshot) (below : List Waiting) : Snapshot :=
  { m with waiting := m.waiting ++ below }

/-- What a step comes to, with other work waiting below: a value at the end is there for that work. -/
def Progress.over (q : Progress) (below : List Waiting) : Progress :=
  match q with
  | .more m => .more (m.over below)
  | .done s value? => .more ⟨s, .finished value?, below⟩
  | .fault s e => .fault s e

variable {setup : Setup} {m m' : Snapshot} {s t : State} {value? : Option Value}

/-! ## Steps -/

/-- What follows a host method does not depend on work further below. -/
theorem follow_over (s : State) (method : Method) (reply : Reply) (waiting below : List Waiting) :
    follow s method reply (waiting ++ below) = (follow s method reply waiting).over below := by
  cases reply <;> rfl

/-- Nor does entering a call. -/
theorem enterCall_over (s : State) (method : Method) (receiver? : Option Value) (args : List Value)
    (waiting below : List Waiting) :
    enterCall setup s method receiver? args (waiting ++ below) =
      (enterCall setup s method receiver? args waiting).over below := by
  unfold enterCall
  cases s.calls.push setup.maxDepth method with
  | error e => rfl
  | ok calls =>
    cases method.body with
    | code code => rfl
    | native =>
      dsimp only
      cases setup.natives.find? method.className method.name method.params with
      | none => rfl
      | some host => exact follow_over _ method _ waiting below

/-- Nor does calling a method. -/
theorem startCall_over (s : State) (method : Method) (receiver? : Option Value) (args : List Value)
    (waiting below : List Waiting) :
    startCall setup s method receiver? args (waiting ++ below) =
      (startCall setup s method receiver? args waiting).over below := by
  unfold startCall
  split
  · rfl
  · split
    · next r _ => cases s.heap.object r <;> rfl
    · exact enterCall_over s method _ args waiting below

/-- Nor does setting a class up. -/
theorem startInit_over (s : State) (className : String) (waiting below : List Waiting) :
    startInit setup s className (waiting ++ below) = (startInit setup s className waiting).over below := by
  unfold startInit
  cases findClass setup.program className with
  | error e => rfl
  | ok c =>
    dsimp only
    split
    · rfl
    · cases c.initMethod? <;> rfl

/-- Nor does what follows an instruction. -/
theorem carryOn_over (s : State) (flow : Except Fault Flow) (i : Instruction)
    (waiting below : List Waiting) :
    carryOn s flow i (waiting ++ below) = (carryOn s flow i waiting).over below := by
  cases flow with
  | error e => rfl
  | ok flow => cases flow <;> rfl

/-- Nor does running an instruction. -/
theorem runNext_over (s : State) (f : Frame) (waiting below : List Waiting) :
    runNext setup s f (waiting ++ below) = (runNext setup s f waiting).over below := by
  unfold runNext
  split
  · split <;> rfl
  · exact carryOn_over _ _ _ waiting below

/-- Nor does handing a value to the work on top. -/
theorem resume_over (s : State) (value? : Option Value) (work : Waiting)
    (waiting below : List Waiting) :
    resume setup s value? work (waiting ++ below) = (resume setup s value? work waiting).over below := by
  cases work with
  | caller | initializer | host => rfl
  | access f i => exact carryOn_over _ _ i waiting below
  | enter method receiver? args => exact enterCall_over s method receiver? args waiting below
  | readField method | writeField method => exact follow_over _ method _ waiting below

/-- The run has come to its value. -/
def Snapshot.AtEnd (m : Snapshot) : Prop :=
  ∃ s value?, m = ⟨s, .finished value?, []⟩

/-- A step does the same above other waiting work, except at the end of a run, where the value is handed to
that work. -/
theorem step_over (hend : ¬ m.AtEnd) (below : List Waiting) :
    step setup (m.over below) = (step setup m).over below := by
  -- one case for each task; only a value with nothing waiting is at the end
  obtain ⟨s, task, waiting⟩ := m
  cases task with
  | call method receiver? args => exact startCall_over s method receiver? args waiting below
  | initClass className => exact startInit_over s className waiting below
  | run f => exact runNext_over s f waiting below
  | finished value? =>
    cases waiting with
    | nil => exact absurd ⟨s, value?, rfl⟩ hend
    | cons work rest => exact resume_over s value? work rest below
  | endless => rfl

/-- A run that goes on has not come to its value. -/
theorem not_atEnd_of_more (h : step setup m = .more m') : ¬ m.AtEnd := by
  rintro ⟨s, value?, rfl⟩
  cases h

/-- Only a run that has come to its value is done. -/
theorem eq_of_step_done (h : step setup m = .done s value?) : m = ⟨s, .finished value?, []⟩ := by
  by_cases hend : m.AtEnd
  · obtain ⟨s', value?', rfl⟩ := hend
    obtain ⟨rfl, rfl⟩ := Progress.done.inj h
    rfl
  · -- above no work at all the step would be another one
    have hover : step setup (m.over []) = (step setup m).over [] := step_over hend []
    have hsame : m.over [] = m := by simp [Snapshot.over]
    rw [hsame, h] at hover
    cases hover

/-- A step that goes on does so above other waiting work. -/
theorem step_over_more (h : step setup m = .more m') (below : List Waiting) :
    step setup (m.over below) = .more (m'.over below) := by
  rw [step_over (not_atEnd_of_more h), h]
  rfl

/-- A step above other waiting work is a step without it, unless the run is at its end. -/
theorem step_of_over (hend : ¬ m.AtEnd) {below : List Waiting}
    (h : step setup (m.over below) = .more m') :
    ∃ next, step setup m = .more next ∧ m' = next.over below := by
  rw [step_over hend] at h
  cases hstep : step setup m with
  | more next =>
    rw [hstep] at h
    exact ⟨next, rfl, (Progress.more.inj h).symm⟩
  | done s value? => exact absurd ⟨s, value?, eq_of_step_done hstep⟩ hend
  | fault =>
    rw [hstep] at h
    cases h

/-! ## Runs -/

/-- All steps up to the end of a run are the same above other waiting work. -/
theorem Reaches.over (h : Reaches setup m m') (below : List Waiting) :
    Reaches setup (m.over below) (m'.over below) := by
  -- the induction is on the steps
  induction h with
  | refl => exact .refl
  | tail _ hstep ih => exact .tail ih (step_over_more hstep below)

/-- A run that returns a value comes to it. -/
theorem reaches_of_returned {steps : Nat} (h : run setup steps m = .returned t value?) :
    Reaches setup m ⟨t, .finished value?, []⟩ := by
  -- the induction is on the bound of the run
  induction steps generalizing m with
  | zero => cases h
  | succ steps ih =>
    rw [run] at h
    split at h
    · next m' hm' => exact .head hm' (ih h)
    · next hdone =>
      obtain ⟨rfl, rfl⟩ := Outcome.returned.inj h
      rw [eq_of_step_done hdone]
      exact .refl
    · cases h

/-- A run that comes to a value returns it. -/
theorem returned_of_reaches (h : Reaches setup m ⟨t, .finished value?, []⟩) :
    ∃ steps, run setup steps m = .returned t value? := by
  -- the first step is taken off, and the rest returns
  induction h using Relation.ReflTransGen.head_induction_on with
  | refl => exact ⟨1, rfl⟩
  | head hstep _ ih =>
    obtain ⟨steps, hrun⟩ := ih
    exact ⟨steps + 1, (run_more hstep steps).trans hrun⟩

/-- A run that comes to a step that fails fails there. -/
theorem failed_of_reaches {e : Fault} (h : Reaches setup m m') (hfault : step setup m' = .fault t e) :
    ∃ steps, run setup steps m = .failed t e := by
  induction h using Relation.ReflTransGen.head_induction_on with
  | refl => exact ⟨1, by rw [run, hfault]⟩
  | head hstep _ ih =>
    obtain ⟨steps, hrun⟩ := ih
    exact ⟨steps + 1, (run_more hstep steps).trans hrun⟩

/-- A run comes to one value only. -/
theorem finished_unique {t' : State} {value?' : Option Value}
    (h : Reaches setup m ⟨t, .finished value?, []⟩) (h' : Reaches setup m ⟨t', .finished value?', []⟩) :
    t' = t ∧ value?' = value? := by
  -- steps are determined, so one of the two ends is reached from the other; but no step leads on from an end
  have huniq : Relator.RightUnique fun m m' => step setup m = .more m' :=
    fun _ _ _ hb hc => Progress.more.inj (hb.symm.trans hc)
  have hstuck {t₁ t₂ : State} {v₁ v₂ : Option Value}
      (hreach : Reaches setup ⟨t₁, .finished v₁, []⟩ ⟨t₂, .finished v₂, []⟩) : t₁ = t₂ ∧ v₁ = v₂ := by
    cases Relation.ReflTransGen.cases_head hreach with
    | inl hsame =>
      obtain ⟨rfl, htask, -⟩ := Snapshot.mk.inj hsame
      exact ⟨rfl, Task.finished.inj htask⟩
    | inr hmore =>
      obtain ⟨_, hstep, -⟩ := hmore
      cases hstep
  cases Relation.ReflTransGen.total_of_right_unique huniq h h' with
  | inl hreach =>
    obtain ⟨rfl, rfl⟩ := hstuck hreach
    exact ⟨rfl, rfl⟩
  | inr hreach => exact hstuck hreach

/-- From a moment that a run gets to, what is left of the run returns the same. -/
theorem returned_rest {steps : Nat} (h : Reaches setup m m')
    (hrun : run setup steps m = .returned t value?) :
    ∃ left ≤ steps, run setup left m' = .returned t value? := by
  -- the induction is on the steps up to the moment, each of which takes one off the bound
  induction h using Relation.ReflTransGen.head_induction_on generalizing steps with
  | refl => exact ⟨steps, Nat.le_refl steps, hrun⟩
  | head hstep _ ih =>
    cases steps with
    | zero => cases hrun
    | succ steps =>
      rw [run_more hstep] at hrun
      obtain ⟨left, hle, hleft⟩ := ih hrun
      exact ⟨left, Nat.le_succ_of_le hle, hleft⟩

/-- A run above waiting work returns no sooner than the run without it. -/
theorem returned_inner {steps : Nat} {below : List Waiting}
    (h : run setup steps (m.over below) = .returned t value?) :
    ∃ inner ≤ steps, ∃ t' value?', run setup inner m = .returned t' value?' := by
  induction steps generalizing m with
  | zero => cases h
  | succ steps ih =>
    -- at the end of the run without the work, the value is there
    by_cases hend : m.AtEnd
    · obtain ⟨s, value?', rfl⟩ := hend
      exact ⟨1, Nat.succ_le_succ (Nat.zero_le steps), s, value?', rfl⟩
    · rw [run, step_over hend] at h
      cases hstep : step setup m with
      | more next =>
        rw [hstep] at h
        obtain ⟨inner, hle, t', value?', hinner⟩ := ih h
        exact ⟨inner + 1, Nat.succ_le_succ hle, t', value?', (run_more hstep inner).trans hinner⟩
      | done s value?' => exact absurd ⟨s, value?', eq_of_step_done hstep⟩ hend
      | fault s e =>
        rw [hstep] at h
        cases h

/-- The caller goes on with the value that a call returns. -/
theorem reaches_caller {method : Method} {receiver? : Option Value} {args : List Value} {steps : Nat}
    (h : invokeMethod setup steps s method receiver? args = .returned t value?) (f : Frame)
    (waiting : List Waiting) :
    Reaches setup ⟨s, .call method receiver? args, .caller f :: waiting⟩
      ⟨{ t with lastReturn? := value? }, .run { f with pc := f.pc + 1 }, waiting⟩ :=
  .tail ((reaches_of_returned h).over (.caller f :: waiting)) rfl

end Smali.Machine
