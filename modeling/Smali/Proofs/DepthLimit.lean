import Smali.Proofs.Session

/-!
# The limit on nested calls

The limit is looked at in one place, when a call is entered. There it either ends the run or lets it go on
as any higher limit would. So two runs that differ in the limit alone go through the same snapshots, up to
the moment at which the lower limit is hit.

## Key results

- `step_raiseLimit`: a step hits the limit or does not depend on it
- `invoke_raiseLimit`: a call that does not hit the limit comes to the same under every higher limit
-/

namespace Smali.Machine

/-- The same machine with another limit on nested calls. -/
def Setup.withLimit (setup : Setup) (limit : Nat) : Setup :=
  { setup with maxDepth := limit }

/-- The step ends the run because too many calls are in progress. -/
def Progress.Overflows (q : Progress) (limit : Nat) : Prop :=
  ∃ s, q = .fault s (.stackOverflow limit)

variable {setup : Setup} {limit : Nat}

/-! ## Steps -/

theorem push_raiseLimit (hlimit : setup.maxDepth ≤ limit) (calls : CallStack) (m : Method) :
    calls.push setup.maxDepth m = .error (.stackOverflow setup.maxDepth) ∨
      calls.push limit m = calls.push setup.maxDepth m := by
  unfold CallStack.push
  by_cases hdepth : calls.length < setup.maxDepth
  · have hraised : calls.length < limit := by omega
    rw [if_pos hdepth, if_pos hraised]
    exact .inr rfl
  · rw [if_neg hdepth]
    exact .inl rfl

theorem enterCall_raiseLimit (hlimit : setup.maxDepth ≤ limit) (s : State) (m : Method)
    (receiver? : Option Value) (args : List Value) (waiting : List Waiting) :
    (enterCall setup s m receiver? args waiting).Overflows setup.maxDepth ∨
      enterCall (setup.withLimit limit) s m receiver? args waiting =
        enterCall setup s m receiver? args waiting := by
  cases push_raiseLimit hlimit s.calls m with
  | inl hfull =>
    refine .inl ⟨s, ?_⟩
    rw [enterCall, hfull]
  | inr hsame =>
    have hsame : s.calls.push (setup.withLimit limit).maxDepth m = s.calls.push setup.maxDepth m :=
      hsame
    refine .inr ?_
    rw [enterCall, enterCall, hsame]
    rfl

theorem startCall_raiseLimit (hlimit : setup.maxDepth ≤ limit) (s : State) (m : Method)
    (receiver? : Option Value) (args : List Value) (waiting : List Waiting) :
    (startCall setup s m receiver? args waiting).Overflows setup.maxDepth ∨
      startCall (setup.withLimit limit) s m receiver? args waiting =
        startCall setup s m receiver? args waiting := by
  by_cases habstract : m.isAbstract
  · refine .inr ?_
    rw [startCall, startCall, if_pos habstract, if_pos habstract]
  · rw [startCall, startCall, if_neg habstract, if_neg habstract]
    split
    · exact .inr rfl
    · exact enterCall_raiseLimit hlimit s m _ args waiting

/-- A step hits the limit or does not depend on it. -/
theorem step_raiseLimit (hlimit : setup.maxDepth ≤ limit) (m : Snapshot) :
    (step setup m).Overflows setup.maxDepth ∨ step (setup.withLimit limit) m = step setup m := by
  obtain ⟨s, task, waiting⟩ := m
  cases task with
  | call m receiver? args => exact startCall_raiseLimit hlimit s m receiver? args waiting
  | initClass | run | endless => exact .inr rfl
  | finished value? =>
    cases waiting with
    | nil => exact .inr rfl
    | cons work rest =>
      -- of the waiting work only a call that has waited for a class is entered
      cases work with
      | enter m receiver? args => exact enterCall_raiseLimit hlimit s m receiver? args rest
      | caller | access | initializer | host | readField | writeField => exact .inr rfl

/-! ## Runs -/

/-- A run hits the limit or does not depend on it. -/
theorem run_raiseLimit (hlimit : setup.maxDepth ≤ limit) (steps : Nat) (m : Snapshot) :
    (∃ s, run setup steps m = .failed s (.stackOverflow setup.maxDepth)) ∨
      run (setup.withLimit limit) steps m = run setup steps m := by
  induction steps generalizing m with
  | zero => exact .inr rfl
  | succ steps ih =>
    cases step_raiseLimit hlimit m with
    | inl hfull =>
      obtain ⟨s, hs⟩ := hfull
      refine .inl ⟨s, ?_⟩
      rw [run, hs]
    | inr hsame =>
      rw [run, run, hsame]
      cases step setup m with
      | more m' => exact ih m'
      | done s value? => exact .inr rfl
      | fault s e => exact .inr rfl

/-- A call from outside that does not hit the limit comes, step by step, to the same under every higher
limit: the same value or fault, and the same state. -/
theorem invoke_raiseLimit (setup : Setup) {limit : Nat} (hlimit : setup.maxDepth ≤ limit)
    (steps : Nat) (s : State) (m : Method) (receiver? : Option Value) (args : List Value)
    (h : ∀ s' hit, invoke setup steps s m receiver? args ≠ .failed s' (.stackOverflow hit)) :
    invoke (setup.withLimit limit) steps s m receiver? args =
      invoke setup steps s m receiver? args := by
  cases run_raiseLimit hlimit steps ⟨s, .call m receiver? args, []⟩ with
  | inl hfull =>
    -- the report of a failure keeps its cause
    obtain ⟨s', hs'⟩ := hfull
    have hfailed : invoke setup steps s m receiver? args =
        .failed (reportFailure s' m (.stackOverflow setup.maxDepth))
          (.stackOverflow setup.maxDepth) := by
      rw [invoke, invokeMethod, hs']
    exact absurd hfailed (h _ _)
  | inr hsame => rw [invoke, invoke, invokeMethod, invokeMethod, hsame]

/-! ## A method that calls another one -/

namespace Nested

/-- A method without a call. -/
def inner : Method where
  className := "LNested;"
  name := "inner"
  flags := .ofWords ["static"]
  params := []
  returnType := .int
  body := .code { instructions := #[.const (.register 0) ⟨7, 4⟩, .returnValue .single (.register 0)] }

/-- A method that returns what the other one does. -/
def outer : Method where
  className := "LNested;"
  name := "outer"
  flags := .ofWords ["static"]
  params := []
  returnType := .int
  body := .code { instructions := #[
    .invoke .static [] ⟨"LNested;", "inner", [], .int⟩, .moveResult .single (.register 0),
    .returnValue .single (.register 0)] }

/-- The program with the two methods. -/
def program : Program :=
  ClassTable.freeze ⟨[("LNested;",
    { flags := .ofWords [], name := "LNested;", methods := [inner, outer] })]⟩

end Nested

open Nested in
/-- Two nested calls hit a limit of one; what they come to with a limit of two, they come to with more. -/
theorem nested_raiseLimit :
    (∃ s, invoke { program, maxDepth := 1 } 10 {} outer none [] = .failed s (.stackOverflow 1)) ∧
    invoke { program, maxDepth := 2 } 10 {} outer none [] =
      .returned { lastReturn? := some (.int 7) } (some (.int 7)) ∧
    invoke { program, maxDepth := 100 } 10 {} outer none [] =
      .returned { lastReturn? := some (.int 7) } (some (.int 7)) := by
  have hone : invoke { program, maxDepth := 1 } 10 {} outer none [] =
      .failed (invoke { program, maxDepth := 1 } 10 {} outer none []).state (.stackOverflow 1) := by
    decide +kernel
  have htwo : invoke { program, maxDepth := 2 } 10 {} outer none [] =
      .returned { lastReturn? := some (.int 7) } (some (.int 7)) := by
    decide +kernel
  have hmore : invoke { program, maxDepth := 100 } 10 {} outer none [] =
      invoke { program, maxDepth := 2 } 10 {} outer none [] := by
    refine invoke_raiseLimit { program, maxDepth := 2 } (by decide) 10 {} outer none [] ?_
    intro s' hit h
    rw [htwo] at h
    cases h
  exact ⟨⟨_, hone⟩, htwo, hmore.trans htwo⟩

end Smali.Machine
