import Mathlib.Logic.Relation
import Smali.Proofs.Flow
import Smali.Proofs.Session

/-!
# The execution of one instruction

An instruction may take many steps: the call that it makes, or the class that it needs, is worked on while
the frame waits, and the instruction goes on when that is finished. It is over when no more work waits than
before it was begun (`Executes`); until then it is under way (`Underway`).

A step adds to the waiting work or takes up its first piece. So while an instruction is under way its frame
lies untouched right above the work that waited before, and the instruction ends in its first step or when
the frame is taken up again.

## Key results

- `step_held`: a piece of work waits on after a step, or it is taken up
- `underway_cases`: where the frame is while its instruction is under way
- `executes_more`: how an instruction ends unless it fails
-/

namespace Smali.Machine

/-- A step after which more work waits than there is in `below`. -/
def Inside (setup : Setup) (below : List Waiting) (m m' : Snapshot) : Prop :=
  step setup m = .more m' ∧ below.length < m'.waiting.length

/-- The moment belongs to the execution of the instruction that is next at the start. -/
def Underway (setup : Setup) (start m : Snapshot) : Prop :=
  Relation.ReflTransGen (Inside setup start.waiting) start m

/-- The execution of the instruction that is next at the start comes to this. -/
def Executes (setup : Setup) (start : Snapshot) (q : Progress) : Prop :=
  ∃ m, Underway setup start m ∧ step setup m = q ∧
    ∀ m', q = .more m' → m'.waiting.length ≤ start.waiting.length

/-- The work waits to go on with an instruction of a frame. -/
inductive Waiting.Holds (f : Frame) (i : Instruction) : Waiting → Prop
  | caller : Holds f i (.caller f)
  | access : Holds f i (.access f i)

variable {setup : Setup} {s : State} {f : Frame} {i : Instruction} {waiting : List Waiting}
  {m m' : Snapshot}

/-! ## The waiting work -/

/-- The step leaves this work waiting. -/
abbrev Progress.Above (waiting : List Waiting) : Progress → Prop :=
  Progress.All (waiting <:+ ·.waiting) (fun _ _ => True) (fun _ _ => True)

theorem follow_above (s : State) (method : Method) (reply : Reply) (waiting : List Waiting) :
    (follow s method reply waiting).Above waiting := by
  cases reply with
  | finish value? => exact List.suffix_refl waiting
  | fail e => trivial
  | call | readField | writeField => exact List.suffix_cons _ waiting

theorem enterCall_above (setup : Setup) (s : State) (method : Method) (receiver? : Option Value)
    (args : List Value) (waiting : List Waiting) :
    (enterCall setup s method receiver? args waiting).Above waiting := by
  unfold enterCall
  split
  · trivial
  · dsimp only
    split
    · exact List.suffix_refl waiting
    · split
      · trivial
      · exact follow_above _ method _ waiting

theorem startCall_above (setup : Setup) (s : State) (method : Method) (receiver? : Option Value)
    (args : List Value) (waiting : List Waiting) :
    (startCall setup s method receiver? args waiting).Above waiting := by
  unfold startCall
  split
  · trivial
  · split
    · split
      · exact List.suffix_cons _ waiting
      · trivial
    · exact enterCall_above setup s method _ args waiting

theorem startInit_above (setup : Setup) (s : State) (className : String) (waiting : List Waiting) :
    (startInit setup s className waiting).Above waiting := by
  unfold startInit
  split
  · trivial
  · dsimp only
    split
    · exact List.suffix_refl waiting
    · split
      · exact List.suffix_cons _ waiting
      · exact List.suffix_refl waiting

theorem carryOn_above (s : State) (flow : Except Fault Flow) (i : Instruction)
    (waiting : List Waiting) : (carryOn s flow i waiting).Above waiting := by
  cases flow with
  | error e => trivial
  | ok flow =>
    cases flow with
    | call | needClass => exact List.suffix_cons _ waiting
    | next | jump | leave | endless => exact List.suffix_refl waiting

theorem runNext_above (setup : Setup) (s : State) (f : Frame) (waiting : List Waiting) :
    (runNext setup s f waiting).Above waiting := by
  unfold runNext
  split
  · split
    · exact List.suffix_refl waiting
    · trivial
  · exact carryOn_above _ _ _ waiting

theorem resume_above (setup : Setup) (s : State) (value? : Option Value) (work : Waiting)
    (waiting : List Waiting) : (resume setup s value? work waiting).Above waiting := by
  cases work with
  | caller | initializer | host => exact List.suffix_refl waiting
  | access f i => exact carryOn_above _ _ i waiting
  | enter method receiver? args => exact enterCall_above setup s method receiver? args waiting
  | readField method | writeField method => exact follow_above _ method _ waiting

/-- A step leaves all the waiting work where it is, or takes up its first piece. -/
theorem step_above (h : step setup m = .more m') : m.waiting <:+ m'.waiting ∨
    ∃ value? work rest, m = ⟨m.state, .finished value?, work :: rest⟩ ∧ rest <:+ m'.waiting := by
  obtain ⟨s, task, waiting⟩ := m
  have habove {waiting : List Waiting} {q : Progress} (hq : q.Above waiting) (hq' : q = .more m') :
      waiting <:+ m'.waiting := by
    rw [hq'] at hq
    exact hq
  cases task with
  | call method receiver? args => exact .inl (habove (startCall_above setup s method _ _ waiting) h)
  | initClass className => exact .inl (habove (startInit_above setup s className waiting) h)
  | run f => exact .inl (habove (runNext_above setup s f waiting) h)
  | finished value? =>
    cases waiting with
    | nil => cases h
    | cons work rest =>
      exact .inr ⟨value?, work, rest, rfl, habove (resume_above setup s value? work rest) h⟩
  | endless =>
    obtain rfl := Progress.more.inj h
    exact .inl (List.suffix_refl waiting)

/-- A piece of work waits on after a step, or it is the piece that is taken up. -/
theorem step_held {front : List Waiting} {work : Waiting} (h : step setup m = .more m')
    (hwaiting : m.waiting = front ++ work :: waiting) :
    (∃ front', m'.waiting = front' ++ work :: waiting) ∨
      ∃ value?, m = ⟨m.state, .finished value?, work :: waiting⟩ := by
  rcases step_above h with ⟨more, habove⟩ | ⟨value?, first, rest, hm, more, habove⟩
  · exact .inl ⟨more ++ front, by rw [← habove, hwaiting, List.append_assoc]⟩
  · have hrest : first :: rest = front ++ work :: waiting := by
      rw [← hwaiting, hm]
    cases front with
    | nil =>
      obtain ⟨rfl, rfl⟩ := List.cons.inj hrest
      exact .inr ⟨value?, hm⟩
    | cons _ front =>
      have htail : rest = front ++ work :: waiting := (List.cons.inj hrest).2
      exact .inl ⟨more ++ front, by rw [← habove, htail, List.append_assoc]⟩

/-! ## Where the frame is -/

/-- The first step of an instruction. -/
theorem step_run (setup : Setup) (hi : f.code.instructions[f.pc]? = some i) (s : State)
    (waiting : List Waiting) : ∃ line, step setup ⟨s, .run f, waiting⟩ =
      carryOn (exec setup.program (s.log .trace line) f i).1
        (exec setup.program (s.log .trace line) f i).2 i waiting := by
  refine ⟨fun _ => "".pushn '\t' s.depth ++ "exec " ++ i.dump, ?_⟩
  show runNext setup s f waiting = _
  rw [runNext, hi]

/-- What waits after the first step: either nothing new, or the frame. -/
theorem carryOn_waiting {p : Program} {flow : Except Fault Flow}
    (hflow : ∀ x, flow = .ok x → Continues p f i x) (h : carryOn s flow i waiting = .more m') :
    m'.waiting = waiting ∨ ∃ work, m'.waiting = work :: waiting ∧ work.Holds f i := by
  cases flow with
  | error e => cases h
  | ok x =>
    cases hflow x rfl with
    | call => exact .inr ⟨.caller f, by rw [← Progress.more.inj h], .caller⟩
    | needClass => exact .inr ⟨.access f i, by rw [← Progress.more.inj h], .access⟩
    | next | jump | leave | endless => exact .inl (by rw [← Progress.more.inj h])

/-- Taken up again, the frame does not wait any more. -/
theorem resume_waiting {value? : Option Value} {work : Waiting} (hwork : work.Holds f i)
    (h : resume setup s value? work waiting = .more m') : m'.waiting = waiting := by
  cases hwork with
  | caller => rw [← Progress.more.inj h]
  | access =>
    replace h : carryOn (access setup.program s f i).1 (access setup.program s f i).2 i waiting =
      .more m' := h
    cases hflow : (access setup.program s f i).2 with
    | error e =>
      rw [hflow] at h
      cases h
    | ok x =>
      rw [hflow] at h
      cases access_resumes hflow with
      | next | endless => rw [← Progress.more.inj h]

/-- While an instruction is under way its frame waits, as it was, right above the work that waited
before. -/
theorem underway_cases (hi : f.code.instructions[f.pc]? = some i)
    (h : Underway setup ⟨s, .run f, waiting⟩ m) : m = ⟨s, .run f, waiting⟩ ∨
      ∃ front work, m.waiting = front ++ work :: waiting ∧ work.Holds f i := by
  -- the induction is on the steps taken; only the piece above the frame changes
  induction h with
  | refl => exact .inl rfl
  | @tail m m' _ hstep ih =>
    obtain ⟨hstep, hinside⟩ := hstep
    refine .inr ?_
    rcases ih with rfl | ⟨front, work, hwaiting, hwork⟩
    · obtain ⟨line, hrun⟩ := step_run setup hi s waiting
      rw [hrun] at hstep
      rcases carryOn_waiting (fun x hx => exec_continues hx) hstep with hsame | ⟨work, hmore, hwork⟩
      · rw [hsame] at hinside
        exact absurd hinside (Nat.lt_irrefl _)
      · exact ⟨[], work, hmore, hwork⟩
    · rcases step_held hstep hwaiting with ⟨front', hheld⟩ | ⟨value?, hm⟩
      · exact ⟨front', work, hheld, hwork⟩
      · -- the frame itself is taken up, so the instruction is not under way any more
        rw [hm] at hstep
        rw [resume_waiting hwork hstep] at hinside
        exact absurd hinside (Nat.lt_irrefl _)

/-- What an instruction comes to that is over after its first step. -/
theorem executes_first {start : Snapshot} {q : Progress} (h : Executes setup start q)
    (hover : ∀ m', step setup start = .more m' → m'.waiting.length ≤ start.waiting.length) :
    step setup start = q := by
  obtain ⟨m, hm, hstep, _⟩ := h
  rcases Relation.ReflTransGen.cases_head hm with rfl | ⟨m', ⟨hfirst, hinside⟩, _⟩
  · exact hstep
  · exact absurd hinside (Nat.not_lt_of_le (hover m' hfirst))

/-- An instruction that does not fail ends in its first step, or when its frame is taken up again. -/
theorem executes_more (hi : f.code.instructions[f.pc]? = some i)
    (h : Executes setup ⟨s, .run f, waiting⟩ (.more m')) :
    m'.waiting = waiting ∧ (step setup ⟨s, .run f, waiting⟩ = .more m' ∨
      ∃ s₁ value? work, Underway setup ⟨s, .run f, waiting⟩ ⟨s₁, .finished value?, work :: waiting⟩ ∧
        work.Holds f i ∧ resume setup s₁ value? work waiting = .more m') := by
  obtain ⟨m, hm, hstep, hover⟩ := h
  have hlength : m'.waiting.length ≤ waiting.length := hover m' rfl
  rcases underway_cases hi hm with rfl | ⟨front, work, hwaiting, hwork⟩
  · refine ⟨?_, .inl hstep⟩
    obtain ⟨line, hrun⟩ := step_run setup hi s waiting
    rw [hrun] at hstep
    rcases carryOn_waiting (fun x hx => exec_continues hx) hstep with hsame | ⟨work, hmore, _⟩
    · exact hsame
    · rw [hmore, List.length_cons] at hlength
      omega
  · rcases step_held hstep hwaiting with ⟨front', hheld⟩ | ⟨value?, heq⟩
    · rw [hheld, List.length_append, List.length_cons] at hlength
      omega
    · rw [heq] at hstep hm
      exact ⟨resume_waiting hwork hstep, .inr ⟨_, value?, work, hm, hwork, hstep⟩⟩

end Smali.Machine
