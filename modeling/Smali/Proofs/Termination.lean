import Smali.Proofs.Reach

/-!
# Code that only jumps forward

If every label stands behind the instructions that name it, the code of a call comes to its end as soon as
what it calls does. What it calls is one call deeper, and the number of nested calls is limited: so every
call ends, with a value or with a fault. The set-up of a class does not count as a call. But the
initializer that it calls does, and has no receiver whose class would have to be set up before.

`Completes` says of a snapshot that the work in front of some waiting work gets done. The proof goes by the
number of calls that may still be entered, and inside of a call by the number of instructions ahead.

## Key results

- `run_completes`: the code of a call completes if calls made from there do
- `terminating`: every call and every set-up of a class completes
- `invoke_ends`: every call from outside comes to an end
-/

namespace Smali

/-- Every label stands behind the instructions that name it. -/
def Code.Forward (c : Code) : Prop :=
  ∀ pc i label target, c.instructions[pc]? = some i → c.Names i label →
    c.labels.get? label = some target → pc < target

/-- The labels that an instruction names. -/
def Code.namesOf (c : Code) (i : Instruction) : List String :=
  match i with
  | .packedSwitch _ table => ((c.switchTables.get? table).map SwitchTable.labels).getD []
  | i => i.branchLabel?.toList

theorem Code.names_iff {c : Code} {i : Instruction} {label : String} :
    c.Names i label ↔ label ∈ c.namesOf i := by
  unfold Code.Names Code.namesOf
  cases i with
  | packedSwitch src table =>
    cases ht : c.switchTables.get? table <;> simp [Instruction.branchLabel?, ht]
  | _ => simp

instance (c : Code) : Decidable c.Forward :=
  decidable_of_iff (∀ x ∈ c.instructions.toList.zipIdx, ∀ label ∈ c.namesOf x.1,
      ∀ target ∈ c.labels.get? label, x.2 < target) <| by
    unfold Code.Forward
    simp only [Code.names_iff]
    constructor
    · intro h pc i label target hi hlabel
      exact h (i, pc) (List.mem_zipIdx_iff_getElem?.2 (by simpa using hi)) label hlabel target
    · rintro h ⟨i, pc⟩ hi label hlabel target
      exact h pc i label target (by simpa using List.mem_zipIdx_iff_getElem?.1 hi) hlabel

/-- The code of a method only jumps forward, if there is any. -/
abbrev Method.Forward (m : Method) : Prop :=
  m.CodeAll Code.Forward

namespace Machine

/-- All methods in reach only jump forward. -/
abbrev State.Forward (p : Program) (s : State) : Prop :=
  s.CodeAll p Code.Forward

/-! ## Work that gets done -/

/-- The run fails, or gets to where a value is handed to `waiting`, in a state as `post` says. -/
inductive Completes (setup : Setup) (waiting : List Waiting) (post : State → Prop) : Snapshot → Prop
  | finished (s : State) (value? : Option Value) (h : post s) :
    Completes setup waiting post ⟨s, .finished value?, waiting⟩
  | fault (m : Snapshot) (s : State) (e : Fault) (h : step setup m = .fault s e) :
    Completes setup waiting post m
  | more (m m' : Snapshot) (h : step setup m = .more m') (hrest : Completes setup waiting post m') :
    Completes setup waiting post m

/-- What a step comes to fails or completes. -/
abbrev Progress.Completes (setup : Setup) (waiting : List Waiting) (post : State → Prop) :
    Progress → Prop :=
  Progress.All (Machine.Completes setup waiting post) (fun _ _ => False) (fun _ _ => True)

variable {setup : Setup} {waiting waiting' : List Waiting} {post post' : State → Prop} {m : Snapshot}

/-- A snapshot completes if each move that may be made from it does. -/
theorem completes_of_move (hn : setup.natives = .standard)
    (h : ∀ q, Move setup m q → q.Completes setup waiting post) : Completes setup waiting post m := by
  have hq := h (step setup m) (step_move hn m)
  cases hstep : step setup m with
  | more m' =>
    rw [hstep] at hq
    exact .more m m' hstep hq
  | done s value? =>
    rw [hstep] at hq
    exact hq.elim
  | fault s e => exact .fault m s e hstep

/-- Work is done one after the other. -/
theorem Completes.andThen (h : Completes setup waiting post m)
    (hrest : ∀ s value?, post s → Completes setup waiting' post' ⟨s, .finished value?, waiting⟩) :
    Completes setup waiting' post' m := by
  induction h with
  | finished s value? h => exact hrest s value? h
  | fault m s e h => exact .fault m s e h
  | more m m' h _ ih => exact .more m m' h ih

/-- If nothing waits, the run comes to an end. -/
theorem Completes.run_ends (h : Completes setup [] post m) :
    ∃ steps s, (run setup steps m).ended? = some s := by
  induction h with
  | finished s value? h => exact ⟨1, s, rfl⟩
  | fault m s e h =>
    refine ⟨1, s, ?_⟩
    rw [run, h]
    rfl
  | more m m' h _ ih =>
    obtain ⟨steps, s, hs⟩ := ih
    refine ⟨steps + 1, s, ?_⟩
    rw [run, h]
    exact hs

/-! ## Calls and set-ups of classes -/

/-- The state after a call or a set-up: the calls in progress are as before, and still no method is in reach
that jumps back. -/
structure After (p : Program) (calls : CallStack) (s : State) : Prop where
  calls : s.calls = calls
  forward : s.Forward p

/-- Calls and set-ups of classes complete where no more than `room` calls may still be entered. -/
structure Terminating (setup : Setup) (room : Nat) : Prop where
  call : ∀ s m receiver? args waiting, s.Forward setup.program → m.Forward →
    setup.maxDepth - s.calls.length ≤ room →
      Completes setup waiting (After setup.program s.calls) ⟨s, .call m receiver? args, waiting⟩
  initClass : ∀ s className waiting, s.Forward setup.program →
    setup.maxDepth - s.calls.length ≤ room →
      Completes setup waiting (After setup.program s.calls) ⟨s, .initClass className, waiting⟩

section Calls

variable {room : Nat} {s : State} {calls : CallStack} {f : Frame} {i : Instruction} {method : Method}

theorem leaveCall_completes (hcalls : s.calls = method :: calls) (hs : s.Forward setup.program)
    (value? : Option Value) :
    (leaveCall s value? waiting).Completes setup waiting (After setup.program calls) := by
  refine .finished _ value? ⟨?_, hs⟩
  show s.calls.tail = calls
  rw [hcalls, List.tail_cons]

/-! ## Code -/

/-- From every place behind that of the frame the code completes. -/
def CompletesBehind (setup : Setup) (waiting : List Waiting) (method : Method) (calls : CallStack)
    (f : Frame) : Prop :=
  ∀ s f', s.calls = method :: calls → s.Forward setup.program → f'.code = f.code → f.pc < f'.pc →
    Completes setup waiting (After setup.program calls) ⟨s, .run f', waiting⟩

/-- So it does from the instruction behind that of the frame. -/
theorem CompletesBehind.next (hbehind : CompletesBehind setup waiting method calls f)
    (hcalls : s.calls = method :: calls) (hs : s.Forward setup.program) {f' : Frame}
    (hcode : f'.code = f.code) (hpc : f'.pc = f.pc) :
    Completes setup waiting (After setup.program calls)
      ⟨s, .run { f' with pc := f'.pc + 1 }, waiting⟩ := by
  refine hbehind s { f' with pc := f'.pc + 1 } hcalls hs hcode ?_
  show f.pc < f'.pc + 1
  omega

/-- A frame goes on with the next instruction once a field is touched. -/
theorem resume_completes (hp : setup.program.Acyclic)
    (hbehind : CompletesBehind setup waiting method calls f) (hcalls : s.calls = method :: calls)
    (hs : s.Forward setup.program) {flow : Except Fault Flow}
    (hflow : ∀ x, flow = .ok x → Resumes setup.program f x) :
    (carryOn s flow i waiting).Completes setup waiting (After setup.program calls) := by
  cases flow with
  | error e => trivial
  | ok x =>
    cases hflow x rfl with
    | next f' hm hc hpc => exact hbehind.next hcalls hs hc hpc
    | endless h => exact absurd hp h

theorem carryOn_completes (hn : setup.natives = .standard) (hp : setup.program.Acyclic)
    (hinner : Terminating setup room) (hroom : setup.maxDepth - (calls.length + 1) ≤ room)
    (hcode : f.code.Forward) (hi : f.code.instructions[f.pc]? = some i)
    (hbehind : CompletesBehind setup waiting method calls f) (hcalls : s.calls = method :: calls)
    (hs : s.Forward setup.program) {flow : Except Fault Flow}
    (hflow : ∀ x, flow = .ok x → Continues setup.program f i x) :
    (carryOn s flow i waiting).Completes setup waiting (After setup.program calls) := by
  have hdepth : setup.maxDepth - s.calls.length ≤ room := by
    rw [hcalls, List.length_cons]
    exact hroom
  cases flow with
  | error e => trivial
  | ok x =>
    cases hflow x rfl with
    | next f' hm hc hpc => exact hbehind.next hcalls hs hc hpc
    | jump label pc hname htarget =>
      exact hbehind s { f with pc } hcalls hs rfl (hcode f.pc i label pc hi hname htarget)
    | leave value? => exact leaveCall_completes hcalls hs value?
    | call m receiver? args hm =>
      -- the call is one of the program, and the frame waits for it
      refine (hinner.call s m receiver? args _ hs (hs m (.inl hm)) hdepth).andThen
        fun s' value? hs' => completes_of_move hn fun q hq => ?_
      cases hq with
      | caller =>
        exact hbehind.next (s := { s' with lastReturn? := value? }) (hs'.calls.trans hcalls)
          hs'.forward rfl rfl
    | needClass className h =>
      refine (hinner.initClass s className _ hs hdepth).andThen
        fun s' value? hs' => completes_of_move hn fun q hq => ?_
      cases hq with
      | access _ _ _ _ _ s'' flow hchanges hflow hplain =>
        have hcalls' : s''.calls = method :: calls :=
          hchanges.calls_eq.trans (hs'.calls.trans hcalls)
        exact resume_completes hp hbehind hcalls' (hs'.forward.changes hchanges) hflow
    | endless h => exact absurd hp h

/-- The code of a call completes if calls made from there do. -/
theorem run_completes (hn : setup.natives = .standard) (hp : setup.program.Acyclic)
    (hinner : Terminating setup room) (hroom : setup.maxDepth - (calls.length + 1) ≤ room)
    (hcode : f.code.Forward) (hcalls : s.calls = method :: calls) (hs : s.Forward setup.program) :
    Completes setup waiting (After setup.program calls) ⟨s, .run f, waiting⟩ := by
  -- the induction is on the number of instructions ahead
  induction hahead : f.code.instructions.size - f.pc using Nat.strong_induction_on
    generalizing s f with
  | h ahead ih =>
    refine completes_of_move hn fun q hq => ?_
    cases hq with
    | ended => exact leaveCall_completes hcalls hs none
    | unended _ _ _ e he => trivial
    | exec _ _ _ i s' flow hi hchanges hflow hplain =>
      have hpc : f.pc < f.code.instructions.size := (Array.getElem?_eq_some_iff.1 hi).1
      have hbehind : CompletesBehind setup waiting method calls f := by
        intro s₁ f₁ hcalls₁ hs₁ hsame hlater
        refine ih (f₁.code.instructions.size - f₁.pc) ?_ (hsame ▸ hcode) hcalls₁ hs₁ rfl
        rw [hsame]
        omega
      exact carryOn_completes hn hp hinner hroom hcode hi hbehind
        (hchanges.calls_eq.trans hcalls) (hs.changes hchanges) hflow

/-! ## Entering a call -/

theorem ends_completes {reply : Reply} (hreply : reply.Ends) (hcalls : s.calls = method :: calls)
    (hs : s.Forward setup.program) (m : Method) :
    (follow s m reply waiting).Completes setup waiting (After setup.program calls) := by
  cases hreply with
  | finish value? => exact leaveCall_completes hcalls hs value?
  | fail e he => trivial

/-- What a host method replies with is done one call deeper. -/
theorem follow_completes (hn : setup.natives = .standard) (hinner : Terminating setup room)
    (hroom : setup.maxDepth - (calls.length + 1) ≤ room) {h : Heap} {reply : Reply}
    (hreply : Reply.From h reply) (hshown : ∀ m, h.Shows m → m.Forward)
    (hcalls : s.calls = method :: calls) (hs : s.Forward setup.program) (m : Method) :
    (follow s m reply waiting).Completes setup waiting (After setup.program calls) := by
  have hdepth : setup.maxDepth - s.calls.length ≤ room := by
    rw [hcalls, List.length_cons]
    exact hroom
  cases reply with
  | finish value? => exact leaveCall_completes hcalls hs value?
  | fail e => trivial
  | call m' receiver? args =>
    refine (hinner.call s m' receiver? args _ hs (hshown m' hreply.call_shown) hdepth).andThen
      fun s' value? hs' => completes_of_move hn fun q hq => ?_
    cases hq with
    | host => exact leaveCall_completes (hs'.calls.trans hcalls) hs'.forward value?
  | readField owner field args =>
    refine (hinner.initClass s owner.name _ hs hdepth).andThen
      fun s' value? hs' => completes_of_move hn fun q hq => ?_
    cases hq with
    | readField _ _ _ _ _ _ _ s'' reply hchanges hends =>
      exact ends_completes hends (hchanges.calls_eq.trans (hs'.calls.trans hcalls))
        (hs'.forward.changes hchanges) m
  | writeField owner field args v =>
    refine (hinner.initClass s owner.name _ hs hdepth).andThen
      fun s' value? hs' => completes_of_move hn fun q hq => ?_
    cases hq with
    | writeField _ _ _ _ _ _ _ _ s'' reply hchanges hends =>
      exact ends_completes hends (hchanges.calls_eq.trans (hs'.calls.trans hcalls))
        (hs'.forward.changes hchanges) m

/-- To enter a call takes one of the calls that may still be entered. -/
theorem entered_completes (hn : setup.natives = .standard) (hp : setup.program.Acyclic)
    (hbelow : ∀ r < room, Terminating setup r) (hroom : setup.maxDepth - s.calls.length ≤ room)
    (hs : s.Forward setup.program) (hm : method.Forward) {receiver? : Option Value}
    {args : List Value} {q : Progress} (h : Entered setup s method receiver? args waiting q) :
    q.Completes setup waiting (After setup.program s.calls) := by
  have hinner (hdepth : s.calls.length < setup.maxDepth) :
      Terminating setup (setup.maxDepth - (s.calls.length + 1)) :=
    hbelow _ (by omega)
  cases h with
  | overflow h => trivial
  | code code s' hdepth hcode hchanges =>
    exact run_completes hn hp (hinner hdepth) le_rfl (hm code hcode) hchanges.calls_eq
      (hs.entered hchanges)
  | host reply s' hdepth hchanges hreply =>
    exact follow_completes hn (hinner hdepth) le_rfl hreply (fun m hm => hs m (.inr hm))
      hchanges.calls_eq (hs.entered hchanges) method

end Calls

/-! ## All calls -/

/-- Every call and every set-up of a class completes. -/
theorem terminating (setup : Setup) (hn : setup.natives = .standard) (hp : setup.program.Acyclic)
    (room : Nat) : Terminating setup room := by
  induction room using Nat.strong_induction_on with
  | h room ih =>
    -- a call without a receiver needs no class, so that it comes before the set-up of classes
    have hbare (s : State) (m : Method) (args : List Value) (waiting : List Waiting)
        (hs : s.Forward setup.program) (hm : m.Forward)
        (hroom : setup.maxDepth - s.calls.length ≤ room) :
        Completes setup waiting (After setup.program s.calls) ⟨s, .call m none args, waiting⟩ := by
      refine completes_of_move hn fun q hq => ?_
      cases hq with
      | refuse => trivial
      | call _ _ _ _ _ _ _ h => exact entered_completes hn hp ih hroom hs hm h
    have hinit (s : State) (className : String) (waiting : List Waiting)
        (hs : s.Forward setup.program) (hroom : setup.maxDepth - s.calls.length ≤ room) :
        Completes setup waiting (After setup.program s.calls) ⟨s, .initClass className, waiting⟩ := by
      refine completes_of_move hn fun q hq => ?_
      cases hq with
      | unknown => trivial
      | ready => exact .finished s none ⟨rfl, hs⟩
      | completeInit _ s' _ _ c fields hc hstatus hchanges hfields hnone =>
        have hs' : s'.Forward setup.program := hs.changes hchanges
        exact .finished _ none ⟨hchanges.calls_eq, hs'⟩
      | beginInit _ s' _ _ c m fields hc hstatus hchanges hfields hm =>
        have hmem : setup.program.HasMethod m :=
          ⟨c, mem_of_findClass hc, List.mem_of_find?_eq_some hm⟩
        have hcalls : s'.calls = s.calls := hchanges.calls_eq
        have hs' : s'.Forward setup.program := hs.changes hchanges
        refine (hbare ((s'.installStatics c.id fields).setClassStatus c.id .initializing) m [] _ hs'
          (hs m (.inl hmem)) ?_).andThen fun s'' value? hs'' => completes_of_move hn fun q hq => ?_
        · show setup.maxDepth - s'.calls.length ≤ room
          rw [hcalls]
          exact hroom
        · cases hq with
          | initializer => exact .finished _ none ⟨hs''.calls.trans hcalls, hs''.forward⟩
    refine ⟨fun s m receiver? args waiting hs hm hroom => ?_, hinit⟩
    refine completes_of_move hn fun q hq => ?_
    cases hq with
    | refuse => trivial
    | call _ _ _ _ _ _ _ h => exact entered_completes hn hp ih hroom hs hm h
    | prepare _ _ ref _ _ className =>
      refine (hinit s className _ hs hroom).andThen
        fun s' value? hs' => completes_of_move hn fun q hq => ?_
      cases hq with
      | enter _ _ _ _ _ _ _ h =>
        rw [← hs'.calls] at hroom ⊢
        exact entered_completes hn hp ih hroom hs'.forward hm h

/-- Without superclass circles every call from outside comes to an end, with a value or with a fault, if
the methods that it can get to only jump forward. -/
theorem invoke_ends (p : Program) (maxDepth : Nat) (hp : p.Acyclic) (s : State) (m : Method)
    (hforward : ∀ m', m' = m ∨ s.Reaches p m' → m'.Forward) (receiver? : Option Value)
    (args : List Value) :
    ∃ steps s', (invoke { program := p, maxDepth } steps s m receiver? args).ended? = some s' := by
  have hs : s.Forward p := fun m' hm' => hforward m' (.inr hm')
  have hcall := (terminating { program := p, maxDepth } rfl hp maxDepth).call
    s m receiver? args [] hs (hforward m (.inl rfl)) (Nat.sub_le _ _)
  obtain ⟨steps, s', hs'⟩ := hcall.run_ends
  refine ⟨steps, ?_⟩
  unfold invoke invokeMethod
  -- the report of a failure is no step of its own
  split
  · exact ⟨_, rfl⟩
  · exact ⟨s', hs'⟩

/-! ## A method without a base case -/

namespace Spin

/-- The identifier of the method. -/
def id : MethodId := ⟨"LSpin;", "spin", [.int], .void⟩

/-- A method that calls itself unless it is given zero, and needs its class. -/
def spin : Method where
  className := "LSpin;"
  name := "spin"
  flags := .ofWords ["static"]
  params := [.int]
  returnType := .void
  body := .code
    { instructions := #[.staticGet .int (.register 0) ⟨"LSpin;", "x", .int⟩,
        .ifZero .eq (.parameter 0) "done", .invoke .static [.parameter 0] id, .returnVoid]
      labels := ⟨[("done", 3)]⟩ }

/-- The initializer of its class, which calls the method. -/
def init : Method where
  className := "LSpin;"
  name := "<clinit>"
  flags := .ofWords ["static"]
  params := []
  returnType := .void
  body := .code { instructions := #[.const (.register 0) ⟨1, 4⟩,
    .invoke .static [.register 0] id, .returnVoid] }

/-- The program with the class, which extends another one. -/
def program : Program :=
  ClassTable.freeze ⟨[
    ("LBase;", { flags := .ofWords [], name := "LBase;" }),
    ("LSpin;", { flags := .ofWords [], name := "LSpin;", superName? := some "LBase;"
                 fields := ⟨[("x", ⟨.ofWords ["static"], "x", .int, none⟩)]⟩
                 methods := [init, spin] })]⟩

end Spin

open Spin in
/-- The method is called and its class set up from within each other, and still it comes to an end. -/
theorem spin_ends : program.Acyclic ∧ (∀ c ∈ program.classes, ∀ m ∈ c.methods, m.Forward) ∧
    ∃ steps s', (invoke { program, maxDepth := 100 } steps {} spin none [.int 1]).ended? = some s' := by
  have hp : program.Acyclic := Program.acyclic_of_id_lt (by decide)
  have hforward : ∀ c ∈ program.classes, ∀ m ∈ c.methods, m.Forward := by decide
  refine ⟨hp, hforward, invoke_ends program 100 hp {} spin (fun m' hm' => ?_) none [.int 1]⟩
  rcases hm' with rfl | ⟨c, hc, hm'⟩ | ⟨d, ⟨o, ho, _⟩, _⟩
  · decide
  · exact hforward c hc m' hm'
  · exact absurd ho (Array.not_mem_empty o)

end Machine

end Smali
