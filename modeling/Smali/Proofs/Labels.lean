import Smali.Proofs.Handles
import Smali.Proofs.Loading
import Smali.Proofs.Moves
import Smali.Proofs.Session

/-!
# Labels at run time

A program that is loaded from sources has its labels checked. Runs only enter methods of the program:
those that instructions name, those behind handles and class initializers. So every frame runs checked code,
its next instruction lies in the code or right behind it, and a jump always finds its label.

## Key results

- `move_onCode`: one step keeps all frames on checked code
- `labels_found`: no session of a loaded program fails for want of a label
-/

namespace Smali.Machine

/-! ## The invariant -/

/-- The frame runs the code of a method of the program. -/
structure Frame.OnCode (p : Program) (f : Frame) : Prop where
  method : p.HasMethod f.method
  body : f.method.body = .code f.code

/-- The task calls a method of the program or runs one, at most up to its end. -/
def Task.OnCode (p : Program) : Task → Prop
  | .call m _ _ => p.HasMethod m
  | .run f => f.OnCode p ∧ f.pc ≤ f.code.instructions.size
  | _ => True

/-- A frame that waits is at an instruction. -/
def Waiting.OnCode (p : Program) : Waiting → Prop
  | .caller f | .access f _ => f.OnCode p ∧ f.pc < f.code.instructions.size
  | .enter m _ _ => p.HasMethod m
  | _ => True

/-- Task and waiting work keep to the program, and so do the handles on the heap. -/
structure Snapshot.OnCode (p : Program) (m : Snapshot) : Prop where
  heap : m.state.heap.Known p
  task : m.task.OnCode p
  waiting : ∀ w ∈ m.waiting, w.OnCode p

/-- The fault is not the want of a label. -/
def Fault.NotLabel (e : Fault) : Prop :=
  ∀ label, e ≠ .labelNotFound label

abbrev Progress.OnCode (p : Program) : Progress → Prop :=
  Progress.All (Snapshot.OnCode p) (fun s _ => s.heap.Known p)
    (fun s e => s.heap.Known p ∧ e.NotLabel)

theorem notLabel_of_plain {e : Fault} (h : e.isControl = false) : e.NotLabel := by
  rintro label rfl
  cases h

variable {setup : Setup} {p : Program} {s : State} {m : Method} {waiting : List Waiting}

/-! ## Steps -/

/-- A call is left. -/
theorem leaveCall_onCode (hs : s.heap.Known p) (hw : ∀ w ∈ waiting, w.OnCode p)
    (value? : Option Value) : (leaveCall s value? waiting).OnCode p :=
  ⟨hs, trivial, hw⟩

/-- What follows a host method. -/
theorem follow_onCode {h : Heap} {reply : Reply} (hh : h.Known p) (hr : Reply.From h reply)
    (hs : s.heap.Known p) (hw : ∀ w ∈ waiting, w.OnCode p) :
    (follow s m reply waiting).OnCode p := by
  have hcons (work : Waiting) (hwork : work.OnCode p) : ∀ w ∈ work :: waiting, w.OnCode p :=
    List.forall_mem_cons.2 ⟨hwork, hw⟩
  cases reply with
  | finish value? => exact leaveCall_onCode hs hw value?
  | fail e =>
    cases hr with
    | fail _ he => exact ⟨hs, notLabel_of_plain he⟩
  -- the method that a host method calls is behind a handle
  | call m' receiver? args => exact ⟨hs, hr.call_known hh, hcons (.host m) trivial⟩
  | readField owner field args =>
    exact ⟨hs, trivial, hcons (.readField m owner field args) trivial⟩
  | writeField owner field args v =>
    exact ⟨hs, trivial, hcons (.writeField m owner field args v) trivial⟩

/-- What follows an instruction. -/
theorem carryOn_onCode {f : Frame} {i : Instruction} {flow : Except Fault Flow}
    (hf : f.OnCode p) (hcode : f.code.Checked) (hpc : f.pc < f.code.instructions.size)
    (hs : s.heap.Known p)
    (hw : ∀ w ∈ waiting, w.OnCode p) (hflow : ∀ x, flow = .ok x → Continues p f i x)
    (hplain : Plain flow) : (carryOn s flow i waiting).OnCode p := by
  have hcons (work : Waiting) (hwork : work.OnCode p) : ∀ w ∈ work :: waiting, w.OnCode p :=
    List.forall_mem_cons.2 ⟨hwork, hw⟩
  cases flow with
  | error e => exact ⟨hs, notLabel_of_plain (hplain e rfl)⟩
  | ok x =>
    cases hflow x rfl with
    | next f' hm hc hsame =>
      have hf' : f'.OnCode p := ⟨hm.symm ▸ hf.method, by rw [hm, hc, hf.body]⟩
      -- from an instruction the frame moves on by one, at most to the end of the code
      refine ⟨hs, ⟨⟨hf'.method, hf'.body⟩, ?_⟩, hw⟩
      show f'.pc + 1 ≤ f'.code.instructions.size
      rw [hc, hsame]
      exact hpc
    | jump label pc hn h => exact ⟨hs, ⟨⟨hf.method, hf.body⟩, hcode.within label pc h⟩, hw⟩
    | leave value? => exact leaveCall_onCode hs hw value?
    | call m receiver? args h => exact ⟨hs, h, hcons (.caller f) ⟨hf, hpc⟩⟩
    | needClass className h => exact ⟨hs, trivial, hcons (.access f i) ⟨hf, hpc⟩⟩
    | endless h => exact ⟨hs, trivial, hw⟩

/-- A call is entered. -/
theorem entered_onCode {receiver? : Option Value} {args : List Value} {q : Progress}
    (h : Entered setup s m receiver? args waiting q) (hm : setup.program.HasMethod m)
    (hs : s.heap.Known setup.program) (hw : ∀ w ∈ waiting, w.OnCode setup.program) :
    q.OnCode setup.program := by
  cases h with
  | overflow _ => exact ⟨hs, fun label => nofun⟩
  | code code s' hroom hcode hchanges =>
    exact ⟨hchanges.known hs, ⟨⟨hm, hcode⟩, Nat.zero_le _⟩, hw⟩
  | host reply s' hroom hchanges hreply =>
    exact follow_onCode hs hreply (hchanges.known hs) hw

/-- One step keeps all frames on checked code. -/
theorem move_onCode (hp : ∀ m, setup.program.HasMethod m → m.Checked) {m : Snapshot} {q : Progress}
    (h : Move setup m q) (hm : m.OnCode setup.program) : q.OnCode setup.program := by
  obtain ⟨hs, htask, hw⟩ := hm
  -- one case for each kind of move
  cases h with
  | refuse s m receiver? args waiting e he | unknown s className waiting e he
  | unended s f waiting e he => exact ⟨hs, notLabel_of_plain he⟩
  | prepare s m ref args waiting className =>
    exact ⟨hs, trivial, List.forall_mem_cons.2 ⟨htask, hw⟩⟩
  | call s m receiver? receiver?' args waiting q h => exact entered_onCode h htask hs hw
  | enter s value? m receiver? args waiting q h =>
    obtain ⟨hwork, hw⟩ := List.forall_mem_cons.1 hw
    exact entered_onCode h hwork hs hw
  | ready s className waiting c hc hstatus => exact ⟨hs, trivial, hw⟩
  | beginInit s s' className waiting c m fields hc hstatus hchanges hfields hinit =>
    have hmem : m ∈ c.methods := List.mem_of_find?_eq_some hinit
    exact ⟨hchanges.known hs, ⟨c, mem_of_findClass hc, hmem⟩,
      List.forall_mem_cons.2 ⟨trivial, hw⟩⟩
  | completeInit s s' className waiting c fields hc hstatus hchanges hfields hinit =>
    exact ⟨hchanges.known hs, trivial, hw⟩
  | ended s f waiting => exact leaveCall_onCode hs hw none
  | exec s f waiting i s' flow hi hchanges hflow hplain =>
    obtain ⟨hpc, rfl⟩ := Array.getElem?_eq_some_iff.1 hi
    have hcode := hp f.method htask.1.method f.code htask.1.body
    -- the instruction is one of checked code, so all its names are there
    have hdefines := hcode.defines (Array.getElem_mem hpc)
    exact carryOn_onCode htask.1 hcode hpc (hchanges.known hs) hw hflow (hplain hdefines)
  | access s value? f i waiting s' flow hchanges hflow hplain =>
    obtain ⟨hwork, hw⟩ := List.forall_mem_cons.1 hw
    have hcode := hp f.method hwork.1.method f.code hwork.1.body
    exact carryOn_onCode hwork.1 hcode hwork.2 (hchanges.known hs) hw
      (fun x hx => (hflow x hx).continues i) hplain
  | caller s value? f waiting =>
    obtain ⟨⟨hf, hpc⟩, hw⟩ := List.forall_mem_cons.1 hw
    exact ⟨hs, ⟨⟨hf.method, hf.body⟩, hpc⟩, hw⟩
  | initializer s value? id waiting =>
    exact ⟨hs, trivial, (List.forall_mem_cons.1 hw).2⟩
  | host s value? m waiting => exact leaveCall_onCode hs (List.forall_mem_cons.1 hw).2 value?
  | readField s value? m owner field args waiting s' reply hchanges hreply =>
    exact follow_onCode hs hreply.toFrom (hchanges.known hs) (List.forall_mem_cons.1 hw).2
  | writeField s value? m owner field args v waiting s' reply hchanges hreply =>
    exact follow_onCode hs hreply.toFrom (hchanges.known hs) (List.forall_mem_cons.1 hw).2
  | done s value? => exact hs
  | endless s waiting => exact ⟨hs, trivial, hw⟩

/-! ## Sessions -/

/-- A method that is called from outside is one of the program. -/
def Operation.Over (p : Program) : Operation → Prop
  | .invoke m _ _ => p.HasMethod m
  | _ => True

/-- Sessions keep all frames on checked code. -/
theorem onCode_invariant (setup : Setup) (hn : setup.natives = .standard)
    (hp : ∀ m, setup.program.HasMethod m → m.Checked) :
    Invariant setup (Operation.Over setup.program) (fun s => s.heap.Known setup.program)
      (Snapshot.OnCode setup.program) Fault.NotLabel where
  invoke _ _ _ _ hs hop := ⟨hs, hop, List.forall_mem_nil _⟩
  initClass _ _ hs := ⟨hs, trivial, List.forall_mem_nil _⟩
  changes _ _ hchanges hs := hchanges.known hs
  forget _ hs := hs
  step m hm := move_onCode hp (step_move hn m) hm
  plain _ he := notLabel_of_plain he

/-- The frame of the task. -/
def Task.frame? : Task → Option Frame
  | .run f => some f
  | _ => none

/-- The frame that waits. -/
def Waiting.frame? : Waiting → Option Frame
  | .caller f | .access f _ => some f
  | _ => none

/-- The frames of a snapshot, innermost first. -/
def Snapshot.frames (m : Snapshot) : List Frame :=
  m.task.frame?.toList ++ m.waiting.filterMap Waiting.frame?

/-- Every frame is in the code of a method of the program, or right behind it. -/
theorem Snapshot.OnCode.frames {m : Snapshot} (hm : m.OnCode p) {f : Frame} (hf : f ∈ m.frames) :
    f.OnCode p ∧ f.pc ≤ f.code.instructions.size := by
  -- the frame runs, or it waits
  cases List.mem_append.1 hf with
  | inl htask =>
    have hrun := hm.task
    cases h : m.task with
    | run f' =>
      rw [h] at htask hrun
      obtain rfl := List.mem_singleton.1 htask
      exact hrun
    | call | initClass | finished | endless =>
      rw [h] at htask
      exact absurd htask List.not_mem_nil
  | inr hwaiting =>
    obtain ⟨w, hw, hframe⟩ := List.mem_filterMap.1 hwaiting
    have hrun := hm.waiting w hw
    cases w with
    | caller f' | access f' i =>
      obtain rfl := Option.some.inj hframe
      exact ⟨hrun.1, hrun.2.le⟩
    | enter | initializer | host | readField | writeField => cases hframe

/-- No session of a program that is loaded from sources fails for want of a label: every label of its
methods stands for a place in the code or right behind it, and at every moment each frame is at such a
place of a method of the program. -/
theorem labels_found {sources : List String} {p : Program} (h : loadProgram sources = .ok p)
    (maxDepth : Nat) (journal : Journal) (ops : List (Operation × Nat))
    (hops : ∀ op ∈ ops, op.1.Over p) :
    (∀ m code label pc, p.HasMethod m → m.body = .code code → code.labels.get? label = some pc →
      pc ≤ code.instructions.size) ∧
    ∀ o ∈ history { program := p, maxDepth } { journal } ops,
      (∀ s label, o ≠ .failed s (.labelNotFound label)) ∧
      ∀ m, o = .unfinished m → ∀ f ∈ m.frames,
        p.HasMethod f.method ∧ f.method.body = .code f.code ∧ f.pc ≤ f.code.instructions.size := by
  have hchecked : ∀ m, p.HasMethod m → m.Checked := fun m hm => loadProgram_checked h hm
  refine ⟨fun m code label pc hm hcode hpc => (hchecked m hm code hcode).within label pc hpc, ?_⟩
  intro o ho
  have inv := onCode_invariant { program := p, maxDepth } rfl hchecked
  have hmoment := inv.history hops (known_empty p) ho
  constructor
  · rintro s label rfl
    exact hmoment.2 label rfl
  · rintro m rfl f hf
    obtain ⟨hf, hpc⟩ := hmoment.frames hf
    exact ⟨hf.method, hf.body, hpc⟩

/-- A method that branches through a switch table, to a label behind the jump and to one in front of
it. -/
def branchingSource : String := "
.class LBranching;
.method static pick(I)I
    .registers 1
    const v0, 1
    :again
    packed-switch p0, :table
    return v0
    :up
    const p0, 5
    goto :again
    :two
    const v0, 2
    return v0
    :table
    .packed-switch 4
        :up
        :two
    .end packed-switch
.end method
"

set_option maxRecDepth 10000 in
/-- That source is accepted, and a call of its method does not fail for want of a label. -/
theorem branching_labels_found : ∃ p m, loadProgram [branchingSource] = .ok p ∧ p.HasMethod m ∧
    ∀ o ∈ history { program := p } {} [(.invoke m none [.int 4], 100)],
      (∀ s label, o ≠ .failed s (.labelNotFound label)) ∧
      ∀ m', o = .unfinished m' → ∀ f ∈ m'.frames,
        p.HasMethod f.method ∧ f.method.body = .code f.code ∧
          f.pc ≤ f.code.instructions.size := by
  have hfound : ((loadClass? [branchingSource] "LBranching;").bind (·.methods.head?)).isSome =
      true := by
    rw [loadClass?, loadProgram_ofTexts (show [branchingSource] = List.map String.ofList [_] from rfl)]
    decide +kernel
  obtain ⟨m, hfound⟩ := Option.isSome_iff_exists.1 hfound
  obtain ⟨c, hc, hm⟩ := Option.bind_eq_some_iff.1 hfound
  obtain ⟨p, hp, hc⟩ := loadClass?_eq_some hc
  have hm : p.HasMethod m := ⟨c, Array.mem_of_find?_eq_some hc, List.mem_of_head? hm⟩
  have hops : ∀ op ∈ [(Operation.invoke m none [.int 4], 100)], op.1.Over p :=
    List.forall_mem_singleton.2 hm
  exact ⟨p, m, hp, hm, (labels_found hp 128 {} _ hops).2⟩

end Smali.Machine
