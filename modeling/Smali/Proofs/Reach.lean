import Smali.Proofs.Handles
import Smali.Proofs.Moves
import Smali.Proofs.Session

/-!
# The code that a run can get to

A run gets to the code of methods only through the program, through handles on the heap and through the
calls that it has begun. So a property of all this code holds of all code that the run ever executes.

## Key results

- `move_codeAll`: one step keeps to code with the property
-/

namespace Smali.Machine

variable {p : Program} {G : Code → Prop} {W : Allowance} {s s' : State}

/-- All methods in reach have code with the property. -/
def State.CodeAll (p : Program) (G : Code → Prop) (s : State) : Prop :=
  ∀ m, s.Reaches p m → m.CodeAll G

theorem State.CodeAll.changes (h : s.CodeAll p G) (hs : Changes p W s s') : s'.CodeAll p G :=
  fun m hm => h m (hs.reaches hm)

/-- A call is entered before other changes. -/
theorem State.CodeAll.entered {calls : CallStack} (h : s.CodeAll p G)
    (hs : Changes p W { s with calls } s') : s'.CodeAll p G :=
  fun m hm => h m (hs.reaches hm)

/-- What a task executes has the property. -/
def Task.CodeAll (G : Code → Prop) : Task → Prop
  | .call m _ _ => m.CodeAll G
  | .run f => G f.code
  | _ => True

/-- What waiting work executes has the property. -/
def Waiting.CodeAll (G : Code → Prop) : Waiting → Prop
  | .caller f | .access f _ => G f.code
  | .enter m _ _ => m.CodeAll G
  | _ => True

/-- All code that a run can get to from here has the property. -/
structure Snapshot.CodeAll (p : Program) (G : Code → Prop) (m : Snapshot) : Prop where
  reach : m.state.CodeAll p G
  task : m.task.CodeAll G
  waiting : ∀ w ∈ m.waiting, w.CodeAll G

/-- So has all code that can be got to after a step. -/
abbrev Progress.CodeAll (p : Program) (G : Code → Prop) : Progress → Prop :=
  Progress.All (Snapshot.CodeAll p G) (fun s _ => s.CodeAll p G) (fun s _ => s.CodeAll p G)

variable {setup : Setup} {waiting : List Waiting} {method : Method}

/-- What follows a host method. -/
theorem follow_codeAll {h : Heap} {reply : Reply} (hreply : Reply.From h reply)
    (hshown : ∀ m, h.Shows m → m.CodeAll G) (hs : s.CodeAll p G)
    (hw : ∀ w ∈ waiting, w.CodeAll G) : (follow s method reply waiting).CodeAll p G := by
  cases reply with
  | finish value? => exact ⟨hs, trivial, hw⟩
  | fail e => exact hs
  | call m receiver? args =>
    exact ⟨hs, hshown m hreply.call_shown, List.forall_mem_cons.2 ⟨trivial, hw⟩⟩
  | readField owner field args => exact ⟨hs, trivial, List.forall_mem_cons.2 ⟨trivial, hw⟩⟩
  | writeField owner field args v => exact ⟨hs, trivial, List.forall_mem_cons.2 ⟨trivial, hw⟩⟩

/-- What follows an instruction. -/
theorem carryOn_codeAll {f : Frame} {i : Instruction} {flow : Except Fault Flow}
    (hflow : ∀ x, flow = .ok x → Continues p f i x) (hf : G f.code) (hs : s.CodeAll p G)
    (hw : ∀ w ∈ waiting, w.CodeAll G) : (carryOn s flow i waiting).CodeAll p G := by
  cases flow with
  | error e => exact hs
  | ok x =>
    cases hflow x rfl with
    | next f' hm hc hpc => exact ⟨hs, show G f'.code from hc ▸ hf, hw⟩
    | jump label pc hn h => exact ⟨hs, hf, hw⟩
    | leave value? => exact ⟨hs, trivial, hw⟩
    | call m receiver? args h => exact ⟨hs, hs m (.inl h), List.forall_mem_cons.2 ⟨hf, hw⟩⟩
    | needClass className h => exact ⟨hs, trivial, List.forall_mem_cons.2 ⟨hf, hw⟩⟩
    | endless h => exact ⟨hs, trivial, hw⟩

/-- A call is entered. -/
theorem entered_codeAll {receiver? : Option Value} {args : List Value} {q : Progress}
    (h : Entered setup s method receiver? args waiting q) (hm : method.CodeAll G)
    (hs : s.CodeAll setup.program G) (hw : ∀ w ∈ waiting, w.CodeAll G) :
    q.CodeAll setup.program G := by
  cases h with
  | overflow _ => exact hs
  | code code s' hdepth hcode hchanges => exact ⟨hs.entered hchanges, hm code hcode, hw⟩
  | host reply s' hdepth hchanges hreply =>
    exact follow_codeAll hreply (fun m hm => hs m (.inr hm)) (hs.entered hchanges) hw

/-- One step keeps to code with the property. -/
theorem move_codeAll {m : Snapshot} {q : Progress} (h : Move setup m q)
    (hm : m.CodeAll setup.program G) : q.CodeAll setup.program G := by
  obtain ⟨hs, htask, hw⟩ := hm
  -- one case for each kind of move
  cases h with
  | refuse | unknown | unended => exact hs
  | prepare s m ref args waiting className =>
    exact ⟨hs, trivial, List.forall_mem_cons.2 ⟨htask, hw⟩⟩
  | call s m receiver? receiver?' args waiting q h => exact entered_codeAll h htask hs hw
  | enter s value? m receiver? args waiting q h =>
    obtain ⟨hwork, hw⟩ := List.forall_mem_cons.1 hw
    exact entered_codeAll h hwork hs hw
  | ready s className waiting c hc hstatus => exact ⟨hs, trivial, hw⟩
  | beginInit s s' className waiting c m fields hc hstatus hchanges hfields hinit =>
    -- the initializer is a method of the program
    have hmem : setup.program.HasMethod m :=
      ⟨c, mem_of_findClass hc, List.mem_of_find?_eq_some hinit⟩
    have hs' : s'.CodeAll setup.program G := hs.changes hchanges
    exact ⟨hs', hs m (.inl hmem), List.forall_mem_cons.2 ⟨trivial, hw⟩⟩
  | completeInit s s' className waiting c fields hc hstatus hchanges hfields hinit =>
    have hs' : s'.CodeAll setup.program G := hs.changes hchanges
    exact ⟨hs', trivial, hw⟩
  | ended s f waiting => exact ⟨hs, trivial, hw⟩
  | exec s f waiting i s' flow hi hchanges hflow hplain =>
    exact carryOn_codeAll hflow htask (hs.changes hchanges) hw
  | access s value? f i waiting s' flow hchanges hflow hplain =>
    obtain ⟨hwork, hw⟩ := List.forall_mem_cons.1 hw
    exact carryOn_codeAll (fun x hx => (hflow x hx).continues i) hwork (hs.changes hchanges) hw
  | caller s value? f waiting =>
    obtain ⟨hwork, hw⟩ := List.forall_mem_cons.1 hw
    exact ⟨hs, hwork, hw⟩
  | initializer s value? id waiting => exact ⟨hs, trivial, (List.forall_mem_cons.1 hw).2⟩
  | host s value? m waiting => exact ⟨hs, trivial, (List.forall_mem_cons.1 hw).2⟩
  | readField s value? m owner field args waiting s' reply hchanges hreply =>
    exact follow_codeAll (h := s.heap) hreply.toFrom (fun m hm => hs m (.inr hm))
      (hs.changes hchanges) (List.forall_mem_cons.1 hw).2
  | writeField s value? m owner field args v waiting s' reply hchanges hreply =>
    exact follow_codeAll (h := s.heap) hreply.toFrom (fun m hm => hs m (.inr hm))
      (hs.changes hchanges) (List.forall_mem_cons.1 hw).2
  | done s value? => exact hs
  | endless s waiting => exact ⟨hs, trivial, hw⟩

end Smali.Machine
