import Smali.Proofs.Labels
import Smali.Proofs.LibraryMethods
import Smali.Proofs.ParameterLayout

/-!
# What slots hold

A slot is made for 32-bit integers and references. A single write refuses a 64-bit value, a wide one takes
it apart, and so are the arguments of a call taken apart when its parameters are laid out. The receiver of a
call is not looked at: it is put into the first parameter as it is. So a 64-bit value is found in a slot
exactly if it came there as a receiver and nothing has been written over it.

Within a run no call gets such a receiver, since an instruction takes the receiver from a slot and the host
takes it from arguments in halves. It has to come from outside.

## Key results

- `get_parameters_after_iff`: when a parameter holds a 64-bit value, after any writes
- `step_narrow`: a step keeps 64-bit values out of all slots
- `narrow_slots_iff`: slot files, and the calls of a run, without 64-bit values
- `wide_receiver_kept`: a 64-bit receiver is found in a slot of the call
-/

namespace Smali.Machine

/-! ## Slot files -/

/-- No slot of the file holds a 64-bit value. -/
def Slots.Narrow (file : Slots) : Prop :=
  ∀ k n, file.get k ≠ .ok (.long n)

variable {file file' : Slots}

/-- A write that fits leaves no 64-bit value in any slot. -/
theorem SlotWrite.leaves?_ne_long {w : SlotWrite} {size : Nat} (h : w.fits size = true) (k : Nat)
    (n : Int64) : w.leaves? k ≠ some (.long n) := by
  cases w with
  -- a single write that fits was checked against 64-bit values
  | set index v =>
    simp only [fits, Bool.and_eq_true, bne_iff_ne] at h
    intro hleft
    simp only [leaves?] at hleft
    split at hleft
    · obtain rfl := Option.some.inj hleft
      exact h.2 rfl
    · cases hleft
  | setWide index v =>
    cases v with
    | long m =>
      -- both halves are 32-bit integers
      intro hleft
      simp only [leaves?] at hleft
      split at hleft
      · cases hleft
      · split at hleft <;> cases hleft
    | int | object | array => exact fun hleft => by cases hleft

/-- Whatever is written, the last write to a slot left no 64-bit value there. -/
theorem lastWrite?_ne_long (size k : Nat) (writes : List SlotWrite) (n : Int64) :
    lastWrite? size k writes ≠ some (.long n) := by
  intro h
  obtain ⟨w, hw, hleft⟩ := List.exists_of_findSome?_eq_some h
  exact w.leaves?_ne_long (List.mem_filter.1 hw).2 k n hleft

/-- After any writes a slot holds a 64-bit value exactly if it did so before and nothing was written
there. -/
theorem get_after_eq_long (file : Slots) (writes : List SlotWrite) (k : Nat) (n : Int64) :
    (file.after writes).get k = .ok (.long n) ↔
      file.get k = .ok (.long n) ∧ lastWrite? file.size k writes = none := by
  rw [get_eq_ok, get_eq_ok, cells_after]
  constructor
  · intro h
    obtain ⟨old, hold, h⟩ := Option.map_eq_some_iff.1 h
    -- nothing was written there, or what was written is no 64-bit value
    cases hlast : lastWrite? file.size k writes with
    | none =>
      rw [hlast, Option.none_or] at h
      exact ⟨hold.trans (congrArg some h), rfl⟩
    | some v =>
      rw [hlast, Option.some_or] at h
      obtain rfl := Option.some.inj h
      exact absurd hlast (lastWrite?_ne_long file.size k writes n)
  · rintro ⟨hold, hlast⟩
    rw [hold, hlast]
    rfl

/-- Writes put no 64-bit value into a slot. -/
theorem narrow_after (h : file.Narrow) (writes : List SlotWrite) : (file.after writes).Narrow :=
  fun k n hk => h k n ((get_after_eq_long file writes k n).1 hk).1

/-- New registers hold nothing. -/
theorem narrow_registers (count : Nat) : (Slots.registers count).Narrow := by
  intro k n h
  rw [get_eq_ok, Slots.registers, Array.getElem?_replicate] at h
  split at h
  · cases Option.some.inj h
  · cases h

/-- No argument takes a slot as a 64-bit value. -/
theorem long_not_mem_splitAll (args : List Value) (n : Int64) : .long n ∉ Value.splitAll args := by
  intro h
  obtain ⟨v, -, hv⟩ := List.mem_flatMap.1 h
  cases v with
  | long m =>
    simp only [List.mem_cons, List.not_mem_nil, or_false] at hv
    cases hv with
    | inl hhigh => cases hhigh
    | inr hlow => cases hlow
  | int | object | array => cases List.mem_singleton.1 hv

/-- When a parameter holds a 64-bit value at the start of a call. -/
theorem get_parameters_eq_long (receiver? : Option Value) (args : List Value) (k : Nat) (n : Int64) :
    (Slots.parameters receiver? args).get k = .ok (.long n) ↔ k = 0 ∧ receiver? = some (.long n) := by
  rw [get_eq_ok, Slots.parameters, List.getElem?_toArray, List.getElem?_map, Option.map_eq_some_iff]
  simp only [Option.some.injEq, exists_eq_right]
  -- behind the receiver stand the halves of the arguments
  have hargs (j : Nat) : (Value.splitAll args)[j]? ≠ some (.long n) :=
    fun h => long_not_mem_splitAll args n (List.mem_of_getElem? h)
  cases receiver? with
  | none => simpa using hargs k
  | some receiver =>
    cases k with
    | zero => simp
    | succ k => simpa using hargs k

/-- When a parameter holds a 64-bit value, after any writes: it is the receiver, and nothing was written
over it. -/
theorem get_parameters_after_iff (receiver? : Option Value) (args : List Value)
    (writes : List SlotWrite) (k : Nat) (n : Int64) :
    ((Slots.parameters receiver? args).after writes).get k = .ok (.long n) ↔
      k = 0 ∧ receiver? = some (.long n) ∧
        lastWrite? (Slots.parameters receiver? args).size 0 writes = none := by
  rw [get_after_eq_long, get_parameters_eq_long]
  constructor
  · rintro ⟨⟨rfl, hreceiver⟩, hlast⟩
    exact ⟨rfl, hreceiver, hlast⟩
  · rintro ⟨rfl, hreceiver, hlast⟩
    exact ⟨⟨rfl, hreceiver⟩, hlast⟩

/-- New parameters hold no 64-bit value if the receiver is none. -/
theorem narrow_parameters {receiver? : Option Value} (h : ∀ n, receiver? ≠ some (.long n))
    (args : List Value) : (Slots.parameters receiver? args).Narrow :=
  fun k n hk => h n ((get_parameters_eq_long receiver? args k n).1 hk).2

/-! ## Frames -/

/-- No slot of the frame holds a 64-bit value. -/
structure Frame.Narrow (f : Frame) : Prop where
  registers : f.registers.Narrow
  parameters : f.parameters.Narrow

variable {p : Program} {s : State} {f f' : Frame} {i : Instruction}

/-- What is read from a slot is no 64-bit value. -/
theorem Frame.Narrow.read (hf : f.Narrow) (slot : Slot) (n : Int64) : f.read slot ≠ .ok (.long n) := by
  cases slot with
  | register k => exact hf.registers k n
  | parameter k => exact hf.parameters k n

/-- A write that succeeds, as a sequence of one. -/
theorem after_of_apply {w : SlotWrite} (h : w.apply file = .ok file') : file.after [w] = file' := by
  show slotsOf (w.perform file) = file'
  rw [SlotWrite.perform_eq_ok.2 h]
  rfl

/-- A write to one kind of slots leaves the other kind alone. -/
theorem narrow_update {slot : Slot} {change : Slots → Except Fault Slots} {w : SlotWrite}
    (hchange : change = w.apply) (hf : f.Narrow) (h : f.update slot change = .ok f') : f'.Narrow := by
  rw [update_eq, hchange] at h
  obtain ⟨file', hfile, rfl⟩ := map_eq_ok.1 h
  cases slot with
  | register k => exact ⟨after_of_apply hfile ▸ narrow_after hf.registers [w], hf.parameters⟩
  | parameter k => exact ⟨hf.registers, after_of_apply hfile ▸ narrow_after hf.parameters [w]⟩

/-- Whatever an instruction plans to write, no slot gets a 64-bit value. -/
theorem Write.narrow {w : Write} (hf : f.Narrow) (h : w.apply f = .ok f') : f'.Narrow := by
  cases w with
  | nothing =>
    obtain rfl := Except.ok.inj h
    exact hf
  | single slot v => exact narrow_update (w := .set slot.index v) rfl hf h
  | wide slot v => exact narrow_update (w := .setWide slot.index v) rfl hf h

/-- An instruction puts no 64-bit value into a slot. -/
theorem exec_narrow {flow : Flow} (hf : f.Narrow) (h : (exec p s f i).2 = .ok flow) :
    (flow.frame f).Narrow := by
  have hplan := exec_plan p s f i
  -- the instruction goes on, so it has planned a write and made it
  rw [h] at hplan
  obtain ⟨w, -, happly⟩ := bind_eq_ok.1 hplan.symm
  exact w.narrow hf happly

/-- Nor does the second half of a field access. -/
theorem access_narrow {flow : Flow} (hf : f.Narrow) (h : (access p s f i).2 = .ok flow) :
    (flow.frame f).Narrow := by
  have hplan := access_plan p s f i
  rw [h] at hplan
  obtain ⟨w, -, happly⟩ := bind_eq_ok.1 hplan.symm
  exact w.narrow hf happly

/-- Nor does the start of a call with another receiver. -/
theorem enter_narrow {receiver? : Option Value} (h : ∀ n, receiver? ≠ some (.long n)) (method : Method)
    (code : Code) (args : List Value) : (Frame.enter method code receiver? args).Narrow :=
  ⟨narrow_registers code.registerCount, narrow_parameters h args⟩

/-! ## Receivers -/

/-- The receiver of the call that is made. -/
def Flow.receiver? : Flow → Option Value
  | .call _ _ receiver? _ => receiver?
  | _ => none

/-- Only a call instruction makes a call. -/
theorem exec_receiver? {flow : Flow} (h : (exec p s f i).2 = .ok flow) (hi : i.isInvoke = false) :
    flow.receiver? = none := by
  cases exec_continues h with
  | call m receiver? args hm hcall =>
    rw [hi] at hcall
    cases hcall
  | next | jump | leave | needClass | endless => rfl

/-- The receiver of a call comes from a slot. -/
theorem exec_receiver_ne_long (hf : f.Narrow) {flow : Flow} (h : (exec p s f i).2 = .ok flow)
    (n : Int64) : flow.receiver? ≠ some (.long n) := by
  intro hreceiver
  cases i with
  | invoke kind slots id =>
    cases flow with
    | call f' m receiver? args =>
      obtain rfl : receiver? = some (.long n) := hreceiver
      -- the values that are handed over are those of the slots, the receiver first
      obtain ⟨hvalues, -⟩ := dispatch_call (Prod.ext rfl h)
      cases slots with
      | nil => cases hvalues
      | cons slot rest =>
        rw [List.mapM_cons] at hvalues
        obtain ⟨v, hv, hvalues⟩ := bind_eq_ok.1 hvalues
        obtain ⟨vs, -, hvalues⟩ := bind_eq_ok.1 hvalues
        obtain ⟨rfl, -⟩ := List.cons.inj (Except.ok.inj hvalues)
        exact hf.read slot n hv
    | next | jump | leave | needClass | endless => cases hreceiver
  | _ =>
    rw [exec_receiver? h rfl] at hreceiver
    cases hreceiver

/-- The host method takes the receiver of a call that it has made from its own arguments. -/
def HostMethod.HandsOver (host : HostMethod) : Prop :=
  ∀ p call s method receiver? args, (host p call s).2 = .call method receiver? args →
    ∃ v ∈ call.args, receiver? = some v

/-- Only a host method that hands on has a method called in its place. -/
theorem Reply.Suits.ne_call {answer : Answer} {reply : Reply} (h : reply.Suits answer)
    (hanswer : answer ≠ .handedOn) (method : Method) (receiver? : Option Value) (args : List Value) :
    reply ≠ .call method receiver? args := by
  rintro rfl
  cases h
  exact hanswer rfl

/-- A host method that makes no call takes no receiver from elsewhere. -/
theorem handsOver_of_answers {host : HostMethod} {answer : Answer} (h : host.Answers answer)
    (hanswer : answer ≠ .handedOn) : host.HandsOver :=
  fun p call s method receiver? args hreply =>
    absurd hreply ((h p call s).ne_call hanswer method receiver? args)

/-- An argument that is there is one of the arguments. -/
theorem mem_of_arg {call : HostCall} {index : Nat} {v : Value} (h : call.arg index = .ok v) :
    v ∈ call.args := by
  unfold HostCall.arg at h
  split at h
  · next w hw =>
    obtain rfl := Except.ok.inj h
    exact List.mem_of_getElem? hw
  · cases h

/-- `Method.invoke` calls a method on its first argument. -/
theorem handsOver_methodInvoke : methodInvoke.HandsOver := by
  intro p call s method receiver? args hreply
  unfold methodInvoke HostMethod.writing at hreply
  split at hreply
  · next result hresult =>
    obtain ⟨m, -, hresult⟩ := bind_eq_ok.1 hresult
    obtain ⟨target, htarget, hresult⟩ := bind_eq_ok.1 hresult
    obtain ⟨list, -, hresult⟩ := bind_eq_ok.1 hresult
    -- wherever the arguments come from, the first argument is the receiver
    have hgives : Gives (fun result => ∃ args, result.2 = .call m (some target) args)
        (.ok result) := by
      rw [← hresult]
      split
      · exact gives_bind fun array => gives_ok ⟨_, rfl⟩
      · split
        · exact gives_ok ⟨_, rfl⟩
        · exact gives_error
    obtain ⟨args', hresult⟩ := hgives result rfl
    obtain ⟨-, rfl, -⟩ := Reply.call.inj (hreply.symm.trans hresult)
    exact ⟨target, mem_of_arg htarget, rfl⟩
  -- a failure is no call
  · cases hreply

/-- No host method of the standard library takes a receiver from elsewhere. -/
theorem standard_handsOver {className name : String} {params : List Descriptor} {host : HostMethod}
    (h : Natives.standard.find? className name params = some host) : host.HandsOver := by
  cases find?_registered h with
  | inl h => cases h
  | inr h =>
    obtain ⟨entry, hmem, rfl, -⟩ := h
    obtain ⟨hlength, hint, hlong, hbox, hunbox, hclass, hlog⟩ := answers_value
    have hvalue {host : HostMethod} (h : host.Answers .value) : host.HandsOver :=
      handsOver_of_answers h (by decide)
    have hnothing {host : HostMethod} (h : host.Answers .nothing) : host.HandsOver :=
      handsOver_of_answers h (by decide)
    -- all but one of the methods make no call
    have hall : ∀ entry ∈ Natives.standardMethods, entry.2.2.2.HandsOver := by
      simp only [Natives.standardMethods, List.forall_mem_cons, List.not_mem_nil, false_implies,
        implies_true, and_true]
      exact ⟨hnothing answers_stringInit, hvalue hlength, hvalue answers_stringCharAt, hvalue hint,
        hvalue hlong, hvalue hbox, hvalue hunbox, hvalue hclass, hvalue answers_classGetDeclaredMethod,
        hvalue answers_classGetDeclaredField, hnothing answers_doNothing, hvalue answers_fieldGet,
        hnothing answers_fieldSet, hnothing answers_doNothing, handsOver_methodInvoke, hvalue hlog⟩
    exact hall entry hmem

/-! ## Steps -/

/-- The task puts no 64-bit value into a slot: it has none in its slots, and no code is called with one as
the receiver. -/
def Task.Narrow : Task → Prop
  | .call method receiver? _ => method.isStatic = false → ∀ n, receiver? = some (.long n) →
    method.isAbstract = true ∨ method.body = .native
  | .run f => f.Narrow
  | _ => True

/-- Nor does the waiting work. -/
def Waiting.Narrow : Waiting → Prop
  | .caller f | .access f _ => f.Narrow
  | .enter _ receiver? _ => ∀ n, receiver? ≠ some (.long n)
  | _ => True

/-- No call of the run has a 64-bit value in a slot. -/
structure Snapshot.Narrow (m : Snapshot) : Prop where
  task : m.task.Narrow
  waiting : ∀ work ∈ m.waiting, work.Narrow

/-- So it is after the step. -/
abbrev Progress.Narrow : Progress → Prop :=
  Progress.All Snapshot.Narrow (fun _ _ => True) (fun _ _ => True)

variable {setup : Setup} {method : Method} {receiver? : Option Value} {waiting : List Waiting}

/-- A call on another receiver. -/
theorem task_call_narrow (h : ∀ n, receiver? ≠ some (.long n)) (method : Method) (args : List Value) :
    (Task.call method receiver? args).Narrow :=
  fun _ n hn => absurd hn (h n)

/-- What follows a host method, if it calls nothing on a 64-bit value. -/
theorem follow_narrow {reply : Reply}
    (hreply : ∀ m receiver? args, reply = .call m receiver? args → ∀ n, receiver? ≠ some (.long n))
    (s : State) (method : Method) (hw : ∀ work ∈ waiting, work.Narrow) :
    (follow s method reply waiting).Narrow := by
  cases reply with
  | finish value? => exact ⟨trivial, hw⟩
  | fail e => trivial
  | call m receiver? args =>
    exact ⟨task_call_narrow (hreply m receiver? args rfl) m args, List.forall_mem_cons.2 ⟨trivial, hw⟩⟩
  | readField | writeField => exact ⟨trivial, List.forall_mem_cons.2 ⟨trivial, hw⟩⟩

/-- A call is entered, with a 64-bit receiver only if the host runs it. -/
theorem enterCall_narrow (hn : setup.natives = .standard) (s : State)
    (hreceiver : ∀ n, receiver? = some (.long n) → method.body = .native) (args : List Value)
    (hw : ∀ work ∈ waiting, work.Narrow) : (enterCall setup s method receiver? args waiting).Narrow := by
  unfold enterCall
  split
  · trivial
  · dsimp only
    split
    · next code hcode =>
      refine ⟨enter_narrow (fun n hlong => ?_) method code args, hw⟩
      -- code runs, so the receiver is no 64-bit value
      have hnative := hreceiver n hlong
      rw [hcode] at hnative
      cases hnative
    · split
      · trivial
      · next host hhost =>
        rw [hn] at hhost
        refine follow_narrow (fun m receiver?' args' hreply n hlong => ?_) _ method hw
        -- the receiver that the host hands on is one of its arguments, which are in halves
        obtain ⟨v, hv, hreceiver⟩ := standard_handsOver hhost _ _ _ m receiver?' args' hreply
        obtain rfl := Option.some.inj (hreceiver.symm.trans hlong)
        exact long_not_mem_splitAll args n hv

/-- Calling a method. -/
theorem startCall_narrow (hn : setup.natives = .standard) (s : State) {args : List Value}
    (h : (Task.call method receiver? args).Narrow) (hw : ∀ work ∈ waiting, work.Narrow) :
    (startCall setup s method receiver? args waiting).Narrow := by
  unfold startCall
  split
  · trivial
  · next habstract =>
    split
    · next r _ =>
      split
      · have henter : (Waiting.enter method (some (.object r)) args).Narrow :=
          fun n hlong => by cases hlong
        exact ⟨trivial, List.forall_mem_cons.2 ⟨henter, hw⟩⟩
      · trivial
    -- a static method has no receiver; for others the task says that the host runs it
    · refine enterCall_narrow hn s (fun n hlong => ?_) args hw
      split at hlong
      · cases hlong
      · next hstatic =>
        exact (h (Bool.eq_false_iff.2 hstatic) n hlong).resolve_left habstract

/-- Setting a class up: its initializer has no receiver. -/
theorem startInit_narrow (s : State) (className : String) (hw : ∀ work ∈ waiting, work.Narrow) :
    (startInit setup s className waiting).Narrow := by
  unfold startInit
  split
  · trivial
  · dsimp only
    split
    · exact ⟨trivial, hw⟩
    · split
      · exact ⟨task_call_narrow (fun n hlong => by cases hlong) _ _,
          List.forall_mem_cons.2 ⟨trivial, hw⟩⟩
      · exact ⟨trivial, hw⟩

/-- What follows an instruction. -/
theorem carryOn_narrow {flow : Except Fault Flow}
    (hframe : ∀ x, flow = .ok x → (x.frame f).Narrow)
    (hreceiver : ∀ x, flow = .ok x → ∀ n, x.receiver? ≠ some (.long n)) (s : State) (i : Instruction)
    (hw : ∀ work ∈ waiting, work.Narrow) : (carryOn s flow i waiting).Narrow := by
  cases flow with
  | error e => trivial
  | ok x =>
    have hf := hframe x rfl
    cases x with
    | next f' | jump f' pc => exact ⟨⟨hf.registers, hf.parameters⟩, hw⟩
    | leave value? => exact ⟨trivial, hw⟩
    | call f' m receiver? args =>
      exact ⟨task_call_narrow (hreceiver _ rfl) m args, List.forall_mem_cons.2 ⟨hf, hw⟩⟩
    | needClass f' className => exact ⟨trivial, List.forall_mem_cons.2 ⟨hf, hw⟩⟩
    | endless => exact ⟨trivial, hw⟩

/-- Running the next instruction. -/
theorem runNext_narrow (s : State) (hf : f.Narrow) (hw : ∀ work ∈ waiting, work.Narrow) :
    (runNext setup s f waiting).Narrow := by
  unfold runNext
  split
  · split
    · exact ⟨trivial, hw⟩
    · trivial
  · exact carryOn_narrow (fun x hx => exec_narrow hf hx)
      (fun x hx => exec_receiver_ne_long hf hx) _ _ hw

/-- Handing a value to waiting work. -/
theorem resume_narrow (hn : setup.natives = .standard) (s : State) (value? : Option Value)
    {work : Waiting} (hwork : work.Narrow) (hw : ∀ work ∈ waiting, work.Narrow) :
    (resume setup s value? work waiting).Narrow := by
  cases work with
  | caller f =>
    have hf : f.Narrow := hwork
    exact ⟨⟨hf.registers, hf.parameters⟩, hw⟩
  | access f i =>
    refine carryOn_narrow (fun x hx => access_narrow hwork hx) (fun x hx n => ?_) _ i hw
    cases access_resumes hx with
    | next | endless => exact fun hlong => by cases hlong
  | enter m receiver? args => exact enterCall_narrow hn s (fun n hlong => absurd hlong (hwork n)) args hw
  | initializer | host => exact ⟨trivial, hw⟩
  -- touching a field ends the call of the host method
  | readField m owner field args =>
    have hends := (replyField_suits s owner field args).ne_call (by decide)
    exact follow_narrow (fun m' receiver? args' hreply => absurd hreply (hends m' receiver? args')) _ m hw
  | writeField m owner field args v =>
    have hends := (writeField_suits s owner field args v).ne_call (by decide)
    exact follow_narrow (fun m' receiver? args' hreply => absurd hreply (hends m' receiver? args')) _ m hw

/-- A step keeps 64-bit values out of all slots. -/
theorem step_narrow (hn : setup.natives = .standard) {m : Snapshot} (h : m.Narrow) :
    (step setup m).Narrow := by
  obtain ⟨s, task, waiting⟩ := m
  obtain ⟨htask, hw⟩ := h
  cases task with
  | call method receiver? args => exact startCall_narrow hn s htask hw
  | initClass className => exact startInit_narrow s className hw
  | run f => exact runNext_narrow s htask hw
  | finished value? =>
    cases waiting with
    | nil => trivial
    | cons work rest =>
      obtain ⟨hwork, hrest⟩ := List.forall_mem_cons.1 hw
      exact resume_narrow hn s value? hwork hrest
  | endless => exact ⟨trivial, hw⟩

/-! ## Runs -/

/-- The calls of such a run have no 64-bit value in a slot. -/
theorem Snapshot.Narrow.frames {m : Snapshot} (h : m.Narrow) : ∀ f ∈ m.frames, f.Narrow := by
  intro f hf
  cases List.mem_append.1 hf with
  -- the call that runs, then those that wait
  | inl hrunning =>
    have htask := h.task
    cases hrun : m.task with
    | run f' =>
      rw [hrun] at hrunning htask
      obtain rfl := List.mem_singleton.1 hrunning
      exact htask
    | call | initClass | finished | endless =>
      rw [hrun] at hrunning
      cases hrunning
  | inr hwaits =>
    obtain ⟨work, hmem, hwork⟩ := List.mem_filterMap.1 hwaits
    have hnarrow := h.waiting work hmem
    cases work with
    | caller f' | access f' =>
      obtain rfl := Option.some.inj hwork
      exact hnarrow
    | enter | initializer | host | readField | writeField => cases hwork

/-- The call is entered with a 64-bit value as its receiver: code of an object runs, and no check is in the
way. -/
structure WideReceiver (setup : Setup) (s : State) (method : Method) (receiver? : Option Value) : Prop where
  wide : ∃ n, receiver? = some (.long n)
  ofObject : method.isStatic = false
  concrete : method.isAbstract = false
  code : ∃ code, method.body = .code code
  room : s.depth < setup.maxDepth

/-- The first step of a call with a 64-bit receiver enters the code, with the receiver in a slot. -/
theorem step_wideReceiver {s : State} {code : Code} {n : Int64} (hstatic : method.isStatic = false)
    (habstract : method.isAbstract = false) (hcode : method.body = .code code)
    (hroom : s.depth < setup.maxDepth) (args : List Value) :
    ∃ s', step setup ⟨s, .call method (some (.long n)) args, []⟩ =
      .more ⟨s', .run (.enter method code (some (.long n)) args), []⟩ := by
  have hpush : s.calls.push setup.maxDepth method = .ok (method :: s.calls) := if_pos hroom
  show ∃ s', startCall setup s method (some (.long n)) args [] = _
  simp only [startCall, habstract, hstatic, Bool.false_eq_true, ↓reduceIte, enterCall, hpush, hcode]
  exact ⟨_, rfl⟩

/-- Without a 64-bit receiver that is entered, a call fails at once or keeps 64-bit values out of all
slots. -/
theorem narrow_of_not_wideReceiver {s : State} (h : ¬ WideReceiver setup s method receiver?)
    (args : List Value) :
    (Task.call method receiver? args).Narrow ∨
      ∃ e, step setup ⟨s, .call method receiver? args, []⟩ = .fault s e := by
  by_cases hnarrow : (Task.call method receiver? args).Narrow
  · exact .inl hnarrow
  · right
    simp only [Task.Narrow, Classical.not_forall, not_or] at hnarrow
    obtain ⟨hstatic, n, rfl, habstract, hbody⟩ := hnarrow
    have habstract := Bool.eq_false_iff.2 habstract
    obtain ⟨code, hcode⟩ : ∃ code, method.body = .code code := by
      cases hm : method.body with
      | code code => exact ⟨code, rfl⟩
      | native => exact absurd hm hbody
    -- all else is given, so it is the stack that has no room
    have hfull : ¬ s.calls.length < setup.maxDepth :=
      fun hroom => h ⟨⟨n, rfl⟩, hstatic, habstract, ⟨code, hcode⟩, hroom⟩
    have hpush : s.calls.push setup.maxDepth method = .error (.stackOverflow setup.maxDepth) :=
      if_neg hfull
    refine ⟨.stackOverflow setup.maxDepth, ?_⟩
    show startCall setup s method (some (.long n)) args [] = _
    simp only [startCall, habstract, hstatic, Bool.false_eq_true, ↓reduceIte, enterCall, hpush]

/-- A call from outside that is not finished is a run that is not finished. -/
theorem unfinished_of_invoke {steps : Nat} {args : List Value} {m : Snapshot}
    (h : invoke setup steps s method receiver? args = .unfinished m) :
    run setup steps ⟨s, .call method receiver? args, []⟩ = .unfinished m := by
  unfold invoke invokeMethod at h
  split at h
  · cases h
  · exact h

/-- When the calls of a run from outside have no 64-bit value in a slot. -/
theorem frames_narrow_iff (hn : setup.natives = .standard) (s : State) (method : Method)
    (receiver? : Option Value) (args : List Value) :
    (∀ steps m, invoke setup steps s method receiver? args = .unfinished m → ∀ f ∈ m.frames, f.Narrow) ↔
      ¬ WideReceiver setup s method receiver? := by
  constructor
  -- one step leads into the code, where the receiver lies in the first parameter
  · rintro hall ⟨⟨n, rfl⟩, hstatic, habstract, ⟨code, hcode⟩, hroom⟩
    obtain ⟨s', hstep⟩ := step_wideReceiver hstatic habstract hcode hroom (n := n) args
    have hinvoke : invoke setup 1 s method (some (.long n)) args =
        .unfinished ⟨s', .run (.enter method code (some (.long n)) args), []⟩ := by
      rw [invoke, invokeMethod, run_more hstep]
      rfl
    exact (hall 1 _ hinvoke _ List.mem_cons_self).parameters 0 n rfl
  · intro h steps m hm
    have hrun := unfinished_of_invoke hm
    -- every step keeps 64-bit values out, or there is no second step
    rcases narrow_of_not_wideReceiver h args with htask | ⟨e, hfault⟩
    · have hstart : Snapshot.Narrow ⟨s, .call method receiver? args, []⟩ :=
        ⟨htask, fun work hwork => absurd hwork List.not_mem_nil⟩
      have hall := run_all (fun m hm => step_narrow hn hm) steps hstart
      rw [hrun] at hall
      exact Snapshot.Narrow.frames hall
    · cases steps with
      | zero =>
        obtain rfl := Outcome.unfinished.inj hrun
        exact fun f hf => absurd hf List.not_mem_nil
      | succ steps =>
        rw [run, hfault] at hrun
        cases hrun

/-- Where 64-bit values are found in slots.
- Registers never hold one, whatever is written.
- A parameter holds one exactly if it is the receiver of the call and nothing has been written over it; so
  the parameters of a call never hold one exactly if the receiver is none.
- On a machine with the host methods of the standard library no call of a run has one in a slot, exactly if
  the run is not begun by a call that is entered with one as its receiver. -/
theorem narrow_slots_iff (count : Nat) (receiver? : Option Value) (args : List Value)
    (writes : List SlotWrite) (program : Program) (maxDepth : Nat) (s : State) (method : Method) :
    ((Slots.registers count).after writes).Narrow ∧
    (∀ k n, ((Slots.parameters receiver? args).after writes).get k = .ok (.long n) ↔
      k = 0 ∧ receiver? = some (.long n) ∧
        lastWrite? (Slots.parameters receiver? args).size 0 writes = none) ∧
    ((∀ writes, ((Slots.parameters receiver? args).after writes).Narrow) ↔
      ∀ n, receiver? ≠ some (.long n)) ∧
    ((∀ steps m, invoke { program, maxDepth } steps s method receiver? args = .unfinished m →
      ∀ f ∈ m.frames, f.Narrow) ↔ ¬ WideReceiver { program, maxDepth } s method receiver?) := by
  refine ⟨narrow_after (narrow_registers count) writes, get_parameters_after_iff receiver? args writes,
    ⟨fun h n hlong => ?_, fun h writes => ?_⟩, frames_narrow_iff rfl s method receiver? args⟩
  · exact h [] 0 n ((get_parameters_after_iff receiver? args [] 0 n).2 ⟨rfl, hlong, rfl⟩)
  · exact narrow_after (narrow_parameters h args) writes

/-! ## A number that receives a call -/

namespace Receiving

/-- A method of an object that does nothing. -/
def idle : Method where
  className := "LNumber;"
  name := "idle"
  flags := .ofWords []
  params := []
  returnType := .void
  body := .code {}

/-- A machine with the method. -/
def machine : Setup where
  program := ClassTable.freeze
    ⟨[("LNumber;", { flags := .ofWords [], name := "LNumber;", methods := [idle] })]⟩

end Receiving

open Receiving in
/-- A 64-bit number as the receiver is found in one slot, in the parameters that are laid out for it and in
the call that is made on it. -/
theorem wide_receiver_kept :
    (Slots.parameters (some (.long 5)) []).get 0 = .ok (.long 5) ∧
    ∃ m f, invoke machine 1 {} idle (some (.long 5)) [] = .unfinished m ∧ f ∈ m.frames ∧
      f.read (.parameter 0) = .ok (.long 5) :=
  ⟨rfl, _, .enter idle {} (some (.long 5)) [], rfl, List.mem_cons_self, rfl⟩

end Smali.Machine
