import Smali.Proofs.ClassStatus
import Smali.Proofs.Executions
import Smali.Proofs.InPlace

/-!
# The footprint of an instruction

An instruction that is executed changes no slot of its frame but its destination, and one that fails changes
none. Until it enters a call or sets a class up it does not touch what was in the state before either: it
may have added an object, an array, a literal or a line of the journal (`State.SameApart`), so that is all
that a failure leaves behind. The set-up of a class gives new values to the static fields and the status of
that class.

## Key results

- `exec_same`, `access_same`: what an instruction leaves behind that does not come to its end
- `Preparing.step`: one step before a call is entered
- `underway_same`: the state at every moment before a call is entered
- `instruction_footprint`: what an execution leaves alone
-/

namespace Smali.Machine

/-- The states agree, apart from the static fields and the status of some classes. Objects and arrays,
literals and lines of the journal may have been added. -/
structure State.SameApart (apart : Nat → Prop) (s s' : State) : Prop where
  statics : ∀ id, ¬ apart id → s'.statics.get? id = s.statics.get? id
  status : ∀ id, ¬ apart id → s'.classStatus id = s.classStatus id
  locks : s'.locks = s.locks
  lastReturn? : s'.lastReturn? = s.lastReturn?
  calls : s'.calls = s.calls
  object : ∀ (ref : Nat) o, s.heap.objects[ref]? = some o → s'.heap.objects[ref]? = some o
  array : ∀ (ref : Nat) a, s.heap.arrays[ref]? = some a → s'.heap.arrays[ref]? = some a

/-- The states agree. -/
abbrev State.Same : State → State → Prop :=
  State.SameApart fun _ => False

/-- The method that the next step calls. The class of an object that receives a call is set up before. -/
def Snapshot.callee? (m : Snapshot) : Option Method :=
  match m.task, m.waiting with
  | .call method receiver? _, _ =>
    if method.isAbstract then none
    else
      match if method.isStatic then none else receiver? with
      | some (.object _) => none
      | _ => some method
  | .finished _, .enter method _ _ :: _ => some method
  | _, _ => none

/-- The next step enters a call, for which there is room. -/
def Snapshot.EntersCall (setup : Setup) (m : Snapshot) : Prop :=
  m.callee?.isSome = true ∧ m.state.calls.length < setup.maxDepth

variable {setup : Setup} {p : Program} {apart : Nat → Prop} {s s' : State} {f : Frame}
  {i : Instruction} {waiting : List Waiting} {m m' : Snapshot}

/-! ## States that agree -/

namespace State.SameApart

/-- A state agrees with itself. -/
theorem refl (s : State) : s.SameApart apart s :=
  ⟨fun _ _ => rfl, fun _ _ => rfl, rfl, rfl, rfl, fun _ _ => id, fun _ _ => id⟩

/-- What agrees with a third state agrees with it. -/
theorem trans {s'' : State} (h : s.SameApart apart s') (h' : s'.SameApart apart s'') :
    s.SameApart apart s'' where
  statics id hid := (h'.statics id hid).trans (h.statics id hid)
  status id hid := (h'.status id hid).trans (h.status id hid)
  locks := h'.locks.trans h.locks
  lastReturn? := h'.lastReturn?.trans h.lastReturn?
  calls := h'.calls.trans h.calls
  object ref o ho := h'.object ref o (h.object ref o ho)
  array ref a ha := h'.array ref a (h.array ref a ha)

/-- More classes may be left out. -/
theorem mono {apart' : Nat → Prop} (h : s.SameApart apart s') (hapart : ∀ id, apart id → apart' id) :
    s.SameApart apart' s' where
  statics id hid := h.statics id fun hid' => hid (hapart id hid')
  status id hid := h.status id fun hid' => hid (hapart id hid')
  locks := h.locks
  lastReturn? := h.lastReturn?
  calls := h.calls
  object := h.object
  array := h.array

/-- A line in the journal. -/
theorem log (s : State) (level : Level) (message : Unit → String) :
    s.SameApart apart (s.log level message) :=
  ⟨fun _ _ => rfl, fun _ _ => rfl, rfl, rfl, rfl, fun _ _ => id, fun _ _ => id⟩

/-- A new object. -/
theorem allocObject (s : State) (o : Object) : s.SameApart apart (s.allocObject o).1 :=
  ⟨fun _ _ => rfl, fun _ _ => rfl, rfl, rfl, rfl, fun _ _ ho => getElem?_push_of_some ho o,
    fun _ _ => id⟩

/-- A new array. -/
theorem allocArray (s : State) (type : Descriptor) (values : Array Value) :
    s.SameApart apart (s.allocArray type values).1 :=
  ⟨fun _ _ => rfl, fun _ _ => rfl, rfl, rfl, rfl, fun _ _ => id,
    fun _ _ ha => getElem?_push_of_some ha _⟩

/-- A literal may get an object. -/
theorem intern (s : State) (text : String) : s.SameApart apart (s.intern text).1 := by
  unfold State.intern
  split
  · exact .refl s
  · have hnew : s.SameApart apart (s.newString text).1 := .allocObject s _
    exact ⟨hnew.statics, hnew.status, hnew.locks, hnew.lastReturn?, hnew.calls, hnew.object, hnew.array⟩

/-- The first value of a type may be a literal. -/
theorem defaultValue (s : State) (type : Descriptor) :
    s.SameApart apart (s.defaultValue type).1 := by
  unfold State.defaultValue
  split
  · exact .intern s ""
  · exact .refl s

/-- So may be the first value of a field. -/
theorem initialValue (s : State) (field : Field) : s.SameApart apart (s.initialValue field).1 := by
  unfold State.initialValue
  cases field.initial? with
  | none => exact .defaultValue s field.type
  | some c =>
    cases c with
    | string text => exact .intern s text
    | integer | boolean | null => exact .refl s

/-- The first values of all static fields. -/
theorem initialStatics (s : State) (fields : List Field) :
    s.SameApart apart (s.initialStatics fields).1 := by
  unfold State.initialStatics
  -- the induction is on the fields, with the values so far
  generalize ({} : Table String Value) = table
  induction fields generalizing s table with
  | nil => exact .refl s
  | cons field rest ih =>
    rw [List.foldl_cons]
    exact (initialValue s field).trans (ih _ _)

/-- The set-up of a class changes what is known of that class only. -/
theorem setUp {c : LoadedClass} (hc : apart c.id) (s : State) (fields : Table String Value)
    (status : ClassStatus) :
    s.SameApart apart ((s.installStatics c.id fields).setClassStatus c.id status) where
  statics id hid := by
    have hne : id ≠ c.id := fun heq => hid (heq ▸ hc)
    show (s.statics.insert c.id fields).get? id = s.statics.get? id
    rw [Table.get?_insert, if_neg hne]
  status id hid := by
    have hne : id ≠ c.id := fun heq => hid (heq ▸ hc)
    rw [classStatus_setUp rfl, if_neg hne]
  locks := rfl
  lastReturn? := rfl
  calls := rfl
  object _ _ := id
  array _ _ := id

end State.SameApart

/-! ## Instructions -/

/-- A part that fails changes nothing. -/
theorem attempt_same {r : Except Fault α} {k : α → State × Except Fault Flow}
    (hk : ∀ a, r = .ok a → s.Same (k a).1) : s.Same (attempt s r k).1 := by
  cases r with
  | error e => exact .refl s
  | ok a => exact hk a rfl

/-- A new array leaves the state as it was. -/
theorem newArray_same (s : State) (f : Frame) (dest length : Slot) (type : Descriptor) :
    s.Same (newArray s f dest length type).1 := by
  refine attempt_same fun n _ => ?_
  split
  · exact .refl s
  · split
    · exact .refl s
    · next element _ =>
      have hvalue : s.Same (if n.toInt = 0 then (s, .int 0) else s.defaultValue element).1 := by
        split
        · exact .refl s
        · exact .defaultValue s element
      exact hvalue.trans (.allocArray _ element _)

/-- So does a new object. -/
theorem newObject_same (p : Program) (s : State) (className : String) :
    s.Same (newObject p s className).1 := by
  unfold newObject
  split
  · exact .refl s
  · dsimp only
    split <;> exact .allocObject s _

/-- The choice of the method to call leaves the state as it was. -/
theorem dispatch_same (p : Program) (s : State) (f : Frame) (kind : InvokeKind) (args : List Slot)
    (id : MethodId) : s.Same (dispatch p s f kind args id).1 := by
  refine attempt_same fun values _ => ?_
  cases kind with
  | static | direct => exact attempt_same fun m _ => .refl s
  | virtual =>
    refine attempt_same fun c _ => ?_
    split
    · exact .log s _ _
    · exact .refl s
    · exact .refl s

/-- An instruction that is not done in its first step has not touched anything yet. -/
theorem exec_same (h : ∀ f', (exec p s f i).2 ≠ .ok (.next f')) : s.Same (exec p s f i).1 := by
  -- what touches the state goes on with the next instruction, and the others only add to it
  cases i with
  | constString dest text => exact .intern s text
  | moveResult kind dest =>
    simp only [exec]
    split <;> exact .refl s
  | invoke kind args id => exact dispatch_same p s f kind args id
  | newArray dest length type => exact newArray_same s f dest length type
  | newInstance dest className =>
    have hnew := newObject_same p s className
    simp only [exec]
    split
    · next s' r hr => exact (congrArg Prod.fst hr) ▸ hnew
    · next s' e he => exact (congrArg Prod.fst he) ▸ hnew
  -- a store that is made goes on with the next instruction, which is excluded
  | arrayPut kind src array index =>
    refine attempt_same fun heap hput => absurd ?_ (h f)
    rw [exec, hput]
    rfl
  -- and so does a lock that is taken or given back
  | monitorEnter slot | monitorExit slot =>
    refine attempt_same fun s' hlock => absurd ?_ (h f)
    rw [exec, hlock]
    rfl
  | _ => exact .refl s

/-- The second half of a field access that fails has not touched anything. -/
theorem access_same {e : Fault} (h : (access p s f i).2 = .error e) : s.Same (access p s f i).1 := by
  cases i with
  | staticPut kind src id =>
    refine attempt_same fun s' hput => ?_
    rw [access, hput] at h
    cases h
  -- reading a field that was never written may need the first value of its type
  | instanceGet kind dest object id =>
    rw [access]
    split
    · refine attempt_same fun fields _ => ?_
      dsimp only
      split
      · exact .refl s
      · exact .defaultValue s _
    · exact .refl s
    · exact .refl s
  | instancePut kind src object id =>
    rw [access] at h ⊢
    split
    · next hfound =>
      refine attempt_same fun heap hput => ?_
      rw [hfound] at h
      dsimp only at h
      rw [hput] at h
      cases h
    · exact .refl s
    · exact .refl s
  | _ => exact .refl s

/-! ## Before a call is entered -/

/-- The work that waits for a class to be set up before a call is entered: the call itself, or the
instruction that touches a field. -/
inductive NeedsClass (f : Frame) (i : Instruction) (waiting : List Waiting) : List Waiting → Prop
  | enter (method : Method) (receiver? : Option Value) (args : List Value) (rest : List Waiting) :
    NeedsClass f i waiting (.enter method receiver? args :: rest)
  | access : NeedsClass f i waiting (.access f i :: waiting)

/-- The moments after the first step of an instruction and before it enters a call. -/
inductive Preparing (f : Frame) (i : Instruction) (waiting : List Waiting) : Snapshot → Prop
  | call (s : State) (method : Method) (receiver? : Option Value) (args : List Value)
    (rest : List Waiting) : Preparing f i waiting ⟨s, .call method receiver? args, rest⟩
  | initClass (s : State) (className : String) (rest : List Waiting)
    (h : NeedsClass f i waiting rest) : Preparing f i waiting ⟨s, .initClass className, rest⟩
  | finished (s : State) (value? : Option Value) (rest : List Waiting)
    (h : NeedsClass f i waiting rest) : Preparing f i waiting ⟨s, .finished value?, rest⟩

/-- The step fails and leaves the state as it is, or the instruction is still under way and no call is
entered, or it is over. One class may have been set up. -/
abbrev Progress.Prepares (p : Program) (f : Frame) (i : Instruction) (waiting : List Waiting)
    (m : Snapshot) : Progress → Prop :=
  Progress.All
    (fun m' => waiting.length < m'.waiting.length →
      Preparing f i waiting m' ∧ m.state.SameApart (m.Installs p) m'.state)
    (fun _ _ => True) (fun s' _ => m.state.Same s')

/-- Without room for it a call is not entered. -/
theorem enterCall_full (hfull : ¬ s.calls.length < setup.maxDepth) (method : Method)
    (receiver? : Option Value) (args : List Value) (rest : List Waiting) :
    enterCall setup s method receiver? args rest = .fault s (.stackOverflow setup.maxDepth) := by
  rw [enterCall, CallStack.push, if_neg hfull]

/-- A call that is not entered fails, or waits for the class of its receiver. -/
theorem startCall_prepares {method : Method} {receiver? : Option Value} {args : List Value}
    {rest : List Waiting}
    (hcall : ¬ Snapshot.EntersCall setup ⟨s, .call method receiver? args, rest⟩) :
    (startCall setup s method receiver? args rest).Prepares setup.program f i waiting
      ⟨s, .call method receiver? args, rest⟩ := by
  -- an abstract method, a receiver whose class has to be set up, or no such receiver
  unfold startCall
  split
  · exact .refl s
  · next habstract =>
    split
    · split
      · exact fun _ => ⟨.initClass s _ _ (.enter method _ args rest), .refl s⟩
      · exact .refl s
    · next hreceiver =>
      -- such a call would be entered at once, so there is no room for it
      have hcallee : (Snapshot.mk s (.call method receiver? args) rest).callee?.isSome = true := by
        unfold Snapshot.callee?
        dsimp only
        rw [if_neg habstract]
        split
        · next r hr => exact absurd hr (hreceiver r)
        · rfl
      have hfull : ¬ s.calls.length < setup.maxDepth := fun hroom => hcall ⟨hcallee, hroom⟩
      rw [enterCall_full hfull]
      exact .refl s

/-- Unless the class is unknown, its set-up leads to what is prepared for. -/
theorem startInit_prepares {rest : List Waiting} (hrest : NeedsClass f i waiting rest)
    (setup : Setup) (s : State) (className : String) :
    (startInit setup s className rest).Prepares setup.program f i waiting
      ⟨s, .initClass className, rest⟩ := by
  unfold startInit
  split
  · exact .refl s
  · next c hc =>
    dsimp only
    split
    · exact fun _ => ⟨.finished s none rest hrest, .refl s⟩
    · next hfresh =>
      -- this is the class that the step sets up
      have hinstalls : Snapshot.Installs setup.program ⟨s, .initClass className, rest⟩ c.id :=
        ⟨className, c, rfl, hc, rfl, Classical.not_not.1 hfresh⟩
      have hfirst : s.SameApart (Snapshot.Installs setup.program ⟨s, .initClass className, rest⟩)
          ((s.log .debug fun _ => "initialize class " ++ c.name).initialStatics c.staticFields).1 :=
        (State.SameApart.log s _ _).trans (.initialStatics _ _)
      split
      · exact fun _ => ⟨.call _ _ none [] _, hfirst.trans (.setUp hinstalls _ _ .initializing)⟩
      · exact fun _ => ⟨.finished _ none rest hrest, hfirst.trans (.setUp hinstalls _ _ .initialized)⟩

/-- One step after the first and before a call is entered. -/
theorem Preparing.step (hm : Preparing f i waiting m) (hcall : ¬ m.EntersCall setup) :
    (step setup m).Prepares setup.program f i waiting m := by
  cases hm with
  | call s method receiver? args rest => exact startCall_prepares hcall
  | initClass s className rest hrest => exact startInit_prepares hrest setup s className
  | finished s value? rest hrest =>
    cases hrest with
    | enter method receiver? args rest =>
      have hfull : ¬ s.calls.length < setup.maxDepth := fun hroom => hcall ⟨rfl, hroom⟩
      show (enterCall setup s method receiver? args rest).Prepares setup.program f i waiting _
      rw [enterCall_full hfull]
      exact .refl s
    | access =>
      show (carryOn (access setup.program s f i).1 (access setup.program s f i).2 i waiting).Prepares
        setup.program f i waiting _
      cases hflow : (access setup.program s f i).2 with
      | error e => exact access_same hflow
      | ok flow =>
        -- the instruction is over
        cases access_resumes hflow with
        | next | endless => exact fun hinside => absurd hinside (Nat.lt_irrefl _)

/-- The first step of an instruction. -/
theorem exec_prepares (hi : f.code.instructions[f.pc]? = some i) (setup : Setup) (s : State)
    (waiting : List Waiting) :
    (step setup ⟨s, .run f, waiting⟩).Prepares setup.program f i waiting ⟨s, .run f, waiting⟩ := by
  obtain ⟨line, hrun⟩ := step_run setup hi s waiting
  rw [hrun]
  -- unless the instruction is done, the state is the same but for the line in the journal
  have hquiet {flow : Except Fault Flow} (hflow : (exec setup.program (s.log .trace line) f i).2 = flow)
      (hnext : ∀ f', flow ≠ .ok (.next f')) :
      s.Same (exec setup.program (s.log .trace line) f i).1 :=
    (State.SameApart.log s .trace line).trans (exec_same fun f' => hflow ▸ hnext f')
  cases hflow : (exec setup.program (s.log .trace line) f i).2 with
  | error e => exact hquiet hflow fun f' h => by cases h
  | ok flow =>
    cases exec_continues hflow with
    | next | jump | leave | endless => exact fun hinside => absurd hinside (Nat.lt_irrefl _)
    | call method receiver? args =>
      have hsame := hquiet hflow fun f' h => by cases h
      exact fun _ => ⟨.call _ method receiver? args _, hsame.mono fun _ => False.elim⟩
    | needClass className =>
      have hsame := hquiet hflow fun f' h => by cases h
      exact fun _ => ⟨.initClass _ className _ .access, hsame.mono fun _ => False.elim⟩

/-- One step of an instruction before a call is entered. -/
theorem step_prepares (hi : f.code.instructions[f.pc]? = some i)
    (hm : m = ⟨s, .run f, waiting⟩ ∨ Preparing f i waiting m) (hcall : ¬ m.EntersCall setup) :
    (step setup m).Prepares setup.program f i waiting m := by
  rcases hm with rfl | hm
  · exact exec_prepares hi setup s waiting
  · exact hm.step hcall

/-! ## Executions -/

/-- Up to the first call, nothing that was in the state has been touched but the classes that were set
up. -/
theorem underway_same {start : Snapshot} (hstart : start = ⟨s, .run f, waiting⟩)
    (hi : f.code.instructions[f.pc]? = some i)
    (hcalls : ∀ m, Underway setup start m → ¬ m.EntersCall setup) (hm : Underway setup start m) :
    (m = start ∨ Preparing f i waiting m) ∧
      s.SameApart (fun id => ∃ m, Underway setup start m ∧ m.Installs setup.program id) m.state := by
  subst hstart
  -- the induction is on the steps taken; each step adds at most the class that it sets up
  induction hm with
  | refl => exact ⟨.inl rfl, .refl s⟩
  | @tail m m' hm hstep ih =>
    obtain ⟨hkind, hsame⟩ := ih
    obtain ⟨hstep, hinside⟩ := hstep
    have hprepares := step_prepares hi hkind (hcalls m hm)
    rw [hstep] at hprepares
    obtain ⟨hkind', hsame'⟩ := hprepares hinside
    exact ⟨.inr hkind', hsame.trans (hsame'.mono fun id hid => ⟨m, hm, hid⟩)⟩

/-- A failure before the first call leaves all that was in the state as it was, but for the classes that
were set up. -/
theorem fault_same {e : Fault} (hi : f.code.instructions[f.pc]? = some i)
    (hcalls : ∀ m, Underway setup ⟨s, .run f, waiting⟩ m → ¬ m.EntersCall setup)
    (h : Executes setup ⟨s, .run f, waiting⟩ (.fault s' e)) :
    s.SameApart (fun id => ∃ m, Underway setup ⟨s, .run f, waiting⟩ m ∧
      m.Installs setup.program id) s' := by
  obtain ⟨m, hm, hstep, _⟩ := h
  obtain ⟨hkind, hsame⟩ := underway_same rfl hi hcalls hm
  -- the last step fails without a change, and up to it only classes were set up
  have hprepares := step_prepares hi hkind (hcalls m hm)
  rw [hstep] at hprepares
  exact hsame.trans (hprepares.mono fun _ => False.elim)

/-- The slots with which a frame goes on. -/
theorem carryOn_sameOutside {flow : Except Fault Flow} {f' : Frame}
    (hflow : ∀ x, flow = .ok x → f.SameOutside i.footprint (x.frame f))
    (h : carryOn s flow i waiting = .more m') (htask : m'.task = .run f') :
    f.SameOutside i.footprint f' := by
  cases flow with
  | error e => cases h
  | ok x =>
    have hsame := hflow x rfl
    -- the frame goes on with another place in the code and the slots that the flow gives it
    cases x with
    | next f₁ | jump f₁ =>
      obtain rfl := Progress.more.inj h
      obtain rfl := Task.run.inj htask
      exact ⟨hsame.registers, hsame.parameters, hsame.cell⟩
    | leave | call | needClass | endless =>
      obtain rfl := Progress.more.inj h
      cases htask

/-- An instruction that is executed leaves all slots alone but its destination. -/
theorem executes_sameOutside {f' : Frame} (hi : f.code.instructions[f.pc]? = some i)
    (h : Executes setup ⟨s, .run f, waiting⟩ (.more m')) (htask : m'.task = .run f') :
    f.SameOutside i.footprint f' := by
  obtain ⟨_, hstep | ⟨s₁, value?, work, _, hwork, hresume⟩⟩ := executes_more hi h
  · obtain ⟨line, hrun⟩ := step_run setup hi s waiting
    rw [hrun] at hstep
    exact carryOn_sameOutside (fun x hx => exec_sameOutside hx) hstep htask
  · cases hwork with
    -- behind a call the frame goes on as it was
    | caller =>
      obtain rfl := Progress.more.inj hresume
      obtain rfl := Task.run.inj htask
      exact ⟨rfl, rfl, fun _ _ => rfl⟩
    | access => exact carryOn_sameOutside (fun x hx => access_sameOutside hx) hresume htask

/-- Take any frame, any state and the instruction that is next in the frame.

- If the execution comes to its end, the frame has as many slots as before, and the same in all slots but
  the destination of the instruction. A call has no destination.
- As long as it has not come to its end, the frame is as it was: the instruction has not begun, or the frame
  waits for the call or the class. So it is when the execution fails above the frame.
- Neither half of an instruction that fails leaves anything in the frame, even if it writes slot by slot.
- If it fails before it enters a call, nothing that was in the state has changed but the static fields and
  the status of the classes that it has set up. So nothing has changed if it has set up none. -/
theorem instruction_footprint (setup : Setup) (s : State) (f : Frame) (i : Instruction)
    (waiting : List Waiting) (hi : f.code.instructions[f.pc]? = some i) :
    let start : Snapshot := ⟨s, .run f, waiting⟩
    (∀ m', Executes setup start (.more m') → m'.waiting = waiting ∧
      ∀ f', m'.task = .run f' → f.SameOutside i.footprint f') ∧
    (∀ m, Underway setup start m → m = start ∨
      ∃ front work, m.waiting = front ++ work :: waiting ∧ work.Holds f i) ∧
    (∀ s₁, perform setup.program s₁ i f =
        allOrNothing f (frameAfter f (exec setup.program s₁ f i).2) ∧
      performAccess setup.program s₁ i f =
        allOrNothing f (frameAfter f (access setup.program s₁ f i).2)) ∧
    ∀ s' e, Executes setup start (.fault s' e) →
      (∀ m, Underway setup start m → ¬ m.EntersCall setup) →
      s.SameApart (fun id => ∃ m, Underway setup start m ∧ m.Installs setup.program id) s' := by
  intro start
  refine ⟨fun m' h => ⟨(executes_more hi h).1, fun f' htask => executes_sameOutside hi h htask⟩,
    fun m hm => underway_cases hi hm, fun s₁ => ⟨perform_eq setup.program s₁ i f,
      performAccess_eq setup.program s₁ i f⟩, fun s' e h hcalls => fault_same hi hcalls h⟩

namespace Overlap

/-- Moves a 64-bit value by one slot. -/
def moveUp : Instruction :=
  .move .wide (.register 1) (.register 0)

/-- Writes a 64-bit value for which there is one slot only. -/
def writeLast : Instruction :=
  .constWide (.register 2) ⟨5, 8⟩

/-- A method with the two instructions. -/
def shift : Method where
  className := "LOverlap;"
  name := "shift"
  flags := .ofWords ["static"]
  params := []
  returnType := .void
  body := .code { registerCount := 3, instructions := #[moveUp, writeLast] }

/-- The frame before an instruction: two of its three registers are written. -/
def frame (pc : Nat) : Frame where
  method := shift
  code := { registerCount := 3, instructions := #[moveUp, writeLast] }
  pc
  registers := ⟨#[some (.int 1), some (.int 2), none]⟩
  parameters := ⟨#[]⟩

/-- The frame after the move. -/
def moved : Frame :=
  { frame 1 with registers := ⟨#[some (.int 1), some (.int 1), some (.int 2)]⟩ }

/-- A machine without classes. -/
def machine : Setup where
  program := ClassTable.freeze ⟨[]⟩

end Overlap

open Overlap in
/-- A move whose source and destination share a slot changes the destination only. A write for which there
is one slot too few fails and leaves the frame and the state as they were, in place as well. -/
theorem overlap_footprint :
    Executes machine ⟨{}, .run (frame 0), []⟩ (.more ⟨{}, .run moved, []⟩) ∧
    (frame 0).SameOutside [.register 1, .register 2] moved ∧
    Executes machine ⟨{}, .run (frame 1), []⟩ (.fault {} (.outOfBounds 3 3)) ∧
    perform machine.program {} writeLast (frame 1) = .error (.outOfBounds 3 3) (frame 1) ∧
    State.SameApart (fun id => ∃ m, Underway machine ⟨{}, .run (frame 1), []⟩ m ∧
      m.Installs machine.program id) {} {} := by
  obtain ⟨hmoved, -⟩ := instruction_footprint machine {} (frame 0) moveUp [] rfl
  obtain ⟨-, -, hplace, hsame⟩ := instruction_footprint machine {} (frame 1) writeLast [] rfl
  have hstep : step machine ⟨{}, .run (frame 0), []⟩ = .more ⟨{}, .run moved, []⟩ := by decide
  have hfails : step machine ⟨{}, .run (frame 1), []⟩ = .fault {} (.outOfBounds 3 3) := by decide
  -- each of the two is over after one step
  have hmove : Executes machine ⟨{}, .run (frame 0), []⟩ (.more ⟨{}, .run moved, []⟩) := by
    refine ⟨_, .refl, hstep, fun m' hm' => ?_⟩
    obtain rfl := Progress.more.inj hm'
    exact Nat.le_refl _
  have hfault : Executes machine ⟨{}, .run (frame 1), []⟩ (.fault {} (.outOfBounds 3 3)) :=
    ⟨_, .refl, hfails, fun m' hm' => by cases hm'⟩
  refine ⟨hmove, (hmoved _ hmove).2 moved rfl, hfault, ?_, hsame _ _ hfault fun m hm => ?_⟩
  · rw [(hplace {}).1]
    rfl
  · -- the first step fails, so the execution has one moment only, and no call is entered there
    rcases Relation.ReflTransGen.cases_head_iff.1 hm with rfl | ⟨m', hinside, -⟩
    · exact fun hcall => by cases hcall.1
    · cases hfails.symm.trans hinside.1

end Smali.Machine
