import Mathlib.Algebra.GroupWithZero.Nat
import Smali.Proofs.QuietRuns
import Smali.Proofs.SlotHistories

/-!
# Parameters

The parameters of a call are the receiver, if there is one, and the arguments after it, where a 64-bit value
takes two slots. So the place of an argument is given by the values in front of it (`argumentOffset`).

A 64-bit argument can be handed over as a whole, as callers from outside do, or as its two halves, as an
instruction does that forwards its slots. The callee cannot tell which: the two runs go on step by step in
the same way, and all they differ in is the debug line that shows the arguments. `Snapshot.split` is a run
between two steps with all arguments in halves and without such lines; a step leads from runs with the same
halves to runs with the same halves (`step_split`).

## Key results

- `getWide_argument`, `get_argument`: where an argument is found
- `run_split`: a run does not depend on how 64-bit arguments are handed over
- `readWide_forwarded`: a 64-bit value whose two slots are forwarded arrives
- `handing_over`: the layout, both ways to hand an argument over, and forwarding
-/

namespace Smali.Machine

/-- The number of slots that a value takes. -/
def Value.slotCount : Value → Nat
  | .long _ => 2
  | _ => 1

/-- The slot of an argument, behind the receiver and the arguments in front of it. -/
def argumentOffset (receiver? : Option Value) (args : List Value) (k : Nat) : Nat :=
  receiver?.toList.length + ((args.take k).map Value.slotCount).sum

/-! ## Layout -/

/-- The slots of the first value come first. -/
theorem splitAll_cons (v : Value) (vs : List Value) :
    Value.splitAll (v :: vs) = Value.splitAll [v] ++ Value.splitAll vs := by
  simp [Value.splitAll]

/-- The slots of values in two parts. -/
theorem splitAll_append (vs ws : List Value) :
    Value.splitAll (vs ++ ws) = Value.splitAll vs ++ Value.splitAll ws :=
  List.flatMap_append

/-- A 64-bit value takes two slots, the upper half first. -/
theorem splitAll_long (n : Int64) : Value.splitAll [.long n] = [.int (upper n), .int (lower n)] := by
  rw [← highHalf_eq, ← lowHalf_eq]
  rfl

/-- Any other value takes one. -/
theorem splitAll_narrow {v : Value} (h : v.variant ≠ .long) : Value.splitAll [v] = [v] := by
  cases v with
  | long n => exact absurd rfl h
  | int | object | array => rfl

/-- The number of slots is the sum of those of the values. -/
theorem length_splitAll (vs : List Value) :
    (Value.splitAll vs).length = (vs.map Value.slotCount).sum := by
  rw [Value.splitAll, List.length_flatMap]
  congr 1
  refine List.map_congr_left fun v _ => ?_
  cases v <;> rfl

/-- Halves are not split again. -/
theorem splitAll_splitAll (vs : List Value) :
    Value.splitAll (Value.splitAll vs) = Value.splitAll vs := by
  -- the induction is on the values: a half takes one slot
  induction vs with
  | nil => rfl
  | cons v vs ih =>
    rw [splitAll_cons, splitAll_append, ih]
    cases v <;> rfl

/-- The number of parameters. -/
theorem size_parameters (receiver? : Option Value) (args : List Value) :
    (Slots.parameters receiver? args).size =
      receiver?.toList.length + (args.map Value.slotCount).sum := by
  simp [Slots.parameters, Slots.size, length_splitAll]

/-- The slots of an argument start at its offset. -/
theorem cells_argument (receiver? : Option Value) {args : List Value} {k : Nat} {v : Value}
    (hk : args[k]? = some v) {i : Nat} (hi : i < v.slotCount) :
    (Slots.parameters receiver? args).cells[argumentOffset receiver? args k + i]? =
      (Value.splitAll [v])[i]?.map some := by
  obtain ⟨hlt, rfl⟩ := List.getElem?_eq_some_iff.1 hk
  -- the slots of the arguments in front, of this one, and of those behind it
  have hparts : Value.splitAll args = Value.splitAll (args.take k) ++
      (Value.splitAll [args[k]] ++ Value.splitAll (args.drop (k + 1))) := by
    rw [← splitAll_cons, ← List.drop_eq_getElem_cons hlt, ← splitAll_append, List.take_append_drop]
  have hfront : (receiver?.toList ++ Value.splitAll (args.take k)).length =
      argumentOffset receiver? args k := by
    rw [List.length_append, length_splitAll, argumentOffset]
  have hinside : i < (Value.splitAll [args[k]]).length := by
    simpa [length_splitAll] using hi
  rw [Slots.parameters, hparts, ← List.append_assoc, ← hfront, List.getElem?_toArray,
    List.getElem?_map, List.getElem?_append_right (Nat.le_add_right _ i), Nat.add_sub_cancel_left,
    List.getElem?_append_left hinside]

/-- A 64-bit argument is found in its slot and the next. -/
theorem getWide_argument {receiver? : Option Value} {args : List Value} {k : Nat} {n : Int64}
    (hk : args[k]? = some (.long n)) :
    (Slots.parameters receiver? args).getWide (argumentOffset receiver? args k) = .ok (.long n) := by
  have hhigh := cells_argument receiver? hk (show 0 < 2 by decide)
  have hlow := cells_argument receiver? hk (show 1 < 2 by decide)
  rw [splitAll_long] at hhigh hlow
  refine getWide_eq_ok.2 ⟨upper n, lower n, hhigh, hlow, ?_⟩
  rw [ofHalves_upper_lower]

/-- Any other argument is found in its slot. -/
theorem get_argument {receiver? : Option Value} {args : List Value} {k : Nat} {v : Value}
    (hk : args[k]? = some v) (hv : v.variant ≠ .long) :
    (Slots.parameters receiver? args).get (argumentOffset receiver? args k) = .ok v := by
  have hcell := cells_argument receiver? hk (i := 0) (by cases v <;> simp [Value.slotCount])
  rw [splitAll_narrow hv] at hcell
  exact get_of_cells hcell

/-- Two arguments that are the halves of a 64-bit value are found as this value. -/
theorem getWide_halves (receiver? : Option Value) {args : List Value} {j : Nat} {high low : Int32}
    (hhigh : args[j]? = some (.int high)) (hlow : args[j + 1]? = some (.int low)) :
    (Slots.parameters receiver? args).getWide (argumentOffset receiver? args j) =
      .ok (.long (ofHalves high low)) := by
  -- a half takes one slot, so the next argument has the next slot
  have hnext : argumentOffset receiver? args (j + 1) = argumentOffset receiver? args j + 1 := by
    simp [argumentOffset, List.take_add_one, hhigh, Value.slotCount, Nat.add_assoc]
  have hfirst := cells_argument receiver? hhigh (show 0 < 1 by decide)
  have hsecond := cells_argument receiver? hlow (show 0 < 1 by decide)
  rw [hnext] at hsecond
  exact getWide_eq_ok.2 ⟨high, low, hfirst, hsecond, rfl⟩

/-! ## Arguments in halves -/

/-- The task with its arguments in halves. -/
def Task.split : Task → Task
  | .call method receiver? args => .call method receiver? (Value.splitAll args)
  | task => task

/-- Waiting work with its arguments in halves. A host method has them in halves already. -/
def Waiting.split : Waiting → Waiting
  | .enter method receiver? args => .enter method receiver? (Value.splitAll args)
  | work => work

/-- A run between two steps, with arguments in halves and without lines for debugging. -/
def Snapshot.split (m : Snapshot) : Snapshot :=
  ⟨m.state.quiet, m.task.split, m.waiting.map Waiting.split⟩

/-- What a step comes to, with arguments in halves and without lines for debugging. -/
def Progress.split : Progress → Progress
  | .more m => .more m.split
  | .done s value? => .done s.quiet value?
  | .fault s e => .fault s.quiet e

/-- Waiting work is taken apart once. -/
theorem Waiting.split_split (work : Waiting) : work.split.split = work.split := by
  cases work with
  | enter method receiver? args =>
    exact congrArg (Waiting.enter method receiver?) (splitAll_splitAll args)
  | caller | access | initializer | host | readField | writeField => rfl

/-- So is a list of it. -/
theorem map_split_split (waiting : List Waiting) :
    (waiting.map Waiting.split).map Waiting.split = waiting.map Waiting.split := by
  rw [List.map_map]
  exact List.map_congr_left fun work _ => work.split_split

/-- Runs with the same halves from a state and from the state without lines for debugging. -/
theorem more_split (s : State) {task task' : Task} (htask : task'.split = task.split)
    {waiting waiting' : List Waiting}
    (hwaiting : waiting'.map Waiting.split = waiting.map Waiting.split) :
    (Progress.more ⟨s.quiet, task', waiting'⟩).split = (Progress.more ⟨s, task, waiting⟩).split := by
  simp only [Progress.split, Snapshot.split, State.quiet_quiet, htask, hwaiting]

/-- A fault from a state and from the state without lines for debugging. -/
theorem fault_split (s : State) (e : Fault) :
    (Progress.fault s.quiet e).split = (Progress.fault s e).split := by
  simp only [Progress.split, State.quiet_quiet]

section

variable {setup : Setup}

/-- The end of a call. -/
theorem leaveCall_split (s : State) (value? : Option Value) (waiting : List Waiting) :
    (leaveCall s.quiet value? (waiting.map Waiting.split)).split =
      (leaveCall s value? waiting).split :=
  more_split { s with calls := s.calls.pop } rfl (map_split_split waiting)

/-- One more piece of waiting work. -/
theorem cons_split (work : Waiting) (waiting : List Waiting) :
    (work :: waiting.map Waiting.split).map Waiting.split = (work :: waiting).map Waiting.split :=
  congrArg (work.split :: ·) (map_split_split waiting)

/-- What follows a host method. -/
theorem follow_split {x x' : State × Reply} (hx : x' = quieted x) (method : Method)
    (waiting : List Waiting) :
    (follow x'.1 method x'.2 (waiting.map Waiting.split)).split =
      (follow x.1 method x.2 waiting).split := by
  rw [hx]
  obtain ⟨s, reply⟩ := x
  cases reply with
  | finish value? => exact leaveCall_split s value? waiting
  | fail e => exact fault_split s e
  | call | readField | writeField => exact more_split s rfl (cons_split _ waiting)

/-- What follows an instruction. -/
theorem carryOn_split {x x' : State × Except Fault Flow} (hx : x' = quieted x) (i : Instruction)
    (waiting : List Waiting) :
    (carryOn x'.1 x'.2 i (waiting.map Waiting.split)).split = (carryOn x.1 x.2 i waiting).split := by
  rw [hx]
  obtain ⟨s, flow⟩ := x
  cases flow with
  | error e => exact fault_split s e
  | ok flow =>
    cases flow with
    | next | jump | endless => exact more_split s rfl (map_split_split waiting)
    | leave value? => exact leaveCall_split s value? waiting
    | call | needClass => exact more_split s rfl (cons_split _ waiting)

/-- A call that is entered with the halves of its arguments has the same parameters. -/
theorem enter_split (method : Method) (code : Code) (receiver? : Option Value) (args : List Value) :
    Frame.enter method code receiver? (Value.splitAll args) = Frame.enter method code receiver? args := by
  simp only [Frame.enter, Slots.parameters, splitAll_splitAll]

/-- The line about a call is the only place where the two ways to hand arguments over differ. -/
theorem enterCall_split (hn : setup.natives.Deaf) (s : State) (method : Method)
    (receiver? : Option Value) (args : List Value) (waiting : List Waiting) :
    (enterCall setup s.quiet method receiver? (Value.splitAll args)
        (waiting.map Waiting.split)).split =
      (enterCall setup s method receiver? args waiting).split := by
  have hcalls : s.quiet.calls = s.calls := rfl
  unfold enterCall
  rw [hcalls]
  cases s.calls.push setup.maxDepth method with
  | error e => exact fault_split s e
  | ok calls =>
    dsimp only
    generalize (fun _ : Unit => "".pushn '\t' s.depth ++ "=> invoke_method " ++ method.text ++ " " ++
      Dump.option (receiver?.map s.heap.dump) ++ " " ++ Dump.list (args.map s.heap.dump)) = line
    -- whatever the line for the halves says, it is left out
    have hstate (line' : Unit → String) : { s.quiet.log .debug line' with calls } =
        ({ s.log .debug line with calls } : State).quiet := by
      have hlog : s.quiet.log .debug line' = (s.log .debug line).quiet := by
        rw [State.log_quiet, State.quiet_log_debug, State.quiet_log_debug]
      exact congrArg (fun t : State => { t with calls }) hlog
    rw [hstate]
    generalize ({ s.log .debug line with calls } : State) = entered
    cases method.body with
    | code code =>
      dsimp only
      rw [enter_split]
      exact more_split entered rfl (map_split_split waiting)
    | native =>
      dsimp only
      cases hhost : setup.natives.find? method.className method.name method.params with
      | none => exact fault_split entered _
      | some host =>
        dsimp only
        rw [splitAll_splitAll]
        exact follow_split (hn _ _ _ host hhost setup.program
          ⟨receiver?, Value.splitAll args, entered.depth⟩ entered) method waiting

/-- Calling a method with the halves of its arguments. -/
theorem startCall_split (hn : setup.natives.Deaf) (s : State) (method : Method)
    (receiver? : Option Value) (args : List Value) (waiting : List Waiting) :
    (startCall setup s.quiet method receiver? (Value.splitAll args)
        (waiting.map Waiting.split)).split =
      (startCall setup s method receiver? args waiting).split := by
  unfold startCall
  split
  · exact fault_split s _
  · split
    · next r _ =>
      have hheap : s.quiet.heap = s.heap := rfl
      rw [hheap]
      cases s.heap.object r with
      | error e => exact fault_split s e
      | ok o =>
        refine more_split s rfl ?_
        rw [cons_split, List.map_cons, List.map_cons, Waiting.split, splitAll_splitAll]
        rfl
    · exact enterCall_split hn s method _ args waiting

-- the class has been set up, or its static fields get their first values
/-- Setting a class up. -/
theorem startInit_split (s : State) (className : String) (waiting : List Waiting) :
    (startInit setup s.quiet className (waiting.map Waiting.split)).split =
      (startInit setup s className waiting).split := by
  unfold startInit
  cases findClass setup.program className with
  | error e => exact fault_split s e
  | ok c =>
    have hstatus : s.quiet.classStatus c.id = s.classStatus c.id := rfl
    dsimp only
    rw [hstatus, State.log_quiet, State.initialStatics_quiet]
    generalize (s.log .debug fun _ => "initialize class " ++ c.name).initialStatics c.staticFields = x
    obtain ⟨s', fields⟩ := x
    split
    · exact more_split s rfl (map_split_split waiting)
    · cases c.initMethod? with
      | none =>
        exact more_split ((s'.installStatics c.id fields).setClassStatus c.id .initialized) rfl
          (map_split_split waiting)
      | some m =>
        exact more_split ((s'.installStatics c.id fields).setClassStatus c.id .initializing) rfl
          (cons_split _ waiting)

/-- Running the next instruction. -/
theorem runNext_split (s : State) (f : Frame) (waiting : List Waiting) :
    (runNext setup s.quiet f (waiting.map Waiting.split)).split = (runNext setup s f waiting).split := by
  unfold runNext
  split
  · split
    · exact leaveCall_split s none waiting
    · exact fault_split s _
  · next i _ =>
    refine carryOn_split ?_ i waiting
    rw [State.log_quiet]
    exact exec_quiet _ f i

/-- Handing a value to waiting work. -/
theorem resume_split (hn : setup.natives.Deaf) (s : State) (value? : Option Value) (work : Waiting)
    (waiting : List Waiting) :
    (resume setup s.quiet value? work.split (waiting.map Waiting.split)).split =
      (resume setup s value? work waiting).split := by
  cases work with
  | caller f => exact more_split { s with lastReturn? := value? } rfl (map_split_split waiting)
  | host method => exact leaveCall_split s value? waiting
  | access f i => exact carryOn_split (access_quiet s f i) i waiting
  | enter method receiver? args => exact enterCall_split hn s method receiver? args waiting
  | initializer id =>
    exact more_split (s.setClassStatus id .initialized) rfl (map_split_split waiting)
  | readField method owner field args =>
    exact follow_split (replyField_quiet s owner field args) method waiting
  | writeField method owner field args v =>
    exact follow_split (writeField_quiet s owner field args v) method waiting

/-- A step leads from runs with the same halves to runs with the same halves. -/
theorem step_split (hn : setup.natives.Deaf) (m : Snapshot) :
    (step setup m.split).split = (step setup m).split := by
  obtain ⟨s, task, waiting⟩ := m
  cases task with
  | call method receiver? args => exact startCall_split hn s method receiver? args waiting
  | initClass className => exact startInit_split s className waiting
  | run f => exact runNext_split s f waiting
  | finished value? =>
    cases waiting with
    | nil => simp only [Snapshot.split, Task.split, step, List.map_nil, Progress.split, State.quiet_quiet]
    | cons work rest => exact resume_split hn s value? work rest
  | endless => exact more_split s rfl (map_split_split waiting)

end

/-! ## Runs -/

/-- What a run ends with: the state without lines for debugging, and a value or a fault. -/
def Outcome.result? : Outcome → Option (State × Except Fault (Option Value))
  | .returned s value? => some (s.quiet, .ok value?)
  | .failed s e => some (s.quiet, .error e)
  | .unfinished _ => none

/-- A run does not depend on how 64-bit arguments are handed over. -/
theorem run_split {setup : Setup} (hn : setup.natives.Deaf) (steps : Nat) {m m' : Snapshot}
    (h : m.split = m'.split) : (run setup steps m).result? = (run setup steps m').result? := by
  -- the induction is on the steps left, over any two runs with the same halves
  induction steps generalizing m m' with
  | zero => rfl
  | succ steps ih =>
    have hstep : (step setup m).split = (step setup m').split := by
      rw [← step_split hn m, h, step_split hn m']
    rw [run, run]
    revert hstep
    -- since the halves agree, both go on, both end or both fail
    cases step setup m with
    | more next =>
      cases step setup m' with
      | more next' => exact fun hstep => ih (Progress.more.inj hstep)
      | done | fault => exact fun hstep => by cases hstep
    | done s value? =>
      cases step setup m' with
      | done s' value?' => exact fun hstep => by simp_all [Progress.split, Outcome.result?]
      | more | fault => exact fun hstep => by cases hstep
    | fault s e =>
      cases step setup m' with
      | fault s' e' => exact fun hstep => by simp_all [Progress.split, Outcome.result?]
      | more | done => exact fun hstep => by cases hstep

/-! ## Forwarded values -/

/-- A method is selected among those that are static, or among the others. -/
theorem isStatic_of_selectMethod? {c : Class} {id : MethodId} {static : Bool} {m : Method}
    (h : selectMethod? c id static = some m) : m.isStatic = static := by
  -- however the method is chosen, it has passed the filter
  have hmem : m ∈ c.methods.filter fun m => m.isStatic == static && m.answersTo id.name id.params := by
    unfold selectMethod? at h
    split at h
    · cases h
    · next hm => exact hm ▸ Option.some.inj h ▸ List.mem_singleton_self _
    · exact List.mem_of_find?_eq_some h
  have hboth := (List.mem_filter.1 hmem).2
  rw [Bool.and_eq_true, beq_iff_eq] at hboth
  exact hboth.1

/-- The target of a static call is static, that of a direct call is not. -/
theorem isStatic_of_lookupDeclared {p : Program} {id : MethodId} {static : Bool} {m : Method}
    (h : lookupDeclared p id static = .ok m) : m.isStatic = static := by
  obtain ⟨c, -, h⟩ := bind_eq_ok.1 h
  split at h
  · next hm =>
    obtain rfl := Except.ok.inj h
    exact isStatic_of_selectMethod? hm
  · cases h

/-- The target of a virtual call is not static. -/
theorem isStatic_of_lookupVirtual {p : Program} {runtimeClass : String} {id : MethodId} {m : Method}
    (h : lookupVirtual p runtimeClass id = .found m) : m.isStatic = false := by
  unfold lookupVirtual at h
  split at h
  · cases h
  · cases h
  · next hc =>
    split at h
    · next hm =>
      obtain rfl := Search.found.inj h
      obtain ⟨c', -, hpick⟩ := searchUp_found (mem_of_findClass hc) hm
      exact isStatic_of_selectMethod? hpick
    · cases h
    · cases h
    · cases h

/-- A list is its first element, if there is one, and the rest. -/
theorem toList_head?_append_tail (vs : List α) : vs.head?.toList ++ vs.tail = vs := by
  cases vs <;> rfl

/-- A call hands over what is read from the slots of the instruction, the receiver first. -/
theorem dispatch_call {p : Program} {s s' : State} {f f' : Frame} {kind : InvokeKind}
    {slots : List Slot} {id : MethodId} {m : Method} {receiver? : Option Value} {args : List Value}
    (h : dispatch p s f kind slots id = (s', .ok (.call f' m receiver? args))) :
    slots.mapM f.read = .ok (receiver?.toList ++ args) ∧
      (if m.isStatic then none else receiver?) = receiver? := by
  have h := congrArg Prod.snd h
  obtain ⟨values, hvalues, h⟩ := attempt_ok h
  cases kind with
  -- a static call has no receiver, the others take the first value as theirs
  | static =>
    obtain ⟨m', -, h⟩ := attempt_ok h
    obtain ⟨rfl, rfl, rfl, rfl⟩ := Flow.call.inj (Except.ok.inj h)
    exact ⟨hvalues, ite_self _⟩
  | direct =>
    obtain ⟨m', hm, h⟩ := attempt_ok h
    obtain ⟨rfl, rfl, rfl, rfl⟩ := Flow.call.inj (Except.ok.inj h)
    exact ⟨hvalues.trans (by rw [toList_head?_append_tail]),
      if_neg (by rw [isStatic_of_lookupDeclared hm]; decide)⟩
  | virtual =>
    obtain ⟨c, -, h⟩ := attempt_ok h
    split at h
    · next m' hm =>
      obtain ⟨rfl, rfl, rfl, rfl⟩ := Flow.call.inj (Except.ok.inj h)
      exact ⟨hvalues.trans (by rw [toList_head?_append_tail]),
        if_neg (by rw [isStatic_of_lookupVirtual hm]; decide)⟩
    · cases h
    · cases h

/-- Each result of a list is that of the element at its place. -/
theorem getElem?_of_mapM {g : α → Except ε β} {as : List α} {bs : List β} (h : as.mapM g = .ok bs)
    {i : Nat} {a : α} (ha : as[i]? = some a) : ∃ b, g a = .ok b ∧ bs[i]? = some b := by
  -- the induction is on the list, with the index counted down
  induction as generalizing bs i with
  | nil => cases ha
  | cons x as ih =>
    rw [List.mapM_cons] at h
    obtain ⟨y, hy, h⟩ := bind_eq_ok.1 h
    obtain ⟨ys, hys, h⟩ := bind_eq_ok.1 h
    obtain rfl := Except.ok.inj h
    cases i with
    | zero =>
      obtain rfl := Option.some.inj ha
      exact ⟨y, hy, rfl⟩
    | succ i => exact ih hys ha

/-- What a call finds of a 64-bit value whose two slots were forwarded. -/
theorem readWide_forwarded {p : Program} {s s' : State} {f f' : Frame} {kind : InvokeKind}
    {slots : List Slot} {id : MethodId} {m : Method} {receiver? : Option Value} {args : List Value}
    (h : exec p s f (.invoke kind slots id) = (s', .ok (.call f' m receiver? args)))
    {j : Nat} {r : Slot} {v : Value} (hfirst : slots[receiver?.toList.length + j]? = some r)
    (hsecond : slots[receiver?.toList.length + j + 1]? = some r.next)
    (hv : f.readWide r = .ok v) (code : Code) :
    (Frame.enter m code (if m.isStatic then none else receiver?) args).readWide
      (.parameter (argumentOffset receiver? args j)) = .ok v := by
  obtain ⟨hvalues, hreceiver⟩ := dispatch_call h
  obtain ⟨high, low, hhigh, hlow, rfl⟩ := getWide_eq_ok.1 hv
  obtain ⟨b, hb, hargs⟩ := getElem?_of_mapM hvalues hfirst
  obtain ⟨b', hb', hargs'⟩ := getElem?_of_mapM hvalues hsecond
  have hnext : f.read r.next = .ok (.int low) := by
    cases r <;> exact get_of_cells hlow
  obtain rfl := Except.ok.inj ((get_of_cells hhigh).symm.trans hb)
  obtain rfl := Except.ok.inj (hnext.symm.trans hb')
  -- behind the receiver stand the arguments
  rw [List.getElem?_append_right (by omega), Nat.add_sub_cancel_left] at hargs
  rw [Nat.add_assoc, List.getElem?_append_right (by omega), Nat.add_sub_cancel_left] at hargs'
  rw [hreceiver]
  exact getWide_halves receiver? hargs hargs'

/-- How values are handed over in calls.
- The parameters of a call are the receiver and the arguments, where a 64-bit value takes two slots, and an
  argument is found, unchanged, behind the receiver and the arguments in front of it.
- A call with the halves of 64-bit arguments takes as many steps and comes to the same as a call with the
  arguments as they are, up to lines for debugging, whatever the method, the receiver and the state.
- So a 64-bit value whose two slots an instruction forwards is what the method finds. -/
theorem handing_over (setup : Setup) (hn : setup.natives.Deaf) :
    (∀ receiver? args, (Slots.parameters receiver? args).size =
      receiver?.toList.length + (args.map Value.slotCount).sum) ∧
    (∀ receiver args, (Slots.parameters (some receiver) args).get 0 = .ok receiver) ∧
    (∀ receiver? args (k : Nat) v, args[k]? = some v →
      if v.variant = .long then
        (Slots.parameters receiver? args).getWide (argumentOffset receiver? args k) = .ok v
      else (Slots.parameters receiver? args).get (argumentOffset receiver? args k) = .ok v) ∧
    (∀ steps s method receiver? args,
      (invokeMethod setup steps s method receiver? (Value.splitAll args)).result? =
        (invokeMethod setup steps s method receiver? args).result?) ∧
    ∀ s f kind slots id s' f' m receiver? args,
      exec setup.program s f (.invoke kind slots id) = (s', .ok (.call f' m receiver? args)) →
      ∀ j r v, slots[receiver?.toList.length + j]? = some r →
        slots[receiver?.toList.length + j + 1]? = some r.next → f.readWide r = .ok v →
        ∀ code, (Frame.enter m code (if m.isStatic then none else receiver?) args).readWide
          (.parameter (argumentOffset receiver? args j)) = .ok v := by
  refine ⟨size_parameters, fun receiver args => rfl, fun receiver? args k v hk => ?_,
    fun steps s method receiver? args => run_split hn steps ?_,
    fun s f kind slots id s' f' m receiver? args h j r v => readWide_forwarded h⟩
  · cases v with
    | long n => exact getWide_argument hk
    | int | object | array => exact get_argument hk (fun h => by cases h)
  · simp only [Snapshot.split, Task.split, splitAll_splitAll]

/-- `String.valueOf(long)` makes the same string of `-1` and of its halves, and `-1` is found behind a
receiver. -/
theorem handing_over_standard :
    (Slots.parameters (some (.int 0)) [.long (-1), .int 7]).size = 4 ∧
    (Slots.parameters (some (.int 0)) [.long (-1), .int 7]).getWide 1 = .ok (.long (-1)) ∧
    (Slots.parameters (some (.int 0)) [.long (-1), .int 7]).get 3 = .ok (.int 7) ∧
    (invokeMethod { program := {} } 3 {}
        ⟨stringClass, "valueOf", ⟨8⟩, [.long], .object stringClass, .native⟩ none
        [.int (-1), .int (-1)]).result? =
      (invokeMethod { program := {} } 3 {}
        ⟨stringClass, "valueOf", ⟨8⟩, [.long], .object stringClass, .native⟩ none
        [.long (-1)]).result? := by
  obtain ⟨hsize, -, hargument, hsplit, -⟩ := handing_over { program := {} } standard_deaf
  exact ⟨hsize _ _, hargument _ _ 0 (.long (-1)) rfl, hargument _ _ 1 (.int 7) rfl,
    hsplit 3 {} _ none [.long (-1)]⟩

end Smali.Machine
