import Smali.Proofs.Changes

/-!
# Debug lines

What a run does never depends on its journal. The lines for debugging and tracing tell more than the results
of a run do: they show arguments as they were handed over. `State.quiet` is a state without these lines, and
every function of the machine does the same on it (`exec_quiet`, `access_quiet`, `standard_deaf`).

## Key results

- `log_quiet`, `quiet_log_debug`: to drop lines and to write one commute
- `exec_quiet`, `access_quiet`: instructions do not look at the journal
- `standard_deaf`: nor do the host methods of the standard library
-/

namespace Smali

/-- The journal without the lines for debugging and tracing. -/
def Journal.quiet (j : Journal) : Journal :=
  { verbosity := if j.verbosity.rank ≤ Level.info.rank then j.verbosity else .info
    lines := j.lines.filter fun line => line.1.rank ≤ Level.info.rank }

/-- Writing a line and dropping lines commute. -/
theorem Journal.write_quiet (j : Journal) (level : Level) (message : Unit → String) :
    j.quiet.write level message = (j.write level message).quiet := by
  obtain ⟨verbosity, lines⟩ := j
  -- every verbosity against every level
  cases verbosity <;> cases level <;>
    simp [Journal.write, Journal.keeps, Journal.quiet, Level.rank]

/-- A line for debugging is left out. -/
theorem Journal.quiet_write_debug (j : Journal) (message : Unit → String) :
    (j.write .debug message).quiet = j.quiet := by
  obtain ⟨verbosity, lines⟩ := j
  cases verbosity <;> simp [Journal.write, Journal.keeps, Journal.quiet, Level.rank]

/-- Lines are dropped once. -/
@[simp] theorem Journal.quiet_quiet (j : Journal) : j.quiet.quiet = j.quiet := by
  obtain ⟨verbosity, lines⟩ := j
  cases verbosity <;> simp [Journal.quiet, Level.rank]

namespace Machine

/-- The state without the lines for debugging and tracing. -/
def State.quiet (s : State) : State :=
  { s with journal := s.journal.quiet }

/-- What a computation comes to, without the lines for debugging and tracing. -/
def quieted (x : State × α) : State × α :=
  (x.1.quiet, x.2)

variable {p : Program}

namespace State

/-- The lines of a state are dropped once. -/
@[simp] theorem quiet_quiet (s : State) : s.quiet.quiet = s.quiet := by
  simp [quiet]

/-- Writing a line and dropping lines commute. -/
theorem log_quiet (s : State) (level : Level) (message : Unit → String) :
    s.quiet.log level message = (s.log level message).quiet :=
  congrArg (fun journal => { s with journal }) (s.journal.write_quiet level message)

/-- A line for debugging is dropped again. -/
theorem quiet_log_debug (s : State) (message : Unit → String) :
    (s.log .debug message).quiet = s.quiet :=
  congrArg (fun journal => { s with journal }) (s.journal.quiet_write_debug message)

/-- Locking does not look at the journal. -/
theorem lock_quiet (s : State) (v : Value) : s.quiet.lock v = quiet <$> s.lock v := by
  unfold lock
  have hlocks : s.quiet.locks = s.locks := rfl
  rw [hlocks]
  split <;> rfl

/-- Nor does unlocking. -/
theorem unlock_quiet (s : State) (v : Value) : s.quiet.unlock v = quiet <$> s.unlock v := by
  unfold unlock
  have hlocks : s.quiet.locks = s.locks := rfl
  rw [hlocks]
  split <;> rfl

/-- Nor does interning a literal. -/
theorem intern_quiet (s : State) (text : String) : s.quiet.intern text = quieted (s.intern text) := by
  unfold intern
  have hstrings : s.quiet.strings = s.strings := rfl
  rw [hstrings]
  cases s.strings.get? text <;> rfl

/-- Nor does the value of what nobody has written. -/
theorem defaultValue_quiet (s : State) (type : Descriptor) :
    s.quiet.defaultValue type = quieted (s.defaultValue type) := by
  unfold defaultValue
  rw [intern_quiet]
  split <;> rfl

/-- Nor does the value that an initial value stands for. -/
theorem constantValue_quiet (s : State) (c : Constant) (type : Descriptor) :
    s.quiet.constantValue c type = quieted (s.constantValue c type) := by
  cases c with
  | string text =>
    unfold constantValue
    dsimp only
    rw [intern_quiet]
    rfl
  | integer | boolean | null => rfl

/-- Nor does the first value of a static field. -/
theorem initialValue_quiet (s : State) (f : Field) :
    s.quiet.initialValue f = quieted (s.initialValue f) := by
  unfold initialValue
  rw [defaultValue_quiet]
  cases f.initial? with
  | none => rfl
  | some c => exact constantValue_quiet s c f.type

/-- Nor do the first values of static fields. -/
theorem initialStatics_quiet (s : State) (fields : List Field) :
    s.quiet.initialStatics fields = quieted (s.initialStatics fields) := by
  unfold initialStatics
  -- the induction is on the fields still to come, with any table so far
  generalize ({} : Table String Value) = table
  induction fields generalizing s table with
  | nil => rfl
  | cons f rest ih =>
    simp only [List.foldl_cons, initialValue_quiet]
    exact ih (s.initialValue f).1 (table.insert f.name (s.initialValue f).2)

end State

/-! ## Instructions -/

/-- What may fail comes to the same, up to the state that it gives, and so does what follows. -/
theorem attempt_quiet {x : Except Fault α} {x' : Except Fault β} {g : α → β}
    {k : α → State × Except Fault Flow} {k' : β → State × Except Fault Flow} (s : State)
    (hx : x' = g <$> x) (hk : ∀ a, k' (g a) = quieted (k a)) :
    attempt s.quiet x' k' = quieted (attempt s x k) := by
  rw [hx]
  cases x with
  | ok a => exact hk a
  | error e => rfl

/-- `attempt_quiet` for what does not give a state. -/
theorem attempt_quiet_same {x : Except Fault α} {k k' : α → State × Except Fault Flow} (s : State)
    (hk : ∀ a, k' a = quieted (k a)) : attempt s.quiet x k' = quieted (attempt s x k) := by
  cases x with
  | ok a => exact hk a
  | error e => rfl

/-- A new array does not depend on the journal. -/
theorem newArray_quiet (s : State) (f : Frame) (dest length : Slot) (type : Descriptor) :
    newArray s.quiet f dest length type = quieted (newArray s f dest length type) := by
  refine attempt_quiet_same s fun n => ?_
  split
  · rfl
  · split
    · rfl
    · rw [State.defaultValue_quiet]
      -- an empty array needs no first value
      by_cases hzero : n.toInt = 0
      · simp only [hzero, ↓reduceIte]
        rfl
      · simp only [hzero, ↓reduceIte]
        rfl

/-- A call may write a trace line, and looks at none. -/
theorem dispatch_quiet (s : State) (f : Frame) (kind : InvokeKind) (args : List Slot) (id : MethodId) :
    dispatch p s.quiet f kind args id = quieted (dispatch p s f kind args id) := by
  refine attempt_quiet_same s fun values => ?_
  cases kind with
  | static => exact attempt_quiet_same s fun m => rfl
  | direct => exact attempt_quiet_same s fun m => rfl
  | virtual =>
    refine attempt_quiet_same s fun c => ?_
    cases lookupVirtual p c id with
    -- the trace line goes into the journal before or after the others are dropped
    | found m => exact congrArg (·, _) (State.log_quiet s .trace _)
    | failed e => rfl
    | endless => rfl

/-- A new object does not depend on the journal. -/
theorem newObject_quiet (s : State) (className : String) :
    newObject p s.quiet className = quieted (newObject p s className) := by
  unfold newObject
  cases findClass p className <;> rfl

/-- Reading a field of an object does not look at the journal. -/
theorem instanceGet_quiet (s : State) (f : Frame) (kind : AccessKind) (dest object : Slot)
    (field : Field) :
    instanceGet s.quiet f kind dest object field = quieted (instanceGet s f kind dest object field) := by
  refine attempt_quiet_same s fun fields => ?_
  rw [State.defaultValue_quiet]
  cases fields.get? field.name <;> rfl

/-- Writing a static field does not look at the journal. -/
theorem staticPut_quiet (s : State) (f : Frame) (kind : AccessKind) (src : Slot) (id : FieldId) :
    staticPut p s.quiet f kind src id = State.quiet <$> staticPut p s f kind src id := by
  simp only [staticPut, map_bind]
  rfl

/-- An instruction does not look at the journal. -/
theorem exec_quiet (s : State) (f : Frame) (i : Instruction) :
    exec p s.quiet f i = quieted (exec p s f i) := by
  -- the instructions that give the state back as it is are the last case
  cases i with
  | constString dest text =>
    rw [exec, exec, State.intern_quiet]
    rfl
  | moveResult kind dest =>
    rw [exec, exec]
    have hlast : s.quiet.lastReturn? = s.lastReturn? := rfl
    rw [hlast]
    cases s.lastReturn? <;> rfl
  | invoke kind args id => exact dispatch_quiet s f kind args id
  | newArray dest length type => exact newArray_quiet s f dest length type
  | arrayPut kind src array index => exact attempt_quiet_same s fun heap => rfl
  | newInstance dest className =>
    rw [exec, exec, newObject_quiet]
    obtain ⟨s', r⟩ := newObject p s className
    cases r <;> rfl
  | monitorEnter slot =>
    refine attempt_quiet s ?_ fun s => rfl
    simp only [State.lock_quiet, map_bind]
  | monitorExit slot =>
    refine attempt_quiet s ?_ fun s => rfl
    simp only [State.unlock_quiet, map_bind]
  | _ => rfl

/-- The second half of a field access does not look at the journal. -/
theorem access_quiet (s : State) (f : Frame) (i : Instruction) :
    access p s.quiet f i = quieted (access p s f i) := by
  cases i with
  | staticPut kind src id => exact attempt_quiet s (staticPut_quiet s f kind src id) fun s => rfl
  | instanceGet kind dest object id =>
    rw [access, access]
    cases lookupInstanceField p id with
    | found place => exact instanceGet_quiet s f kind dest object place.2
    | failed e => rfl
    | endless => rfl
  | instancePut kind src object id =>
    rw [access, access]
    cases lookupInstanceField p id with
    | found place => exact attempt_quiet_same s fun heap => rfl
    | failed e => rfl
    | endless => rfl
  | _ => rfl

/-! ## Host methods -/

/-- The host method does the same whatever lines for debugging the journal holds. -/
def HostMethod.Deaf (m : HostMethod) : Prop :=
  ∀ (p : Program) (call : HostCall) (s : State), m p call s.quiet = quieted (m p call s)

/-- All host methods of the registry are deaf to the lines for debugging. -/
def Natives.Deaf (n : Natives) : Prop :=
  ∀ className name params host, n.find? className name params = some host → host.Deaf

/-- A host method that leaves the state alone is deaf if its reply does not depend on the journal. -/
theorem deaf_reading {f : Program → HostCall → State → Except Fault Reply}
    (hf : ∀ p call s, f p call s.quiet = f p call s) : (HostMethod.reading f).Deaf := by
  intro p call s
  unfold HostMethod.reading
  rw [hf]
  rfl

/-- A host method that changes the state is deaf if what it computes does not depend on the journal. -/
theorem deaf_writing {f : Program → HostCall → State → Except Fault (State × Reply)}
    (hf : ∀ p call s, f p call s.quiet = quieted <$> f p call s) : (HostMethod.writing f).Deaf := by
  intro p call s
  unfold HostMethod.writing
  rw [hf]
  cases f p call s <;> rfl

/-- `Class.getDeclaredMethod` is deaf. -/
theorem deaf_classGetDeclaredMethod : classGetDeclaredMethod.Deaf := by
  refine deaf_writing fun p call s => ?_
  simp only [map_bind]
  refine bind_congr fun c => bind_congr fun _ => bind_congr fun name => ?_
  split <;> rfl

/-- `Class.getDeclaredField` is deaf. -/
theorem deaf_classGetDeclaredField : classGetDeclaredField.Deaf := by
  refine deaf_writing fun p call s => ?_
  simp only [map_bind]
  refine bind_congr fun c => bind_congr fun _ => bind_congr fun name => ?_
  split <;> rfl

/-- `Method.invoke(Object, Object[])` writes a line for debugging, and is deaf. -/
theorem deaf_methodInvoke : methodInvoke.Deaf := by
  refine deaf_writing fun p call s => ?_
  simp only [map_bind, State.log_quiet]
  refine bind_congr fun m => bind_congr fun target => bind_congr fun list => ?_
  -- the arguments are the elements of an array, or there are none
  split
  · rw [map_bind]
    exact bind_congr fun array => rfl
  · split <;> rfl

/-- `Log.d(String, String)` writes a line that stays, and is deaf. -/
theorem deaf_logDebug : logDebug.Deaf := by
  refine deaf_writing fun p call s => ?_
  simp only [map_bind, State.log_quiet]
  rfl

/-- The host methods whose only effect is on the heap. -/
theorem deaf_storing : stringInit.Deaf ∧ stringOfInt.Deaf ∧ stringOfLong.Deaf ∧ integerValueOf.Deaf ∧
    classForName.Deaf := by
  refine ⟨deaf_writing fun p call s => ?_, deaf_writing fun p call s => ?_,
    deaf_writing fun p call s => ?_, deaf_writing fun p call s => ?_, deaf_writing fun p call s => ?_⟩
  all_goals
    simp only [map_bind]
    rfl

/-- The host methods of the standard library are deaf to the lines for debugging. -/
theorem standard_deaf : Natives.standard.Deaf := by
  intro className name params host h
  cases find?_registered h with
  | inl h => cases h
  | inr h =>
    obtain ⟨entry, hmem, rfl, -⟩ := h
    obtain ⟨hinit, hint, hlong, hbox, hclass⟩ := deaf_storing
    have hall : ∀ entry ∈ Natives.standardMethods, entry.2.2.2.Deaf := by
      -- the entries are gone through in the order of the list
      simp only [Natives.standardMethods, List.forall_mem_cons, List.not_mem_nil, false_implies,
        implies_true, and_true]
      exact ⟨hinit, deaf_reading fun _ _ _ => rfl, deaf_reading fun _ _ _ => rfl, hint, hlong, hbox,
        deaf_reading fun _ _ _ => rfl, hclass, deaf_classGetDeclaredMethod,
        deaf_classGetDeclaredField, fun _ _ _ => rfl, deaf_reading fun _ _ _ => rfl,
        deaf_reading fun _ _ _ => rfl, fun _ _ _ => rfl, deaf_methodInvoke, deaf_logDebug⟩
    exact hall entry hmem

/-! ### Fields touched once the class is set up -/

/-- Reading a field whose class is set up does not look at the journal. -/
theorem readField_quiet (s : State) (owner : LoadedClass) (field : Field) (args : List Value) :
    readField s.quiet owner field args = quieted (readField s owner field args) := by
  unfold readField
  have hstatic : s.quiet.static? owner.id field.name = s.static? owner.id field.name := rfl
  have hheap : s.quiet.heap = s.heap := rfl
  simp only [hstatic, hheap, State.defaultValue_quiet]
  -- a static field, then one of an object, written or not
  split
  · split <;> rfl
  · split
    · rfl
    · split <;> rfl

/-- Nor does the reply with its value. -/
theorem replyField_quiet (s : State) (owner : LoadedClass) (field : Field) (args : List Value) :
    replyField s.quiet owner field args = quieted (replyField s owner field args) := by
  unfold replyField
  rw [readField_quiet]
  obtain ⟨s', result⟩ := readField s owner field args
  cases result with
  | error e => rfl
  | ok v =>
    cases v with
    | int v =>
      simp only [quieted]
      split <;> rfl
    | long | object | array => rfl

/-- Nor does writing one. -/
theorem writeField_quiet (s : State) (owner : LoadedClass) (field : Field) (args : List Value)
    (v : Value) :
    writeField s.quiet owner field args v = quieted (writeField s owner field args v) := by
  unfold writeField
  have hheap : s.quiet.heap = s.heap := rfl
  rw [hheap]
  split
  · rfl
  · cases (do s.heap.setField (← fieldTarget args) field.name v) <;> rfl

end Machine

end Smali
