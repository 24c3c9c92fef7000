import Smali.Proofs.Executions
import Smali.Proofs.Labels
import Smali.Proofs.LibraryMethods
import Smali.Proofs.NestedRuns
import Smali.Proofs.StringPool

/-!
# Whether a call returns a value

The instructions that end a call compare with the type that its method declares, and so do the host methods
of the standard library, with one exception: `Method.invoke` has the method behind a handle called in its
place and returns what that method returns. It is declared to return an object, and where the method behind
the handle is void it returns nothing.

## Key results

- `Call.at_step`: what one step keeps of a call, by the work that waits at the bottom
- `Call.settles`: a call returns as its method declares, or as the call that was made in its place
- `Call.answered`: so a call returns a value exactly if the method that answers it is not void
-/

namespace Smali.Machine

variable {p : Program} {s t : State} {f : Frame} {i : Instruction} {value? : Option Value}

/-! ## Calls -/

/-- A call of a method in a state. -/
structure Call where
  state : State
  method : Method
  receiver? : Option Value
  args : List Value

/-- The moment at which the call is made, above the work that waits for it. -/
def Call.start (c : Call) (waiting : List Waiting) : Snapshot :=
  ⟨c.state, .call c.method c.receiver? c.args, waiting⟩

variable {setup : Setup} {m m' : Snapshot} {c c' : Call}

namespace Call

/-- The call has another call made in its place. -/
structure HandsOn (setup : Setup) (c c' : Call) : Prop where
  reflective : c.method.isReflective = true
  reaches : Reaches setup (c.start []) (c'.start [.host c.method])

/-- The method answers the call: its own, or the one that answers the call in its place. -/
inductive AnsweredBy (setup : Setup) : Call → Method → Prop
  | own (c : Call) (h : c.method.isReflective = false) : AnsweredBy setup c c.method
  | handedOn (c c' : Call) (m : Method) (h : c.HandsOn setup c') (hm : AnsweredBy setup c' m) :
    AnsweredBy setup c m

/-- The call may return this: what its method declares, or what the call in its place comes to. -/
inductive Settles (setup : Setup) (c : Call) (value? : Option Value) : Prop
  | own (hown : c.method.isReflective = false)
    (h : value?.isSome = true ↔ c.method.returnType ≠ .void)
  | handedOn (c' : Call) (t : State) (h : c.HandsOn setup c')
    (hreach : Reaches setup (c'.start []) ⟨t, .finished value?, []⟩)

/-- The work waits on behalf of the call, for what goes on at the moment. -/
inductive Serves (setup : Setup) (c : Call) (m : Snapshot) : Waiting → Prop
  | caller (f : Frame) (hf : f.method = c.method) (hown : c.method.isReflective = false) :
    Serves setup c m (.caller f)
  | access (f : Frame) (i : Instruction) (hf : f.method = c.method)
    (hown : c.method.isReflective = false) : Serves setup c m (.access f i)
  | enter (receiver? : Option Value) (args : List Value) :
    Serves setup c m (.enter c.method receiver? args)
  | host (c' : Call) (h : c.HandsOn setup c') (hreach : Reaches setup (c'.start []) m) :
    Serves setup c m (.host c.method)
  | readField (owner : LoadedClass) (field : Field) (args : List Value)
    (h : Answer.ofMethod c.method = .value) : Serves setup c m (.readField c.method owner field args)
  | writeField (owner : LoadedClass) (field : Field) (args : List Value) (v : Value)
    (h : Answer.ofMethod c.method = .nothing) :
    Serves setup c m (.writeField c.method owner field args v)

/-- Where a run is that was started with the call. -/
inductive At (setup : Setup) (c : Call) : Snapshot → Prop
  | start : At setup c (c.start [])
  | running (s : State) (f : Frame) (hf : f.method = c.method) (hown : c.method.isReflective = false) :
    At setup c ⟨s, .run f, []⟩
  | waiting (m : Snapshot) (work : Waiting) (h : c.Serves setup m work) : At setup c (m.over [work])
  | ended (s : State) (value? : Option Value) (h : c.Settles setup value?) :
    At setup c ⟨s, .finished value?, []⟩
  | endless (s : State) : At setup c ⟨s, .endless, []⟩

end Call

/-! ## Steps -/

/-- The machine has the host methods of the standard library, and its program was loaded from sources that
leave the classes of the library alone. -/
structure Setup.Standard (setup : Setup) (sources : List String) : Prop where
  natives : setup.natives = .standard
  loaded : loadProgram sources = .ok setup.program
  library : ∀ source ∈ sources, LeavesLibrary source

/-- The host method behind a native method, if there is one, replies as the method declares. -/
def Setup.Answers (setup : Setup) (method : Method) : Prop :=
  method.body = .native → ∀ host,
    setup.natives.find? method.className method.name method.params = some host →
    host.Answers (.ofMethod method)

/-- The host methods of a standard machine reply as the methods declare. -/
theorem Setup.Standard.answers {sources : List String} (hstd : setup.Standard sources) {method : Method}
    (hm : setup.program.HasMethod method) : setup.Answers method := by
  intro hbody host hhost
  rw [hstd.natives] at hhost
  exact host_answers hstd.loaded hstd.library hm hbody hhost

/-- A method with code has no host method. -/
theorem Setup.answers_of_code (setup : Setup) {method : Method} {code : Code}
    (h : method.body = .code code) : setup.Answers method := by
  intro hbody
  rw [h] at hbody
  cases hbody

/-- A method with code is none that has another one called in its place. -/
theorem isReflective_of_code {method : Method} {code : Code} (h : method.body = .code code) :
    method.isReflective = false := by
  simp [Method.isReflective, Method.isNative, h]

namespace Call

variable {sources : List String}

/-- Work keeps serving the call while something goes on above it. -/
theorem Serves.step {work : Waiting} (h : c.Serves setup m work) (hstep : step setup m = .more m') :
    c.Serves setup m' work := by
  cases h with
  | caller f hf hown => exact .caller f hf hown
  | access f i hf hown => exact .access f i hf hown
  | enter receiver? args => exact .enter receiver? args
  | host c' hands hreach => exact .host c' hands (hreach.tail hstep)
  | readField owner field args h => exact .readField owner field args h
  | writeField owner field args v h => exact .writeField owner field args v h

/-- A host method whose reply suits its method goes on with work for the call. -/
theorem at_follow {reply : Reply} (hreply : reply.Suits (.ofMethod c.method))
    (h : follow s c.method reply [] = .more m') (hreach : Reaches setup (c.start []) m') :
    c.At setup m' := by
  generalize hanswer : Answer.ofMethod c.method = answer at hreply
  cases hreply with
  | fail => cases h
  | nothing =>
    obtain ⟨hown, hvoid⟩ := Answer.ofMethod_eq_nothing.1 hanswer
    obtain rfl := Progress.more.inj h
    exact .ended _ none (.own hown (by simp [hvoid]))
  | value v =>
    obtain ⟨hown, hvoid⟩ := Answer.ofMethod_eq_value.1 hanswer
    obtain rfl := Progress.more.inj h
    exact .ended _ (some v) (.own hown (by simp [hvoid]))
  | call method receiver? args =>
    obtain rfl := Progress.more.inj h
    -- what goes on above the host method from here on is a run of the other call
    have hands : c.HandsOn setup ⟨s, method, receiver?, args⟩ :=
      ⟨Answer.ofMethod_eq_handedOn.1 hanswer, hreach⟩
    exact .waiting ⟨s, .call method receiver? args, []⟩ _ (.host _ hands .refl)
  | readField owner field args =>
    obtain rfl := Progress.more.inj h
    exact .waiting ⟨s, .initClass owner.name, []⟩ _ (.readField owner field args hanswer)
  | writeField owner field args v =>
    obtain rfl := Progress.more.inj h
    exact .waiting ⟨s, .initClass owner.name, []⟩ _ (.writeField owner field args v hanswer)

/-- Entering the call. -/
theorem at_enterCall (hanswers : setup.Answers c.method) {receiver? : Option Value} {args : List Value}
    (h : enterCall setup s c.method receiver? args [] = .more m')
    (hreach : Reaches setup (c.start []) m') : c.At setup m' := by
  unfold enterCall at h
  -- there is no room for the call, its method has code, or it is one of the host
  split at h
  · cases h
  · dsimp only at h
    split at h
    · next hbody =>
      obtain rfl := Progress.more.inj h
      exact .running _ _ rfl (isReflective_of_code hbody)
    · next hbody =>
      split at h
      · cases h
      · next host hhost => exact at_follow (hanswers hbody host hhost _ _ _) h hreach

/-- Making the call. -/
theorem at_startCall (hanswers : setup.Answers c.method) (h : step setup (c.start []) = .more m')
    (hreach : Reaches setup (c.start []) m') : c.At setup m' := by
  replace h : startCall setup c.state c.method c.receiver? c.args [] = .more m' := h
  unfold startCall at h
  split at h
  · cases h
  -- the class of an object that receives the call is set up first
  · split at h
    · next r _ =>
      cases ho : c.state.heap.object r with
      | error e =>
        rw [ho] at h
        cases h
      | ok o =>
        rw [ho] at h
        obtain rfl := Progress.more.inj h
        exact .waiting ⟨c.state, .initClass o.className, []⟩ _ (.enter _ c.args)
    · exact at_enterCall hanswers h hreach

/-- An instruction of the call goes on in the call, or ends it as the method declares. -/
theorem at_carryOn (hsame : f.method = c.method) (hown : c.method.isReflective = false)
    {flow : Except Fault Flow} (hflow : ∀ x, flow = .ok x → Continues p f i x)
    (h : carryOn s flow i [] = .more m') : c.At setup m' := by
  cases flow with
  | error e => cases h
  | ok x =>
    cases hflow x rfl with
    | next f' hm =>
      obtain rfl := Progress.more.inj h
      exact .running s _ (hm.trans hsame) hown
    | jump label pc =>
      obtain rfl := Progress.more.inj h
      exact .running s _ hsame hown
    -- the instructions that end a call check the declared type
    | leave v? hdeclared =>
      obtain rfl := Progress.more.inj h
      exact .ended _ v? (.own hown (hsame ▸ hdeclared))
    | call method receiver? args =>
      obtain rfl := Progress.more.inj h
      exact .waiting ⟨s, .call method receiver? args, []⟩ _ (.caller f hsame hown)
    | needClass className =>
      obtain rfl := Progress.more.inj h
      exact .waiting ⟨s, .initClass className, []⟩ _ (.access f i hsame hown)
    | endless =>
      obtain rfl := Progress.more.inj h
      exact .endless s

/-- Running the next instruction of the call. -/
theorem at_runNext (hsame : f.method = c.method) (hown : c.method.isReflective = false)
    (h : step setup ⟨s, .run f, []⟩ = .more m') : c.At setup m' := by
  cases hi : f.code.instructions[f.pc]? with
  | none =>
    replace h : runNext setup s f [] = .more m' := h
    rw [runNext, hi] at h
    dsimp only at h
    split at h
    · next hvoid =>
      -- behind the last instruction only a void method returns
      obtain rfl := Progress.more.inj h
      refine .ended _ none (.own hown ?_)
      simp [← hsame, hvoid]
    · cases h
  | some i =>
    obtain ⟨line, hstep⟩ := step_run setup hi s []
    rw [hstep] at h
    exact at_carryOn hsame hown (fun _ => exec_continues) h

/-- Work that has waited at the bottom goes on with the call, or ends it. -/
theorem at_resume (hanswers : setup.Answers c.method) {work : Waiting}
    (hserves : c.Serves setup ⟨s, .finished value?, []⟩ work)
    (h : resume setup s value? work [] = .more m') (hreach : Reaches setup (c.start []) m') :
    c.At setup m' := by
  cases hserves with
  | caller f hf hown =>
    obtain rfl := Progress.more.inj h
    exact .running _ _ hf hown
  | access f i hf hown => exact at_carryOn hf hown (fun _ hx => (access_resumes hx).continues i) h
  | enter receiver? args => exact at_enterCall hanswers h hreach
  -- the call in the place of this one has come to its value
  | host c' hands hinner =>
    obtain rfl := Progress.more.inj h
    exact .ended _ value? (.handedOn c' s hands hinner)
  | readField owner field args hanswer =>
    exact at_follow (hanswer ▸ replyField_suits s owner field args) h hreach
  | writeField owner field args v hanswer =>
    exact at_follow (hanswer ▸ writeField_suits s owner field args v) h hreach

/-- A step of a run that was started with the call. -/
theorem at_step (hanswers : setup.Answers c.method) (hreach : Reaches setup (c.start []) m)
    (hat : c.At setup m) (h : step setup m = .more m') : c.At setup m' := by
  have hnext : Reaches setup (c.start []) m' := hreach.tail h
  cases hat with
  | start => exact at_startCall hanswers h hnext
  | running s f hf hown => exact at_runNext hf hown h
  | waiting inner work hserves =>
    by_cases hend : inner.AtEnd
    · obtain ⟨s, value?, rfl⟩ := hend
      exact at_resume hanswers hserves h hnext
    · -- what goes on above the work does not touch it
      obtain ⟨next, hstep, rfl⟩ := step_of_over hend h
      exact .waiting next work (hserves.step hstep)
  | ended => cases h
  | endless s =>
    obtain rfl := Progress.more.inj h
    exact .endless s

/-! ## Runs -/

/-- Whatever a call gets to keeps to the program. -/
theorem onCode_of_reaches (hstd : setup.Standard sources) (hm : setup.program.HasMethod c.method)
    (hs : c.state.heap.Known setup.program) (h : Reaches setup (c.start []) m) :
    m.OnCode setup.program := by
  have hinvariant := onCode_invariant setup hstd.natives fun _ => loadProgram_checked hstd.loaded
  induction h with
  | refl => exact hinvariant.invoke c.state c.method c.receiver? c.args hs hm
  | tail _ hstep ih =>
    have hall := hinvariant.step _ ih
    rw [hstep] at hall
    exact hall

/-- A call returns as its method declares, or what the call that was made in its place returns. -/
theorem settles (hanswers : setup.Answers c.method)
    (h : Reaches setup (c.start []) ⟨t, .finished value?, []⟩) : c.Settles setup value? := by
  -- the induction is on the steps of the run
  have hat {m : Snapshot} (hreach : Reaches setup (c.start []) m) : c.At setup m := by
    induction hreach with
    | refl => exact .start
    | tail hreach hstep ih => exact at_step hanswers hreach ih hstep
  generalize hend : (⟨t, .finished value?, []⟩ : Snapshot) = m at h
  cases hat h with
  | start | running | endless => cases hend
  | ended s value?' hsettles =>
    obtain ⟨-, htask, -⟩ := Snapshot.mk.inj hend
    exact Task.finished.inj htask ▸ hsettles
  | waiting inner work =>
    -- something still waits there
    have hwaiting : [] = inner.waiting ++ [work] := congrArg Snapshot.waiting hend
    simp at hwaiting

/-- A method with code returns as it declares, whatever the host methods do. -/
theorem declared_of_code {code : Code} (hcode : c.method.body = .code code)
    (h : Reaches setup (c.start []) ⟨t, .finished value?, []⟩) :
    value?.isSome = true ↔ c.method.returnType ≠ .void := by
  cases settles (setup.answers_of_code hcode) h with
  | own _ hvalue => exact hvalue
  | handedOn c' t' hands =>
    -- only `Method.invoke` hands a call on, and it has no code
    have hreflective := hands.reflective
    rw [isReflective_of_code hcode] at hreflective
    cases hreflective

/-- A call that is made in the place of another returns in fewer steps. -/
theorem HandsOn.returned {steps : Nat} (h : c.HandsOn setup c')
    (hrun : run setup steps (c.start []) = .returned t value?) :
    ∃ fewer < steps, ∃ t' value?', run setup fewer (c'.start []) = .returned t' value?' := by
  cases Relation.ReflTransGen.cases_head h.reaches with
  -- one call waits at the second moment and none at the first
  | inl hsame => cases congrArg Snapshot.waiting hsame
  | inr hmore =>
    obtain ⟨first, hfirst, hrest⟩ := hmore
    cases steps with
    | zero => cases hrun
    | succ steps =>
      rw [run_more hfirst] at hrun
      -- the rest of the run returns, and so does the run of the other call within it
      obtain ⟨left, hleft, hrun⟩ := returned_rest hrest hrun
      obtain ⟨inner, hinner, hreturned⟩ := returned_inner (m := c'.start []) hrun
      exact ⟨inner, Nat.lt_succ_of_le (hinner.trans hleft), hreturned⟩

/-- A call that returns is answered by a method of the program, with a value exactly if that method is not
void. -/
theorem answered (hstd : setup.Standard sources) {steps : Nat} (hm : setup.program.HasMethod c.method)
    (hs : c.state.heap.Known setup.program)
    (h : run setup steps (c.start []) = .returned t value?) :
    ∃ method, c.AnsweredBy setup method ∧ setup.program.HasMethod method ∧
      (value?.isSome = true ↔ method.returnType ≠ .void) := by
  -- the induction is on the steps: a call in the place of another takes fewer
  induction steps using Nat.strong_induction_on generalizing c t with
  | _ steps ih =>
    cases settles (hstd.answers hm) (reaches_of_returned h) with
    | own hown hvalue => exact ⟨c.method, .own c hown, hm, hvalue⟩
    | handedOn c' t' hands hreach =>
      obtain ⟨fewer, hlt, s', value?', hrun⟩ := hands.returned h
      obtain ⟨rfl, rfl⟩ := finished_unique hreach (reaches_of_returned hrun)
      have hon := onCode_of_reaches hstd hm hs hands.reaches
      obtain ⟨method, hanswers, hmem, hvalue⟩ := ih fewer hlt hon.task hon.heap hrun
      exact ⟨method, .handedOn c c' method hands hanswers, hmem, hvalue⟩

end Call

/-! ## Results that are moved -/

/-- A slot is written with no fault that its file does not give. -/
theorem update_ne_error {change : Slots → Except Fault Slots} {e : Fault}
    (h : ∀ file, change file ≠ .error e) (f : Frame) (slot : Slot) : f.update slot change ≠ .error e := by
  intro hupdate
  cases slot with
  | register index =>
    cases hchange : change f.registers with
    | error e' => exact h f.registers (by simpa [Frame.update, hchange, bind, Except.bind] using hupdate)
    | ok file => simp [Frame.update, hchange, bind, Except.bind, pure, Except.pure] at hupdate
  | parameter index =>
    cases hchange : change f.parameters with
    | error e' => exact h f.parameters (by simpa [Frame.update, hchange, bind, Except.bind] using hupdate)
    | ok file => simp [Frame.update, hchange, bind, Except.bind, pure, Except.pure] at hupdate

/-- A value that is there is never missed, whatever else may be wrong with it. -/
theorem writeKind_ne_noResult (f : Frame) (heap : Heap) (kind : ValueKind) (slot : Slot) (v : Value) :
    f.writeKind heap kind slot v ≠ .error (.typeMismatch .noResult) := by
  -- a write fails for its index or for the kind of the value
  have hset : f.write slot v ≠ .error (.typeMismatch .noResult) := by
    refine update_ne_error (fun file => ?_) f slot
    unfold Slots.set
    split
    · split <;> simp [mismatch]
    · simp
  have hwide : f.writeWide slot v ≠ .error (.typeMismatch .noResult) := by
    refine update_ne_error (fun file => ?_) f slot
    unfold Slots.setWide Value.split
    cases v <;> simp [Value.asLong, mismatch, bind, Except.bind, pure, Except.pure]
    split <;> simp
  unfold Frame.writeKind
  split
  · exact hwide
  · exact hset
  · split
    · exact hset
    · simp [mismatch]
  · simp [mismatch]

/-- To move the result of a call fails for want of a result exactly if the call has returned none. -/
theorem moveResult_fails_iff {kind : ValueKind} {dest : Slot}
    (hi : f.code.instructions[f.pc]? = some (.moveResult kind dest)) (s : State) (waiting : List Waiting) :
    (∃ t, step setup ⟨s, .run f, waiting⟩ = .fault t (.typeMismatch .noResult)) ↔
      s.lastReturn? = none := by
  obtain ⟨line, hstep⟩ := step_run setup hi s waiting
  have hlast : (s.log .trace line).lastReturn? = s.lastReturn? := rfl
  rw [hstep, exec, hlast]
  cases s.lastReturn? with
  | none => exact ⟨fun _ => rfl, fun _ => ⟨_, rfl⟩⟩
  -- with a value the instruction fails for another reason, if it does
  | some v =>
    refine ⟨?_, fun h => by cases h⟩
    rintro ⟨t, h⟩
    cases hwrite : f.writeKind (s.log .trace line).heap kind dest v with
    | ok f' =>
      simp only [proceed, hwrite] at h
      cases h
    | error e =>
      simp only [proceed, hwrite] at h
      obtain ⟨-, rfl⟩ := Progress.fault.inj h
      exact absurd hwrite (writeKind_ne_noResult f _ kind dest v)

/-- A call that returns is answered by a method of the program, and returns a value exactly if that method is
not void. Unless the call is one of `Method.invoke` that method is its own, so that the call returns a value
exactly if it is declared to. A call of `Method.invoke` is declared to return an object, and does return
something exactly if the method that answers it is not void.

A result that is moved right after the call is missing exactly if the method that answers it is void. -/
theorem returned_value_iff {sources : List String} {p : Program} (hp : loadProgram sources = .ok p)
    (hsources : ∀ source ∈ sources, LeavesLibrary source) (maxDepth : Nat) {c : Call}
    (hm : p.HasMethod c.method) (hs : c.state.heap.Known p) {steps : Nat} {t : State}
    {value? : Option Value} (h : invokeMethod ⟨p, .standard, maxDepth⟩ steps c.state c.method c.receiver?
      c.args = .returned t value?) :
    ∃ method, c.AnsweredBy ⟨p, .standard, maxDepth⟩ method ∧ p.HasMethod method ∧
      (value?.isSome = true ↔ method.returnType ≠ .void) ∧
      ((value?.isSome = true ↔ c.method.returnType ≠ .void) ↔
        (c.method.isReflective = true → method.returnType ≠ .void)) ∧
      ∀ (f : Frame) (waiting : List Waiting) (kind : ValueKind) (dest : Slot),
        f.code.instructions[f.pc + 1]? = some (.moveResult kind dest) →
        ∃ after : Snapshot, Reaches ⟨p, .standard, maxDepth⟩ (c.start (.caller f :: waiting)) after ∧
          after.task = .run { f with pc := f.pc + 1 } ∧ after.waiting = waiting ∧
          ((∃ s, step ⟨p, .standard, maxDepth⟩ after = .fault s (.typeMismatch .noResult)) ↔
            method.returnType = .void) := by
  have hstd : Setup.Standard ⟨p, .standard, maxDepth⟩ sources := ⟨rfl, hp, hsources⟩
  obtain ⟨method, hanswered, hmem, hvalue⟩ := Call.answered hstd hm hs h
  refine ⟨method, hanswered, hmem, hvalue, ?_, fun f waiting kind dest hi => ?_⟩
  · rw [hvalue]
    cases hanswered with
    | own _ hown => simp [hown]
    | handedOn _ c' _ hands =>
      -- `Method.invoke` is declared to return an object
      have hdeclared := returnType_of_isReflective hp hsources hm hands.reflective
      simp [hdeclared, hands.reflective]
  · refine ⟨_, reaches_caller h f waiting, rfl, rfl, ?_⟩
    rw [moveResult_fails_iff hi, ← Option.not_isSome_iff_eq_none, hvalue, not_not]

/-! ### Methods behind handles -/

/-- A void method, one that is not, and a way to get a handle to either. -/
def quietSource : String := "
.class LQuiet;
.method static nothing()V
    .registers 1
    return-void
.end method
.method static one()I
    .registers 1
    const v0, 1
    return v0
.end method
.method static handle(Ljava/lang/String;)Ljava/lang/reflect/Method;
    .registers 2
    const-string v0, \"Quiet\"
    invoke-static \x7bv0\x7d, Ljava/lang/Class;->forName(Ljava/lang/String;)Ljava/lang/Class;
    move-result-object v0
    const v1, 0
    invoke-virtual \x7bv0, p0, v1\x7d, Ljava/lang/Class;->getDeclaredMethod(Ljava/lang/String;[Ljava/lang/Class;)Ljava/lang/reflect/Method;
    move-result-object v0
    return-object v0
.end method
"

/-- The call of `Method.invoke` on a handle to a method of the class. -/
def reflectedCall (p : Program) (name : String) : Option Call := do
  let handle ← p.findMethod?
    ⟨"LQuiet;", "handle", [.object "Ljava/lang/String;"], .object "Ljava/lang/reflect/Method;"⟩
  let invoke ← p.findMethod? ⟨"Ljava/lang/reflect/Method;", "invoke",
    [.object "Ljava/lang/Object;", .array (.object "Ljava/lang/Object;")], .object "Ljava/lang/Object;"⟩
  guard invoke.isReflective
  let (s, r) := State.intern {} name
  let made ← (invokeMethod ⟨p, .standard, 128⟩ 20 s handle none [.object r]).returned?
  return ⟨made.1, invoke, made.2, [.int 0, .int 0]⟩

/-- What that call returns. -/
def reflectedValue (p : Program) (name : String) : Option (Option Value) := do
  let c ← reflectedCall p name
  let made ← (invokeMethod ⟨p, .standard, 128⟩ 10 c.state c.method c.receiver? c.args).returned?
  return made.2

set_option maxRecDepth 10000 in
/-- What the two calls return. -/
theorem reflectedValue_quiet : (loadProgram [quietSource]).toOption.map (fun p =>
    (reflectedValue p "nothing", reflectedValue p "one")) = some (some none, some (some (.int 1))) := by
  rw [loadProgram_ofTexts (show [quietSource] = List.map String.ofList [_] from rfl)]
  decide +kernel

set_option maxRecDepth 10000 in
/-- The source defines one class. -/
theorem definedNames_quietSource : definedNames quietSource = ["LQuiet;"] := by
  rw [definedNames_ofText (show quietSource = String.ofList _ from rfl)]
  decide +kernel

/-- It is none of the library. -/
theorem quietSource_leavesLibrary : ∀ source ∈ [quietSource], LeavesLibrary source := by
  rw [List.forall_mem_singleton, LeavesLibrary, definedNames_quietSource, definedNames_standardLibrary,
    List.singleton_disjoint]
  decide

/-- A method that is found is one of the program. -/
theorem hasMethod_of_findMethod? {p : Program} {id : MethodId} {m : Method}
    (h : p.findMethod? id = some m) : p.HasMethod m := by
  obtain ⟨c, hc, hm⟩ := Option.bind_eq_some_iff.1 h
  exact ⟨c, Array.mem_of_find?_eq_some hc, List.mem_of_find?_eq_some hm⟩

/-- The call behind the value, which keeps to the program. -/
theorem returned_of_reflectedValue {p : Program} (hp : loadProgram [quietSource] = .ok p) {name : String}
    {value? : Option Value} (h : reflectedValue p name = some value?) :
    ∃ (c : Call) (t : State), p.HasMethod c.method ∧ c.state.heap.Known p ∧ c.method.isReflective = true ∧
      invokeMethod ⟨p, .standard, 128⟩ 10 c.state c.method c.receiver? c.args = .returned t value? := by
  obtain ⟨c, hc, h⟩ := Option.bind_eq_some_iff.1 h
  obtain ⟨returned, hreturned, h⟩ := Option.bind_eq_some_iff.1 h
  obtain rfl := Option.some.inj h
  obtain ⟨handle, hhandle, hc⟩ := Option.bind_eq_some_iff.1 hc
  obtain ⟨invoke, hinvoke, hc⟩ := Option.bind_eq_some_iff.1 hc
  obtain ⟨_, hreflective, hc⟩ := Option.bind_eq_some_iff.1 hc
  obtain ⟨made, hmade, hc⟩ := Option.bind_eq_some_iff.1 hc
  obtain rfl := Option.some.inj hc
  -- the handle was made by a call that keeps to the program
  have hstd : Setup.Standard ⟨p, .standard, 128⟩ [quietSource] := ⟨rfl, hp, quietSource_leavesLibrary⟩
  have hempty : (State.intern {} name).1.heap.Known p :=
    (Change.intern {} name : Change p noWrite _ _).known (known_empty p)
  have hon := Call.onCode_of_reaches (c := ⟨_, handle, none, _⟩) hstd (hasMethod_of_findMethod? hhandle)
    hempty (reaches_of_returned (eq_returned_of_returned? hmade))
  exact ⟨_, returned.1, hasMethod_of_findMethod? hinvoke, hon.heap, by simpa [guard] using hreflective,
    eq_returned_of_returned? hreturned⟩

/-- A call through a handle of a method that is not void returns its value. -/
theorem reflected_one_returned : ∃ (p : Program) (c : Call) (t : State), loadProgram [quietSource] = .ok p ∧
    (∀ source ∈ [quietSource], LeavesLibrary source) ∧ p.HasMethod c.method ∧ c.state.heap.Known p ∧
    c.method.isReflective = true ∧ invokeMethod ⟨p, .standard, 128⟩ 10 c.state c.method c.receiver?
      c.args = .returned t (some (.int 1)) ∧
    ∃ method, c.AnsweredBy ⟨p, .standard, 128⟩ method ∧ method.returnType ≠ .void := by
  obtain ⟨p, hp, hvalues⟩ := Option.map_eq_some_iff.1 reflectedValue_quiet
  obtain ⟨c, t, hm, hs, hreflective, h⟩ :=
    returned_of_reflectedValue (ok_of_toOption hp) (Prod.mk.inj hvalues).2
  obtain ⟨method, hanswered, -, hvalue, -⟩ :=
    returned_value_iff (ok_of_toOption hp) quietSource_leavesLibrary 128 hm hs h
  exact ⟨p, c, t, ok_of_toOption hp, quietSource_leavesLibrary, hm, hs, hreflective, h, method, hanswered,
    hvalue.1 rfl⟩

/-- A call through a handle of a void method returns nothing, although `Method.invoke` is not void. -/
theorem reflected_nothing_returned : ∃ (p : Program) (c : Call) (t : State), loadProgram [quietSource] = .ok p ∧
    (∀ source ∈ [quietSource], LeavesLibrary source) ∧ p.HasMethod c.method ∧ c.state.heap.Known p ∧
    c.method.returnType ≠ .void ∧
    invokeMethod ⟨p, .standard, 128⟩ 10 c.state c.method c.receiver? c.args = .returned t none := by
  obtain ⟨p, hp, hvalues⟩ := Option.map_eq_some_iff.1 reflectedValue_quiet
  obtain ⟨c, t, hm, hs, hreflective, h⟩ :=
    returned_of_reflectedValue (ok_of_toOption hp) (Prod.mk.inj hvalues).1
  have hdeclared := returnType_of_isReflective (ok_of_toOption hp) quietSource_leavesLibrary hm hreflective
  exact ⟨p, c, t, ok_of_toOption hp, quietSource_leavesLibrary, hm, hs, hdeclared, h⟩

end Smali.Machine
