import Smali.Proofs.ClassStatus
import Smali.Proofs.Loading

/-!
# Initializers that fail

The status of a class is set before its initializer is called and again after the initializer has returned.
A fault ends every call at once, so it leaves the classes whose initializers are under way in between, and
nothing takes them further afterwards. These are the only classes that are ever left so.

## Key results

- `SessionMove.tracked`: the classes in between are those of the initializers under way and those left so
- `initializing_iff_failed`: a class is left in between exactly when its initializer was under way at a
  failure
- `broken_left_initializing`: this happens
-/

namespace Smali.Machine

namespace Outcome

/-- The classes whose initializers are under way, innermost first. -/
def initializing : Outcome → List Nat
  | .unfinished m => m.initializing
  | .returned _ _ | .failed _ _ => []

/-- The next step fails. -/
def Fails (setup : Setup) : Outcome → Prop
  | .unfinished m => ∃ s e, step setup m = .fault s e
  | .returned _ _ | .failed _ _ => False

end Outcome

/-- One of the moments failed while the initializer of the class was under way. -/
def FailedInit (setup : Setup) (moments : List Outcome) (id : Nat) : Prop :=
  ∃ o ∈ moments, o.Fails setup ∧ id ∈ o.initializing

variable {setup : Setup} {p : Program} {m m' : Snapshot} {o o' : Outcome} {before : List Outcome}
  {id : Nat}

/-! ## Failures so far -/

/-- One more moment adds the initializers under way if it fails. -/
theorem failedInit_concat :
    FailedInit setup (before ++ [o]) id ↔
      FailedInit setup before id ∨ o.Fails setup ∧ id ∈ o.initializing := by
  constructor
  · rintro ⟨o', hmem, h⟩
    cases List.mem_append.1 hmem with
    | inl hold => exact .inl ⟨o', hold, h⟩
    | inr hlast => exact .inr (List.mem_singleton.1 hlast ▸ h)
  · rintro (⟨o', hmem, h⟩ | h)
    · exact ⟨o', List.mem_append_left _ hmem, h⟩
    · exact ⟨o, List.mem_append_right _ (List.mem_singleton_self o), h⟩

/-- A moment that does not fail adds nothing. -/
theorem failedInit_concat_of_not (h : ¬ o.Fails setup) :
    FailedInit setup (before ++ [o]) id ↔ FailedInit setup before id :=
  failedInit_concat.trans (or_iff_left fun hfails => h hfails.1)

theorem failedInit_cons_of_not (h : ¬ o.Fails setup) :
    FailedInit setup (o :: before) id ↔ FailedInit setup before id :=
  (List.exists_mem_cons_iff _ o before).trans (or_iff_right fun hfails => h hfails.1)

theorem not_failedInit_nil : ¬ FailedInit setup [] id := by
  rintro ⟨_, hmem, _⟩
  exact List.not_mem_nil hmem

/-- Between operations nothing fails. -/
theorem not_fails_of_ended {s : State} (h : o.ended? = some s) : ¬ o.Fails setup := by
  cases o with
  | returned | failed => exact id
  | unfinished m => cases h

/-- A step that goes on does not fail. -/
theorem not_fails_of_more (h : step setup m = .more m') : ¬ (Outcome.unfinished m).Fails setup := by
  rintro ⟨_, _, hfault⟩
  cases h.symm.trans hfault

/-- Between operations no initializer is under way. -/
theorem initializing_of_ended {s : State} (h : o.ended? = some s) : o.initializing = [] := by
  cases o with
  | returned | failed => rfl
  | unfinished m => cases h

/-! ## Classes in between -/

/-- The classes in between are those left so by a failure and those whose initializers are under way. The
latter are distinct, and no failure has left any of them. -/
structure Tracked (setup : Setup) (before : List Outcome) (o : Outcome) : Prop where
  status : ∀ id, o.state.classStatus id = .initializing ↔
    FailedInit setup before id ∨ id ∈ o.initializing
  nodup : o.initializing.Nodup
  fresh : ∀ id ∈ o.initializing, ¬ FailedInit setup before id

/-- On a fresh machine no class is in between. -/
theorem tracked_fresh (setup : Setup) (journal : Journal) :
    Tracked setup [] (.returned { journal } none) where
  status _ := ⟨nofun, fun h => absurd (h.resolve_left not_failedInit_nil) List.not_mem_nil⟩
  nodup := List.nodup_nil
  fresh := List.forall_mem_nil _

/-- Nothing changes for the classes. -/
theorem Tracked.of_eq (ho : Tracked setup before o)
    (hstatus : ∀ id, o'.state.classStatus id = o.state.classStatus id)
    (hinit : o'.initializing = o.initializing) : Tracked setup before o' where
  status id := by rw [hstatus, hinit]; exact ho.status id
  nodup := hinit ▸ ho.nodup
  fresh := hinit ▸ ho.fresh

/-- The moment before may be added when it does not fail. -/
theorem Tracked.concat (ho' : Tracked setup before o') (h : ¬ o.Fails setup) :
    Tracked setup (before ++ [o]) o' where
  status id := by rw [failedInit_concat_of_not h]; exact ho'.status id
  nodup := ho'.nodup
  fresh id hid := by rw [failedInit_concat_of_not h]; exact ho'.fresh id hid

/-- A step that goes on keeps track of the classes in between. -/
theorem ClassMove.tracked (h : ClassMove p m m') (ho : Tracked setup before (.unfinished m)) :
    Tracked setup before (.unfinished m') := by
  -- only the set-up of a class and the end of its initializer change what is in between
  cases h with
  | quiet _ h => exact ho.of_eq h.state.classStatus_eq h.initializing
  | ready className c htask hc hstatus => exact ho.of_eq (fun _ => rfl) rfl
  | start className c htask hc hstatus s hs fields hfields method hinit =>
    -- the class is not in between yet, so no failure has left it and its initializer is not under way
    have hnew : ¬ (FailedInit setup before c.id ∨ c.id ∈ m.initializing) := by
      intro hold
      cases hstatus.symm.trans ((ho.status c.id).2 hold)
    refine ⟨fun id => ?_, List.nodup_cons.2 ⟨fun hmem => hnew (.inr hmem), ho.nodup⟩,
      List.forall_mem_cons.2 ⟨fun hfailed => hnew (.inl hfailed), ho.fresh⟩⟩
    show ((s.installStatics c.id fields).setClassStatus c.id .initializing).classStatus id = _ ↔
      _ ∨ id ∈ c.id :: m.initializing
    rw [classStatus_setUp hs.status_eq, List.mem_cons]
    split
    · next heq => exact ⟨fun _ => .inr (.inl heq), fun _ => rfl⟩
    · next hne =>
      rw [or_iff_right hne]
      exact ho.status id
  -- the class leaves the first status for the last one at once
  | complete className c htask hc hstatus s hs fields hfields =>
    refine ⟨fun id => ?_, ho.nodup, ho.fresh⟩
    show ((s.installStatics c.id fields).setClassStatus c.id .initialized).classStatus id = _ ↔ _
    rw [classStatus_setUp hs.status_eq]
    split
    · next heq =>
      subst heq
      refine ⟨nofun, fun hold => ?_⟩
      cases hstatus.symm.trans ((ho.status c.id).2 hold)
    · exact ho.status id
  | finish id value? rest htask hwaiting =>
    -- the initializer on top is the one that has returned
    have hcons : m.initializing = id :: rest.filterMap Waiting.initializer? := by
      unfold Snapshot.initializing
      rw [hwaiting]
      rfl
    have hnodup : (id :: rest.filterMap Waiting.initializer?).Nodup := hcons ▸ ho.nodup
    have hfresh : ∀ id' ∈ id :: rest.filterMap Waiting.initializer?,
        ¬ FailedInit setup before id' := hcons ▸ ho.fresh
    obtain ⟨hleft, hrest⟩ := List.forall_mem_cons.1 hfresh
    refine ⟨fun id' => ?_, (List.nodup_cons.1 hnodup).2, hrest⟩
    show (m.state.setClassStatus id .initialized).classStatus id' = _ ↔ _
    rw [State.classStatus_setClassStatus]
    split
    · next heq =>
      subst heq
      refine ⟨nofun, fun hold => ?_⟩
      cases hold with
      | inl hfailed => exact absurd hfailed hleft
      | inr hmem => exact absurd hmem (List.nodup_cons.1 hnodup).1
    · next hne =>
      have hold : m.state.classStatus id' = .initializing ↔ _ ∨ id' ∈ m.initializing := ho.status id'
      rw [hcons, List.mem_cons, or_iff_right hne] at hold
      exact hold

/-- From one moment to the next, a failure moves the classes whose initializers are under way to those that
are left. -/
theorem SessionMove.tracked (h : SessionMove setup o o') (ho : Tracked setup before o) :
    Tracked setup (before ++ [o]) o' := by
  cases h with
  | start _ s task h hcall =>
    refine (ho.of_eq (fun id => ?_) ?_).concat (not_fails_of_ended h)
    · rw [state_of_ended h]
      rfl
    · rw [initializing_of_ended h]
      rfl
  | step m m' hstep h => exact (h.tracked ho).concat (not_fails_of_more hstep)
  | done m value? htask hwaiting =>
    have hnone : m.initializing = [] := by
      unfold Snapshot.initializing
      rw [hwaiting]
      rfl
    have hdone : Machine.step setup m = .done m.state value? := by
      obtain ⟨s, task, waiting⟩ := m
      obtain rfl : task = .finished value? := htask
      obtain rfl : waiting = [] := hwaiting
      rfl
    have hsame : Tracked setup before (.returned m.state value?) := ho.of_eq (fun _ => rfl) hnone.symm
    refine hsame.concat ?_
    rintro ⟨s, e, hfault⟩
    cases hdone.symm.trans hfault
  | fault m s₁ s e h hs =>
    refine ⟨fun id => ?_, List.nodup_nil, List.forall_mem_nil _⟩
    -- a failure changes no status, so the classes under way stay in between
    have hsame : s.classStatus id = m.state.classStatus id := hs.classStatus_eq id
    have hfails : (Outcome.unfinished m).Fails setup := ⟨s₁, e, h⟩
    show s.classStatus id = .initializing ↔ _ ∨ id ∈ []
    rw [failedInit_concat, hsame, or_iff_left List.not_mem_nil, and_iff_right hfails]
    exact ho.status id
  | idle _ _ s s' h h' hs =>
    refine (ho.of_eq (fun id => ?_) ?_).concat (not_fails_of_ended h)
    · rw [state_of_ended h, state_of_ended h']
      exact hs.classStatus_eq id
    · rw [initializing_of_ended h, initializing_of_ended h']

/-- What is known at the first moment, together with the moments before it, is known at every one. -/
theorem tracked_of_isChain {l : List Outcome} (hchain : List.IsChain (SessionMove setup) (o :: l))
    (ho : Tracked setup before o) {between after : List Outcome}
    (hsplit : o :: l = between ++ o' :: after) : Tracked setup (before ++ between) o' :=
  track_of_isChain (fun _ _ _ h => h.tracked) hchain ho hsplit

/-- After every operation of a session, a class is in between exactly when one of the operations so far
failed while the initializer of the class was under way. -/
theorem initializing_iff_failed (p : Program) (maxDepth : Nat) (journal : Journal)
    (ops : List (Operation × Nat)) (before after : List Outcome) (o : Outcome)
    (h : history { program := p, maxDepth } { journal } ops = before ++ o :: after)
    (s : State) (hend : o.ended? = some s) (id : Nat) :
    s.classStatus id = .initializing ↔ FailedInit { program := p, maxDepth } before id := by
  have hchain : List.IsChain (SessionMove { program := p, maxDepth })
      (.returned { journal } none :: history { program := p, maxDepth } { journal } ops) :=
    isChain_sessionMove _ rfl (known_empty p) ops
  -- the state from which the session starts is put in front
  have hsplit : .returned { journal } none :: history { program := p, maxDepth } { journal } ops =
      (.returned { journal } none :: before) ++ o :: after := congrArg (_ :: ·) h
  have hstatus := (tracked_of_isChain hchain (tracked_fresh _ journal) hsplit).status id
  rw [state_of_ended hend, initializing_of_ended hend, or_iff_left List.not_mem_nil] at hstatus
  -- the state from which the session starts is no moment of it, and nothing failed there
  exact hstatus.trans (failedInit_cons_of_not (not_fails_of_ended rfl))

/-! ## A class that is left in between -/

/-- A class whose initializer divides by zero, and a method that reads its static field. -/
def brokenSource : String := "
.class LBroken;
.field static x:I
.method static constructor <clinit>()V
    .registers 1
    const v0, 0
    div-int v0, v0, v0
    return-void
.end method
.method static touch()V
    .registers 1
    sget v0, LBroken;->x:I
    return-void
.end method
"

namespace Broken

/-- The initializer, which divides by zero. -/
def init : Method where
  className := "LBroken;"
  name := "<clinit>"
  flags := .ofWords ["static", "constructor"]
  params := []
  returnType := .void
  body := .code
    { registerCount := 1
      instructions := #[.const (.register 0) ⟨0, 32⟩,
        .arithmetic .div ⟨.int, .int, .int⟩ (.register 0) (.register 0) (.slot (.register 0)),
        .returnVoid] }

/-- The instruction that reads the field. -/
def readX : Instruction :=
  .staticGet .int (.register 0) ⟨"LBroken;", "x", .int⟩

/-- The code of the method. -/
def touchCode : Code :=
  { registerCount := 1, instructions := #[readX, .returnVoid] }

/-- The method that reads the field. -/
def touch : Method where
  className := "LBroken;"
  name := "touch"
  flags := .ofWords ["static"]
  params := []
  returnType := .void
  body := .code touchCode

/-- The static field. -/
def x : Field where
  flags := .ofWords ["static"]
  name := "x"
  type := .int
  initial? := none

/-- The class that is read from the source, behind those of the library. -/
def broken : LoadedClass where
  flags := .ofWords []
  name := "LBroken;"
  fields := ⟨[("x", x)]⟩
  methods := [init, touch]
  id := 12
  superId? := none

/-- The state in which the initializer is called. -/
def inBetween (s : State) : State :=
  (s.installStatics 12 ⟨[("x", .int 0)]⟩).setClassStatus 12 .initializing

/-- The state that the failure leaves. -/
def left : State :=
  reportFailure (inBetween { calls := [init, touch] }) touch .divisionByZero

end Broken

open Broken

set_option maxRecDepth 10000 in
/-- The class is read from the source. -/
theorem loadClass?_broken : loadClass? [brokenSource] "LBroken;" = some broken := by
  rw [loadClass?, loadProgram_ofTexts (show [brokenSource] = List.map String.ofList [_] from rfl)]
  decide +kernel

/-- The first call of the method fails in the initializer. -/
theorem invoke_touch (hp : p.find? "LBroken;" = some broken) :
    invoke { program := p } 6 {} touch none [] = .failed left .divisionByZero := by
  let s : State := { calls := [touch] }
  let waiting : List Waiting := [.access (.enter touch touchCode none []) readX]
  -- of the program no more is used than that it finds the class
  have hcall : step { program := p } ⟨{}, .call touch none [], []⟩ =
      .more ⟨s, .run (.enter touch touchCode none []), []⟩ := rfl
  have hneed : step { program := p } ⟨s, .run (.enter touch touchCode none []), []⟩ =
      .more ⟨s, .initClass "LBroken;", waiting⟩ := rfl
  have hinit : step { program := p } ⟨s, .initClass "LBroken;", waiting⟩ =
      .more ⟨inBetween s, .call init none [], .initializer 12 :: waiting⟩ := by
    show startInit { program := p } s "LBroken;" waiting = _
    unfold startInit findClass
    rw [hp]
    rfl
  unfold invoke invokeMethod
  rw [run_more hcall, run_more hneed, run_more hinit]
  rfl

/-- The second call of the method finds the class set up. -/
theorem invoke_touch_again (hp : p.find? "LBroken;" = some broken) :
    ∃ s, invoke { program := p } 6 left touch none [] = .returned s none := by
  let s : State := { left with calls := [touch] }
  let waiting : List Waiting := [.access (.enter touch touchCode none []) readX]
  have hc : findClass p "LBroken;" = .ok broken := by
    unfold findClass
    rw [hp]
  have hcall : step { program := p } ⟨left, .call touch none [], []⟩ =
      .more ⟨s, .run (.enter touch touchCode none []), []⟩ := rfl
  have hneed : step { program := p } ⟨s, .run (.enter touch touchCode none []), []⟩ =
      .more ⟨s, .initClass "LBroken;", waiting⟩ := rfl
  -- the class has left the first status, so it is not set up again
  have hready : step { program := p } ⟨s, .initClass "LBroken;", waiting⟩ =
      .more ⟨s, .finished none, waiting⟩ := step_ready hc (by decide)
  have hfield : staticField p .int ⟨"LBroken;", "x", .int⟩ = .ok (broken, x) := by
    unfold staticField lookupStaticField
    rw [hc]
    rfl
  have hread : step { program := p } ⟨s, .finished none, waiting⟩ =
      .more ⟨s, .run { Frame.enter touch touchCode none [] with
        pc := 1, registers := ⟨#[some (.int 0)]⟩ }, []⟩ := by
    show carryOn s ((staticGet p s _ .int (.register 0) ⟨"LBroken;", "x", .int⟩).map .next) readX [] = _
    unfold staticGet
    rw [hfield]
    rfl
  unfold invoke invokeMethod
  rw [run_more hcall, run_more hneed, run_more hready, run_more hread]
  exact ⟨_, rfl⟩

/-- A call may leave a class in between, and for a later call the class then counts as set up. -/
theorem broken_left_initializing : ∃ p c m, loadProgram [brokenSource] = .ok p ∧ c ∈ p.classes ∧
    m ∈ c.methods ∧ ∃ s, invoke { program := p } 6 {} m none [] = .failed s .divisionByZero ∧
      s.classStatus c.id = .initializing ∧
      ∃ s', invoke { program := p } 6 s m none [] = .returned s' none := by
  obtain ⟨p, hload, hp⟩ := loadClass?_eq_some loadClass?_broken
  exact ⟨p, broken, touch, hload, Array.mem_of_find?_eq_some hp, by decide, left, invoke_touch hp,
    by decide, invoke_touch_again hp⟩

/-- The class is left in between because its initializer was under way at the failure. -/
theorem broken_failedInit : ∃ p before, loadProgram [brokenSource] = .ok p ∧
    history { program := p } {} [(.invoke touch none [], 6)] =
      before ++ [.failed left .divisionByZero] ∧
    left.classStatus 12 = .initializing ∧ FailedInit { program := p } before 12 := by
  obtain ⟨p, hload, hp⟩ := loadClass?_eq_some loadClass?_broken
  let op : Operation := .invoke touch none []
  have hlast : op.perform { program := p } {} 6 = .failed left .divisionByZero := invoke_touch hp
  -- the last of the seven moments is the failure
  have hhistory : history { program := p } {} [(op, 6)] =
      (List.range 6).map (op.perform { program := p } {}) ++ [.failed left .divisionByZero] := by
    unfold history
    rw [List.range_succ, List.map_append, List.map_singleton, hlast]
    exact List.append_nil _
  have hstatus : left.classStatus 12 = .initializing := by decide
  exact ⟨p, _, hload, hhistory, hstatus,
    (initializing_iff_failed p 128 {} _ _ [] _ hhistory left rfl 12).1 hstatus⟩

end Smali.Machine
