import Smali.Proofs.Moves
import Smali.Proofs.Session

/-!
# What a step does to the heap

A step changes the heap and the string pool in the ways that are listed by `Change`. Two of these ways are
open to a few steps only: an array is made by the instruction that is executed, and the text of a string
object is replaced by the constructor that is called on that object.

## Key results

- `move_becomes`: how the heap and the string pool change in one step
- `next_becomes`: how they change from one moment of a session to the next
-/

namespace Smali.Machine

/-- The arrays that the running code may make. -/
def Snapshot.Makes (m : Snapshot) (type : Descriptor) (values : Array Value) : Prop :=
  ∃ f i, m.task = .run f ∧ i ∈ f.code.instructions ∧ (Machine.Makes i).array type values

/-- In the step the constructor of strings is called on the object and returns. -/
def Snapshot.Constructs (m : Snapshot) (q : Progress) (ref : Nat) : Prop :=
  ∃ value? method args waiting s, m.task = .finished value? ∧
    m.waiting = .enter method (some (.object ref)) args :: waiting ∧
    method.body = .native ∧ method.hostKey = stringConstructor ∧
    q = .more ⟨s, .finished none, waiting⟩

/-- What the step may do to the heap. -/
def Snapshot.allowance (m : Snapshot) (q : Progress) : Allowance where
  static _ _ _ := True
  array := m.Makes
  contents := m.Constructs q

/-- The heap and the string pool. -/
def State.store (s : State) : Heap × Table String Nat :=
  (s.heap, s.strings)

/-- One change that is allowed, or something else that leaves the heap and the string pool alone. -/
inductive HeapChange (p : Program) (W : Allowance) : State → State → Prop
  | change (s s' : State) (h : Change p W s s') : HeapChange p W s s'
  | rest (s s' : State) (h : s'.store = s.store) : HeapChange p W s s'

/-- The heap and the string pool of the one state become those of the other by changes that are allowed. -/
abbrev State.Becomes (p : Program) (W : Allowance) : State → State → Prop :=
  Relation.ReflTransGen (HeapChange p W)

variable {setup : Setup} {p : Program} {W W' : Allowance} {s s' s₁ s₂ : State}

theorem heap_of_store (h : s'.store = s.store) : s'.heap = s.heap :=
  congrArg Prod.fst h

theorem strings_of_store (h : s'.store = s.store) : s'.strings = s.strings :=
  congrArg Prod.snd h

/-- What one change keeps, if it only depends on the heap and the string pool. -/
theorem State.Becomes.preserves {P : State → Prop} (hchange : ∀ s s', Change p W s s' → P s → P s')
    (hrest : ∀ s s', s'.store = s.store → P s → P s') (h : s.Becomes p W s') (hs : P s) : P s' := by
  induction h with
  | refl => exact hs
  | tail _ h ih =>
    cases h with
    | change h => exact hchange _ _ h ih
    | rest h => exact hrest _ _ h ih

/-- What leaves the heap and the string pool alone. -/
theorem becomes_of_store (h : s'.store = s.store) : s.Becomes p W s' :=
  .single (.rest s s' h)

/-- Changes that are allowed, before and behind which heap and string pool stay. -/
theorem becomes_of_changes (hs : Changes p W' s₁ s₂) (hW : W'.Within W) (hfirst : s₁.store = s.store)
    (hlast : s'.store = s₂.store) : s.Becomes p W s' := by
  have hchanges : s₁.Becomes p W s₂ := (hs.mono hW).lift id fun s s' h => .change s s' h
  exact .head (.rest s s₁ hfirst) (hchanges.tail (.rest s₂ s' hlast))

/-- Changes that make no array and replace no text. -/
theorem within_allowance {static : LoadedClass → Field → Value → Prop} (m : Snapshot)
    (q : Progress) : Allowance.Within { static } (m.allowance q) :=
  ⟨fun _ _ _ _ => trivial, fun _ _ => False.elim, fun _ => False.elim⟩

/-- What follows a host method leaves both alone. -/
theorem store_follow (s : State) (m : Method) (reply : Reply) (waiting : List Waiting) :
    (follow s m reply waiting).state.store = s.store := by
  cases reply <;> rfl

/-- So does what follows an instruction. -/
theorem store_carryOn (s : State) (flow : Except Fault Flow) (i : Instruction)
    (waiting : List Waiting) : (carryOn s flow i waiting).state.store = s.store := by
  cases flow with
  | error e => rfl
  | ok x => cases x <;> rfl

/-- A method of the host may replace the text of its receiver if it returns. -/
theorem becomes_entered {method : Method} {receiver? : Option Value} {args : List Value}
    {waiting : List Waiting} {q : Progress} (hq : Entered setup s method receiver? args waiting q)
    (hW : ∀ reply s', method.body = .native → q = follow s' method reply waiting →
      (Constructs method.hostKey receiver? reply).Within W) :
    s.Becomes setup.program W q.state := by
  cases hq with
  | overflow => exact becomes_of_store rfl
  | code code s' hdepth hcode hchanges => exact becomes_of_changes hchanges noWrite_within rfl rfl
  | host reply s' hdepth hchanges hreply hbody =>
    exact becomes_of_changes hchanges (hW reply s' hbody rfl) rfl (store_follow s' method reply waiting)

/-- In a step no array is made but by the running code, and no text is replaced but by the constructor of
strings. -/
theorem move_becomes {m : Snapshot} {q : Progress} (hq : Move setup m q) :
    m.state.Becomes setup.program (m.allowance q) q.state := by
  -- one case for each kind of move; most of them leave heap and string pool alone
  cases hq with
  | refuse | prepare | unknown | ready | ended | unended | caller | initializer | host | done
  | endless => exact becomes_of_store rfl
  | call s method receiver? receiver?' args waiting q hq hreceiver =>
    -- the receiver of such a call is no object, so that there is no text to replace
    refine becomes_entered hq fun _ _ _ _ => ⟨fun _ _ _ => False.elim, fun _ _ => False.elim, ?_⟩
    exact fun ref href => absurd href.2.1 (hreceiver ref)
  | enter s value? method receiver? args waiting q hq =>
    refine becomes_entered hq fun reply s' hbody hfollow =>
      ⟨fun _ _ _ => False.elim, fun _ _ => False.elim, fun ref href => ?_⟩
    -- the reply says that the constructor has returned
    obtain ⟨hkey, rfl, rfl⟩ := href
    exact ⟨value?, method, args, waiting, _, rfl, rfl, hbody, hkey, hfollow⟩
  | beginInit s s' className waiting c method fields hc hstatus hchanges =>
    exact becomes_of_changes hchanges noWrite_within rfl rfl
  | completeInit s s' className waiting c fields hc hstatus hchanges =>
    exact becomes_of_changes hchanges noWrite_within rfl rfl
  | exec s f waiting i s' flow hi hchanges hflow hplain =>
    refine becomes_of_changes hchanges ⟨fun _ _ _ _ => trivial, fun type values hmake => ?_,
      fun _ => False.elim⟩ rfl (store_carryOn s' flow i waiting)
    exact ⟨f, i, rfl, Array.mem_of_getElem? hi, hmake⟩
  | access s value? f i waiting s' flow hchanges hflow hplain =>
    exact becomes_of_changes hchanges (within_allowance _ _) rfl
      (store_carryOn s' flow i waiting)
  | readField s value? method owner field args waiting s' reply hchanges hreply =>
    exact becomes_of_changes hchanges noWrite_within rfl (store_follow s' method reply waiting)
  | writeField s value? method owner field args v waiting s' reply hchanges hreply =>
    exact becomes_of_changes hchanges (within_allowance _ _) rfl
      (store_follow s' method reply waiting)

/-! ## Sessions -/

/-- What may happen to the heap from a moment to the next. -/
def Outcome.allowance (setup : Setup) (allowed : Operation → Prop) : Outcome → Allowance
  | .unfinished m => m.allowance (step setup m)
  | .returned _ _ | .failed _ _ => allocation allowed

/-- Between operations only what is done from outside may happen. -/
theorem allowance_of_ended {allowed : Operation → Prop} {o : Outcome} (h : o.ended? = some s) :
    o.allowance setup allowed = allocation allowed := by
  cases o with
  | returned | failed => rfl
  | unfinished m => cases h

/-- From one moment to the next, the heap and the string pool change by one step or by what is done from
outside. -/
theorem next_becomes (hn : setup.natives = .standard) {allowed : Operation → Prop} {o o' : Outcome}
    (hnext : Next setup allowed o o') :
    o.state.Becomes setup.program (o.allowance setup allowed) o'.state := by
  cases hnext with
  | invoke _ s method receiver? args ho =>
    rw [state_of_ended ho]
    exact .refl
  | initClass _ s className ho =>
    rw [state_of_ended ho]
    exact .refl
  | alloc _ _ s s' ho ho' hs =>
    rw [state_of_ended ho, state_of_ended ho', allowance_of_ended ho]
    exact becomes_of_changes hs ⟨fun _ _ _ => id, fun _ _ => id, fun _ => id⟩ rfl rfl
  | step m =>
    rw [state_run_one]
    exact move_becomes (step_move hn m)
  -- the step that fails comes first, then its report
  | report m s s' e hfault hs =>
    have hstep : m.state.Becomes setup.program (m.allowance (Machine.step setup m)) s := by
      have hmove := move_becomes (step_move hn m)
      rw [hfault] at hmove ⊢
      exact hmove
    exact hstep.trans (becomes_of_changes hs noWrite_within rfl rfl)
  | stay => exact .refl

end Smali.Machine
