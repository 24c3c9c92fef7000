import Smali.Proofs.Memory
import Smali.Proofs.NestedRuns
import Smali.Proofs.ParameterLayout
import Smali.Proofs.StringPool

/-!
# Writes through handles

A static field can be stored by an instruction and by `Field.set` on a handle of the field. Both have the
class of the field set up and write the field then; they go about it in another order, but the class is set
up in the same way. An instruction reduces the number to the type of the field, and `Field.set` stores it as
it is. So the two leave the same behind exactly if the number is in the range of the type, and they differ
in the one field if not.

## Key results

- `underway_inner`: while a store waits for the class of the field, the class is set up by a run of its own
- `fieldSet_returns`, `staticPut_executes`: both stores write the field after such a run
- `fieldGet_returns`: a field whose class is set up can be read through a handle
- `reduce_eq_self_iff`: when a number is stored as it is
- `stores_agree_iff`: when the two stores leave the same behind
- `handle_stores_more`: a number that is no byte, stored in a field for bytes in both ways
-/

namespace Smali.Machine

variable {setup : Setup} {s s' s₀ s₁ t t' : State} {f f' : Frame} {i : Instruction} {m m' : Snapshot}
  {waiting : List Waiting} {value? value?' : Option Value}

/-! ## Runs that differ in their journals -/

theorem State.quiet_log_trace (s : State) (message : Unit → String) :
    (s.log .trace message).quiet = s.quiet := by
  have hjournal : (s.journal.write .trace message).quiet = s.journal.quiet := by
    obtain ⟨verbosity, lines⟩ := s.journal
    cases verbosity <;> simp [Journal.write, Journal.keeps, Journal.quiet, Level.rank]
  exact congrArg (fun journal => { s with journal }) hjournal

theorem eq_of_quiet (h : s.quiet = s'.quiet) : s = { s' with journal := s.journal } := by
  obtain ⟨heap, statics, status, locks, lastReturn?, strings, calls, journal⟩ := s
  simp only [State.quiet, State.mk.injEq] at h ⊢
  exact ⟨h.1, h.2.1, h.2.2.1, h.2.2.2.1, h.2.2.2.2.1, h.2.2.2.2.2.1, h.2.2.2.2.2.2.1, trivial⟩

/-- Runs that differ in lines for debugging come to the same, but for such lines. -/
theorem quiet_of_reaches (hn : setup.natives.Deaf) (hsplit : m.split = m'.split)
    (h : Reaches setup m ⟨t, .finished value?, []⟩) (h' : Reaches setup m' ⟨t', .finished value?', []⟩) :
    t'.quiet = t.quiet ∧ value?' = value? := by
  obtain ⟨steps, hrun⟩ := returned_of_reaches h
  have hsame := run_split hn steps hsplit
  rw [hrun] at hsame
  cases hrun' : run setup steps m' with
  | returned t₂ value?₂ =>
    rw [hrun'] at hsame
    obtain ⟨ht, hvalue⟩ := Prod.mk.inj (Option.some.inj hsame)
    obtain ⟨rfl, rfl⟩ := finished_unique (reaches_of_returned hrun') h'
    exact ⟨ht.symm, (Except.ok.inj hvalue).symm⟩
  | failed t₂ e =>
    rw [hrun'] at hsame
    cases (Prod.mk.inj (Option.some.inj hsame)).2
  | unfinished m₂ =>
    rw [hrun'] at hsame
    cases hsame

/-! ## Work on a class -/

/-- A run above waiting work comes to a value before it takes the work up. -/
theorem Reaches.inner {below : List Waiting} (hbelow : below ≠ [])
    (h : Reaches setup (m.over below) ⟨t, .finished value?, []⟩) :
    ∃ t' value?', Reaches setup m ⟨t', .finished value?', []⟩ ∧
      Reaches setup ⟨t', .finished value?', below⟩ ⟨t, .finished value?, []⟩ := by
  generalize hstart : m.over below = start at h
  induction h using Relation.ReflTransGen.head_induction_on generalizing m with
  | refl =>
    -- at the end no work waits
    have hwaiting : m.waiting ++ below = [] := congrArg Snapshot.waiting hstart
    exact absurd (List.append_eq_nil_iff.1 hwaiting).2 hbelow
  | head hstep hrest ih =>
    subst hstart
    by_cases hend : m.AtEnd
    · obtain ⟨t', value?', rfl⟩ := hend
      exact ⟨t', value?', .refl, .head hstep hrest⟩
    · obtain ⟨next, hnext, rfl⟩ := step_of_over hend hstep
      obtain ⟨t', value?', hinner, hafter⟩ := ih rfl
      exact ⟨t', value?', .head hnext hinner, hafter⟩

/-- While an instruction waits for its class, the class is set up by a run of its own. -/
theorem underway_inner {className : String}
    (hfirst : step setup ⟨s, .run f, waiting⟩ =
      .more ⟨s₀, .initClass className, .access f i :: waiting⟩)
    (h : Underway setup ⟨s, .run f, waiting⟩ ⟨s₁, .finished none, .access f i :: waiting⟩) :
    Reaches setup ⟨s₀, .initClass className, []⟩ ⟨s₁, .finished none, []⟩ := by
  have hinner (m : Snapshot) (hm : Underway setup ⟨s, .run f, waiting⟩ m) :
      m = ⟨s, .run f, waiting⟩ ∨
        ∃ k, Reaches setup ⟨s₀, .initClass className, []⟩ k ∧ m = k.over (.access f i :: waiting) := by
    -- the induction is on the steps of the instruction; each is a step of the run on the class
    induction hm with
    | refl => exact .inl rfl
    | tail _ hstep ih =>
      obtain ⟨hstep, hinside⟩ := hstep
      refine .inr ?_
      rcases ih with rfl | ⟨k, hk, rfl⟩
      · obtain rfl := Progress.more.inj (hfirst.symm.trans hstep)
        exact ⟨_, .refl, rfl⟩
      · by_cases hend : k.AtEnd
        · -- the instruction would be taken up, and not be under way any more
          obtain ⟨t, value?, rfl⟩ := hend
          have hresume : resume setup t value? (.access f i) waiting = .more _ := hstep
          rw [resume_waiting .access hresume] at hinside
          exact absurd hinside (Nat.lt_irrefl _)
        · obtain ⟨next, hnext, rfl⟩ := step_of_over hend hstep
          exact ⟨next, .tail hk hnext, rfl⟩
  rcases hinner _ h with heq | ⟨k, hk, heq⟩
  · cases congrArg Snapshot.task heq
  · obtain ⟨s', task, above⟩ := k
    obtain ⟨rfl, rfl, habove⟩ := Snapshot.mk.inj heq
    obtain rfl : [] = above := by simpa using habove
    exact hk

/-! ## Stores by instructions -/

variable {kind : AccessKind} {src : Slot} {id : FieldId} {c : LoadedClass} {field : Field} {u v : Value}

/-- A store that is not wide takes the value of its slot. -/
theorem readKind_narrow {h : Heap} (hkind : kind ≠ .wide) (hread : f.read src = .ok u)
    (hv : f.readKind h kind.valueKind src = .ok v) : v = u := by
  cases kind with
  | wide => exact absurd rfl hkind
  | object =>
    obtain ⟨x, hx, hv⟩ := bind_eq_ok.1 hv
    obtain rfl := Except.ok.inj (hread.symm.trans hx)
    split at hv
    · exact (Except.ok.inj hv).symm
    · cases hv
  | int | boolean | byte | char | short =>
    obtain ⟨n, hn, hv⟩ := bind_eq_ok.1 hv
    obtain ⟨x, hx, hn⟩ := bind_eq_ok.1 hn
    obtain rfl := Except.ok.inj (hread.symm.trans hx)
    obtain rfl := Except.ok.inj hv
    cases u with
    | int n' => exact congrArg Value.int (Except.ok.inj hn).symm
    | long | object | array => cases hn

theorem ne_wide_of_accepts (haccepts : kind.accepts field.type = true)
    (hnarrow : field.type.isWide = false) : kind ≠ .wide := by
  rintro rfl
  rw [AccessKind.accepts, hnarrow] at haccepts
  cases haccepts

/-- A store of a static field that comes to its end writes the value of its slot, reduced to its kind, once
the class has been set up. -/
theorem staticPut_executes (hlookup : lookupStaticField setup.program id = .ok (c, field))
    (hnarrow : field.type.isWide = false)
    (hi : f.code.instructions[f.pc]? = some (.staticPut kind src id)) (hread : f.read src = .ok u)
    (h : Executes setup ⟨s, .run f, waiting⟩ (.more ⟨t, .run f', waiting⟩)) :
    ∃ line s₁, Reaches setup ⟨s.log .trace line, .initClass id.className, []⟩ ⟨s₁, .finished none, []⟩ ∧
      ClassReady setup.program id.className s₁ ∧ kind.accepts field.type = true ∧
      (u.reduce kind).fits field.type = true ∧ t = s₁.setStatic c.id field.name (u.reduce kind) := by
  obtain ⟨line, hfirst⟩ := step_run setup hi s waiting
  obtain ⟨s₁, hunderway, hready, -, hend⟩ := field_executed hfirst h
  refine ⟨line, s₁, underway_inner hfirst hunderway, hready, ?_⟩
  simp only [access, attempt] at hend
  cases hput : staticPut setup.program s₁ f kind src id with
  | error e =>
    rw [hput] at hend
    cases hend
  | ok s₂ =>
    rw [hput] at hend
    obtain ⟨rfl, -⟩ := carryOn_next hend
    obtain ⟨⟨owner, field'⟩, hplace, hput⟩ := bind_eq_ok.1 hput
    obtain ⟨w, hw, hput⟩ := bind_eq_ok.1 hput
    obtain ⟨_, hfits, hput⟩ := bind_eq_ok.1 hput
    obtain ⟨hlookup', haccepts⟩ := staticField_ok hplace
    obtain ⟨rfl, rfl⟩ := Prod.mk.inj (Except.ok.inj (hlookup.symm.trans hlookup'))
    obtain ⟨v, hv, rfl⟩ := readAccess_ok hw
    obtain rfl := readKind_narrow (ne_wide_of_accepts haccepts hnarrow) hread hv
    exact ⟨haccepts, fits_of_checkFits hfits, (Except.ok.inj hput).symm⟩

/-! ## Stores through handles -/

/-- A host method that is called in a state returns in another one, with this value. -/
def HostMethod.Returns (setup : Setup) (host : HostMethod) (method : Method) (call : HostCall)
    (s t : State) (value? : Option Value) : Prop :=
  ∃ m, follow (host setup.program call s).1 method (host setup.program call s).2 [] = .more m ∧
    Reaches setup m ⟨t, .finished value?, []⟩

/-- What a value stands for in a field of a type: in a field for ints a box stands for its number, and all
else stands for itself. -/
inductive Unboxes (h : Heap) (type : Descriptor) : Value → Value → Prop
  | number {ref : Nat} {data : HostData} {n : Value} (htype : type = .int)
      (hbox : h.object ref = .ok ⟨integerClass, .host data⟩) (hnumber : data.number? = some n) :
      Unboxes h type (.object ref) n
  | self {v : Value} (hplain : type = .int → ∀ ref o, v = .object ref → h.object ref = .ok o →
      o.className ≠ integerClass) : Unboxes h type v v

/-- A value stands for one thing only. -/
theorem Unboxes.eq {h : Heap} {type : Descriptor} (hu : Unboxes h type v u) {w : Value}
    (hw : unbox h v type = .ok w) : w = u := by
  unfold unbox at hw
  cases hu with
  | @number ref data n htype hbox hnumber =>
    obtain ⟨o, ho, hw⟩ := bind_eq_ok.1 hw
    obtain rfl := Except.ok.inj (hbox.symm.trans ho)
    rw [if_pos ⟨htype, rfl⟩] at hw
    obtain ⟨d, hd, hw⟩ := bind_eq_ok.1 hw
    obtain rfl := Except.ok.inj hd
    rw [hnumber] at hw
    exact (Except.ok.inj hw).symm
  | self hplain =>
    split at hw
    · next ref =>
      obtain ⟨o, ho, hw⟩ := bind_eq_ok.1 hw
      split at hw
      · next hbox => exact absurd hbox.2 (hplain hbox.1 ref o rfl ho)
      · exact (Except.ok.inj hw).symm
    · exact (Except.ok.inj hw).symm

/-- `Field.set` checks the value before it asks for the class. -/
theorem fieldSet_more {method : Method} {call : HostCall}
    (hhandle : handle call s "field" HostData.field? = .ok (c, field)) (harg : call.arg 1 = .ok v)
    (hu : Unboxes s.heap field.type v u)
    (h : follow (fieldSet setup.program call s).1 method (fieldSet setup.program call s).2 [] =
      .more m) :
    u.fits field.type = true ∧
      m = ⟨s, .initClass c.name, [.writeField method c field call.args u]⟩ := by
  simp only [fieldSet, HostMethod.reading, hhandle, harg, bind, Except.bind] at h
  cases hw : unbox s.heap v field.type with
  | error e =>
    rw [hw] at h
    cases h
  | ok w =>
    obtain rfl := hu.eq hw
    rw [hw] at h
    dsimp only at h
    split at h
    · next hfits => exact ⟨hfits, (Progress.more.inj h).symm⟩
    · cases h

/-- `Field.set` on the handle of a static field writes what the value stands for, once the class has been
set up. -/
theorem fieldSet_returns {method : Method} {call : HostCall} (hstatic : field.isStatic = true)
    (hhandle : handle call s "field" HostData.field? = .ok (c, field)) (harg : call.arg 1 = .ok v)
    (hu : Unboxes s.heap field.type v u) (h : fieldSet.Returns setup method call s t value?) :
    value? = none ∧ u.fits field.type = true ∧
      ∃ s₁ ready?, Reaches setup ⟨s, .initClass c.name, []⟩ ⟨s₁, .finished ready?, []⟩ ∧
        t = { s₁.setStatic c.id field.name u with calls := s₁.calls.pop } := by
  obtain ⟨m, hfollow, hreaches⟩ := h
  obtain ⟨hfits, rfl⟩ := fieldSet_more hhandle harg hu hfollow
  obtain ⟨s₁, ready?, hinner, hafter⟩ :=
    Reaches.inner (m := ⟨s, .initClass c.name, []⟩) (List.cons_ne_nil _ _) hreaches
  -- the class is there, and the field is written in one step
  have hwrite : step setup ⟨s₁, .finished ready?, [.writeField method c field call.args u]⟩ =
      .more ⟨{ s₁.setStatic c.id field.name u with calls := s₁.calls.pop }, .finished none, []⟩ := by
    show follow (writeField s₁ c field call.args u).1 method (writeField s₁ c field call.args u).2 [] = _
    rw [writeField, if_pos hstatic]
    rfl
  obtain ⟨rfl, rfl⟩ := finished_unique (.single hwrite) hafter
  exact ⟨rfl, hfits, s₁, ready?, hinner, rfl⟩

/-! ## Reading through handles -/

/-- How the value of a field comes back: an int in a new box, all else as it is. -/
def Boxes (type : Descriptor) (h : Heap) (w r : Value) : Prop :=
  if type = .int then
    ∃ ref, r = .object ref ∧ h.object ref = .ok ⟨integerClass, .host { number? := some w }⟩
  else r = w

theorem isWide_of_fits_long {n : Int64} {type : Descriptor} (h : (Value.long n).fits type = true) :
    type.isWide = true := by
  cases type with
  | long | double => rfl
  | int | float | boolean | byte | char | short | void | object | array => cases h

/-- The field of a class that is set up comes back, and no static field changes. -/
theorem replyField_static (hstatic : field.isStatic = true) (hnarrow : field.type.isWide = false)
    (hvalue : s.static? c.id field.name = some u) (hfits : u.fits field.type = true)
    (args : List Value) :
    ∃ t r, replyField s c field args = (t, .finish (some r)) ∧ Boxes field.type t.heap u r ∧
      t.statics = s.statics := by
  have hread : readField s c field args = (s, .ok u) := by
    rw [readField, if_pos hstatic, hvalue]
  unfold replyField Boxes
  rw [hread]
  cases u with
  | long n =>
    rw [isWide_of_fits_long hfits] at hnarrow
    cases hnarrow
  | int n =>
    dsimp only
    split
    · refine ⟨_, _, rfl, ⟨s.heap.objects.size, rfl, ?_⟩, rfl⟩
      show Heap.object (s.heap.allocObject _).1 s.heap.objects.size = _
      simp [Heap.allocObject, Heap.object]
    · exact ⟨_, _, rfl, rfl, rfl⟩
  | object ref | array ref =>
    have htype : field.type ≠ .int := by
      intro htype
      rw [htype] at hfits
      cases hfits
    simp only [if_neg htype]
    exact ⟨_, _, rfl, rfl, rfl⟩

/-- `Field.get` on the handle of a static field whose class is set up gives the value of the field. -/
theorem fieldGet_returns (method : Method) {call : HostCall} (hstatic : field.isStatic = true)
    (hnarrow : field.type.isWide = false) (hname : findClass setup.program c.name = .ok c)
    (hready : s.classStatus c.id ≠ .uninitialized)
    (hhandle : handle call s "field" HostData.field? = .ok (c, field))
    (hvalue : s.static? c.id field.name = some u) (hfits : u.fits field.type = true) :
    ∃ t r, fieldGet.Returns setup method call s t (some r) ∧ Boxes field.type t.heap u r ∧
      t.statics = s.statics := by
  obtain ⟨t, r, hreply, hboxes, hstatics⟩ :=
    replyField_static hstatic hnarrow hvalue hfits call.args
  have hfollow : follow (fieldGet setup.program call s).1 method (fieldGet setup.program call s).2 [] =
      .more ⟨s, .initClass c.name, [.readField method c field call.args]⟩ := by
    simp only [fieldGet, HostMethod.reading, hhandle, bind, Except.bind]
    rfl
  have hresume : step setup ⟨s, .finished none, [.readField method c field call.args]⟩ =
      .more ⟨{ t with calls := t.calls.pop }, .finished (some r), []⟩ := by
    show follow (replyField s c field call.args).1 method (replyField s c field call.args).2 [] = _
    rw [hreply]
    rfl
  exact ⟨_, r, ⟨_, hfollow, .tail (.single (step_ready hname hready)) hresume⟩, hboxes, hstatics⟩

/-! ## Ranges -/

/-- The least and the greatest number of a type that is narrower than the values of a slot. -/
def numberRange? : Descriptor → Option (Int × Int)
  | .boolean => some (0, 255)
  | .byte => some (-128, 127)
  | .char => some (0, 65535)
  | .short => some (-32768, 32767)
  | _ => none

/-- The value is no number outside the range of the type. -/
def InRange (type : Descriptor) : Value → Prop
  | .int n => ∀ low high, numberRange? type = some (low, high) → low ≤ n.toInt ∧ n.toInt ≤ high
  | _ => True

theorem reduce_int_eq_iff {n : Int32} :
    (Value.int n).reduce kind = .int n ↔ kind.reduce n.toInt = n.toInt := by
  rw [Value.reduce, ← truncate_eq, Value.int.injEq, ← toInt_truncate, Int32.toInt_inj]

/-- The remainder of a number is the number itself if that is in the range. -/
theorem remainder_eq_self_iff {type : Descriptor} (haccepts : kind.accepts type = true) (n : Int) :
    kind.reduce n = n ↔ ∀ low high, numberRange? type = some (low, high) → low ≤ n ∧ n ≤ high := by
  have hrange {low high : Int} (h : numberRange? type = some (low, high)) (hiff : kind.reduce n = n ↔
      low ≤ n ∧ n ≤ high) : kind.reduce n = n ↔
        ∀ low high, numberRange? type = some (low, high) → low ≤ n ∧ n ≤ high := by
    simp [h, hiff]
  have hwhole (h : numberRange? type = none) (hself : kind.reduce n = n) : kind.reduce n = n ↔
      ∀ low high, numberRange? type = some (low, high) → low ≤ n ∧ n ≤ high := by
    simp [h, hself]
  cases kind with
  | byte =>
    cases type <;> simp only [AccessKind.accepts, Bool.false_eq_true] at haccepts
    exact hrange rfl (by simp only [AccessKind.reduce, Int.bmod_def]; omega)
  | short =>
    cases type <;> simp only [AccessKind.accepts, Bool.false_eq_true] at haccepts
    exact hrange rfl (by simp only [AccessKind.reduce, Int.bmod_def]; omega)
  | char =>
    cases type <;> simp only [AccessKind.accepts, Bool.false_eq_true] at haccepts
    exact hrange rfl (by simp only [AccessKind.reduce]; omega)
  | boolean =>
    cases type <;> simp only [AccessKind.accepts, Bool.false_eq_true] at haccepts
    exact hrange rfl (by simp only [AccessKind.reduce]; omega)
  | int | wide | object =>
    refine hwhole ?_ rfl
    cases type <;> first | rfl | cases haccepts

/-- An instruction stores the numbers in the range of the type as they are, and no others. -/
theorem reduce_eq_self_iff {type : Descriptor} (haccepts : kind.accepts type = true) :
    v.reduce kind = v ↔ InRange type v := by
  cases v with
  | int n => exact reduce_int_eq_iff.trans (remainder_eq_self_iff haccepts n.toInt)
  | long | object | array => exact iff_of_true rfl trivial

/-! ## Agreement -/

/-- Two stores of a value in a static field that is not wide, from the same state: by `Field.set` on a
handle of the field, and by the instruction for the type of the field from a slot with what the value stands
for. If both come to their ends:

- Through the handle the field gets the value as it is, and by the instruction it gets the value reduced to
  the type. All other static fields have the same values after the two, and but for the static fields, the
  record of calls and debug lines the two states are the same.
- So the two leave the same in the field exactly if the value is in the range of the type.
- After each of them `Field.get` on a handle of the field gives what is in the field, an int in a box. -/
theorem stores_agree_iff (setup : Setup) (hn : setup.natives.Deaf) {s t₁ t₂ : State}
    (hlookup : lookupStaticField setup.program id = .ok (c, field))
    (hnarrow : field.type.isWide = false) {method : Method} {call : HostCall}
    (hhandle : handle call s "field" HostData.field? = .ok (c, field)) (harg : call.arg 1 = .ok v)
    (hu : Unboxes s.heap field.type v u) (hset : fieldSet.Returns setup method call s t₁ value?)
    (hi : f.code.instructions[f.pc]? = some (.staticPut kind src id)) (hread : f.read src = .ok u)
    (hput : Executes setup ⟨s, .run f, waiting⟩ (.more ⟨t₂, .run f', waiting⟩)) :
    t₁.static? c.id field.name = some u ∧ t₂.static? c.id field.name = some (u.reduce kind) ∧
    (∀ id name, ¬ (id = c.id ∧ name = field.name) → t₁.static? id name = t₂.static? id name) ∧
    { t₁ with statics := t₂.statics, calls := t₂.calls }.quiet = t₂.quiet ∧
    (t₁.static? c.id field.name = t₂.static? c.id field.name ↔ InRange field.type u) ∧
    ∀ t w, t = t₁ ∨ t = t₂ → t.static? c.id field.name = some w →
      ∀ method call, handle call t "field" HostData.field? = .ok (c, field) →
        ∃ t' r, fieldGet.Returns setup method call t t' (some r) ∧ Boxes field.type t'.heap w r ∧
          t'.statics = t.statics := by
  obtain ⟨hc, -, hstatic⟩ := lookupStaticField_ok hlookup
  have hname : c.name = id.className := by simpa using Array.find?_some (findClass_ok hc)
  obtain ⟨-, hfits, s₁, ready?, hinit₁, ht₁⟩ := fieldSet_returns hstatic hhandle harg hu hset
  obtain ⟨line, s₂, hinit₂, hready, haccepts, hfits', ht₂⟩ :=
    staticPut_executes hlookup hnarrow hi hread hput
  -- the class is set up from states that differ in a debug line only
  have hsplit : Snapshot.split ⟨s.log .trace line, .initClass id.className, []⟩ =
      Snapshot.split ⟨s, .initClass c.name, []⟩ := by
    rw [Snapshot.split, Snapshot.split, State.quiet_log_trace, hname]
  obtain ⟨hquiet, -⟩ := quiet_of_reaches hn hsplit hinit₂ hinit₁
  obtain ⟨journal, rfl⟩ : ∃ journal, s₁ = { s₂ with journal } := ⟨_, eq_of_quiet hquiet⟩
  have hvalue₁ (id' : Nat) (name : String) : t₁.static? id' name =
      if id' = c.id ∧ name = field.name then some u else s₂.static? id' name := by
    rw [ht₁]
    exact static?_setStatic s₂ c.id id' field.name name u
  have hvalue₂ (id' : Nat) (name : String) : t₂.static? id' name =
      if id' = c.id ∧ name = field.name then some (u.reduce kind) else s₂.static? id' name := by
    rw [ht₂, static?_setStatic]
  have hput₁ : t₁.static? c.id field.name = some u := by rw [hvalue₁, if_pos ⟨rfl, rfl⟩]
  have hput₂ : t₂.static? c.id field.name = some (u.reduce kind) := by rw [hvalue₂, if_pos ⟨rfl, rfl⟩]
  refine ⟨hput₁, hput₂, ?_, ?_, ?_, ?_⟩
  · intro id' name hother
    rw [hvalue₁, hvalue₂, if_neg hother, if_neg hother]
  · rw [ht₁, ht₂]
    exact congrArg (fun t : State => t.setStatic c.id field.name (u.reduce kind)) hquiet
  · rw [hput₁, hput₂, Option.some.injEq, eq_comm, reduce_eq_self_iff haccepts]
  · intro t w ht hw method call hhandle
    obtain ⟨c', hc', hstatus⟩ := hready
    obtain rfl := Except.ok.inj (hc.symm.trans hc')
    rw [← hname] at hc
    cases ht with
    | inl ht =>
      subst ht
      obtain rfl := Option.some.inj (hput₁.symm.trans hw)
      exact fieldGet_returns method hstatic hnarrow hc (by rw [ht₁]; exact hstatus) hhandle hw hfits
    | inr ht =>
      subst ht
      obtain rfl := Option.some.inj (hput₂.symm.trans hw)
      exact fieldGet_returns method hstatic hnarrow hc (by rw [ht₂]; exact hstatus) hhandle hw hfits'

namespace Narrowing

/-- The class of the field. -/
def cell : LoadedClass :=
  { flags := .ofWords [], name := "LCell;", fields := ⟨[("low", low)]⟩, id := 0, superId? := none }

/-- There is a handle of the field, and the class has to be set up. -/
def handled : State where
  heap := { objects := #[⟨"Ljava/lang/reflect/Field;", .host { field? := some (cell, low) }⟩] }

/-- The class has been set up and the field has a value. -/
def filled (v : Value) : State :=
  (handled.installStatics 0 ⟨[("low", v)]⟩).setClassStatus 0 .initialized

/-- `Field.set` on the handle, with a number that is no byte. -/
def setCall : HostCall :=
  ⟨some (.object 0), [.int 0, .int 200], 1⟩

/-- The instruction that stores the number. -/
def store : Instruction :=
  .staticPut .byte (.register 0) ⟨"LCell;", "low", .byte⟩

end Narrowing

open Narrowing in
/-- The number is kept as it is in a field for bytes and comes back; the instruction stores what is left of
it. -/
theorem number_kept_in_byte :
    fieldSet.Returns machine (method store) setCall handled (filled (.int 200)) none ∧
    Executes machine ⟨handled, .run (frame store), []⟩
      (.more ⟨filled (.int (-56)), .run { frame store with pc := 1 }, []⟩) ∧
    ¬ InRange .byte (.int 200) ∧
    (filled (.int 200)).static? 0 "low" ≠ (filled (.int (-56))).static? 0 "low" ∧
    ∃ t, fieldGet.Returns machine (method store) setCall (filled (.int 200)) t (some (.int 200)) := by
  have hset : fieldSet.Returns machine (method store) setCall handled (filled (.int 200)) none :=
    ⟨⟨handled, .initClass "LCell;", [.writeField (method store) cell low [.int 0, .int 200] (.int 200)]⟩,
      by decide, .tail (.single (b := ⟨filled (.int 0), .finished none,
        [.writeField (method store) cell low [.int 0, .int 200] (.int 200)]⟩) (by decide)) (by decide)⟩
  have hput : Executes machine ⟨handled, .run (frame store), []⟩
      (.more ⟨filled (.int (-56)), .run { frame store with pc := 1 }, []⟩) := by
    refine ⟨⟨filled (.int 0), .finished none, [.access (frame store) store]⟩,
      .tail (.single (b := ⟨handled, .initClass "LCell;", [.access (frame store) store]⟩)
        ⟨by decide, by decide⟩) ⟨by decide, by decide⟩, by decide, fun m' hm' => ?_⟩
    obtain rfl := Progress.more.inj hm'
    exact Nat.le_refl _
  have hself : Unboxes handled.heap low.type (.int 200) (.int 200) := .self fun htype => by cases htype
  have hhandle : handle setCall handled "field" HostData.field? = .ok (cell, low) := by decide
  obtain ⟨hkept, -, -, -, hiff, hget⟩ := stores_agree_iff machine standard_deaf (by decide) rfl hhandle
    rfl hself hset rfl rfl hput
  have hrange : ¬ InRange .byte (.int 200) := fun hin => absurd (hin (-128) 127 rfl).2 (by decide)
  obtain ⟨t, r, hreturns, hboxes, -⟩ :=
    hget _ (.int 200) (.inl rfl) hkept (method store) setCall (by decide)
  obtain rfl : r = .int 200 := by simpa [Boxes, low] using hboxes
  exact ⟨hset, hput, hrange, fun hsame => hrange (hiff.1 hsame), t, hreturns⟩

/-- A class that stores a number in a field for bytes and reads the field again, by instructions and through
a handle. -/
def putSource : String := "
.class LPut;
.field static b:B
.method static direct(I)I
    .registers 1
    sput-byte p0, LPut;->b:B
    sget-byte v0, LPut;->b:B
    return v0
.end method
.method static reflect(I)I
    .registers 2
    const-string v0, \"Put\"
    invoke-static \x7bv0\x7d, Ljava/lang/Class;->forName(Ljava/lang/String;)Ljava/lang/Class;
    move-result-object v0
    const-string v1, \"b\"
    invoke-virtual \x7bv0, v1\x7d, Ljava/lang/Class;->getDeclaredField(Ljava/lang/String;)Ljava/lang/reflect/Field;
    move-result-object v0
    const v1, 0
    invoke-virtual \x7bv0, v1, p0\x7d, Ljava/lang/reflect/Field;->set(Ljava/lang/Object;Ljava/lang/Object;)V
    sget-byte v0, LPut;->b:B
    return v0
.end method
"

/-- What a method of the class returns when it is called with a number. -/
def putValue (p : Program) (name : String) (n : Int32) : Option Value := do
  let method ← p.findMethod? ⟨"LPut;", name, [.int], .int⟩
  (← (invoke { program := p } 60 {} method none [.int n]).returned?).2

set_option maxRecDepth 10000 in
theorem putValue_putSource : (loadProgram [putSource]).toOption.map (fun p =>
    (putValue p "direct" 300, putValue p "reflect" 300)) = some (some (.int 44), some (.int 300)) := by
  rw [loadProgram_ofTexts (show [putSource] = List.map String.ofList [_] from rfl)]
  decide +kernel

theorem returned_of_putValue {p : Program} {name : String} {n : Int32} {v : Value}
    (h : putValue p name n = some v) :
    ∃ method t, p.findMethod? ⟨"LPut;", name, [.int], .int⟩ = some method ∧
      invoke { program := p } 60 {} method none [.int n] = .returned t (some v) := by
  obtain ⟨method, hmethod, h⟩ := Option.bind_eq_some_iff.1 h
  obtain ⟨⟨t, value?⟩, hreturned, h⟩ := Option.bind_eq_some_iff.1 h
  obtain rfl : value? = some v := h
  exact ⟨method, t, hmethod, eq_returned_of_returned? hreturned⟩

/-- The same number is stored in the same field of a fresh machine, and another number is read. -/
theorem handle_stores_more : ∃ p direct reflect t t', loadProgram [putSource] = .ok p ∧
    p.findMethod? ⟨"LPut;", "direct", [.int], .int⟩ = some direct ∧
    p.findMethod? ⟨"LPut;", "reflect", [.int], .int⟩ = some reflect ∧
    invoke { program := p } 60 {} direct none [.int 300] = .returned t (some (.int 44)) ∧
    invoke { program := p } 60 {} reflect none [.int 300] = .returned t' (some (.int 300)) := by
  obtain ⟨p, hp, hvalues⟩ := Option.map_eq_some_iff.1 putValue_putSource
  obtain ⟨hdirect, hreflect⟩ := Prod.mk.inj hvalues
  obtain ⟨direct, t, hdirect, hreturned⟩ := returned_of_putValue hdirect
  obtain ⟨reflect, t', hreflect, hreturned'⟩ := returned_of_putValue hreflect
  exact ⟨p, direct, reflect, t, t', ok_of_toOption hp, hdirect, hreflect, hreturned, hreturned'⟩

end Smali.Machine
