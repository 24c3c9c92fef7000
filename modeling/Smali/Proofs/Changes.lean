import Mathlib.Logic.Relation
import Smali.Machine.Step
import Smali.Proofs.Elements

/-!
# What instructions and host methods change

Instructions and host methods change the state in a few ways only: they write the journal, put things on
the heap, write fields, elements and static fields, and lock references. `Change` lists these ways, and
`Changes` is any number of them. None touches the calls in progress, the status of a class or the value of
the call that returned last; a handle of the host is made from the program or from another handle, and what
is written into an array suits its element type. Which static fields are written, which arrays are made and
which strings get another text is limited by an `Allowance`.

What a host method replies with is of a few kinds too (`Reply.From`): a method to call and a field to touch
come out of a handle on the heap.

## Key results

- `exec_changes`, `access_changes`: instructions make such changes only
- `standard_regular`: so do the host methods of the standard library, and their replies are of the kinds
- `Changes.calls_eq`, `Changes.status_eq`, `Changes.lastReturn?_eq`: what is left alone
-/

namespace Smali

/-- The key under which the host keeps the method. -/
def Method.hostKey (m : Method) : String :=
  Machine.Natives.key m.className m.name (Descriptor.listText m.params)

namespace Machine

/-! ## Handles on the heap -/

/-- Some host object holds the data. -/
def Heap.Holds (h : Heap) (d : HostData) : Prop :=
  ∃ o ∈ h.objects, o.body = .host d

/-- The handles in the data are made from the program or from the class handles of a heap. -/
structure HostData.From (p : Program) (h : Heap) (d : HostData) : Prop where
  ofClass : ∀ c, d.class? = some c → c ∈ p.classes
  ofMethod : ∀ m, d.method? = some m → ∃ d' c, h.Holds d' ∧ d'.class? = some c ∧ m ∈ c.methods
  ofField : ∀ c f, d.field? = some (c, f) →
    ∃ d', h.Holds d' ∧ d'.class? = some c ∧ f ∈ c.fields.values

/-- Data without handles. -/
theorem HostData.From.of_none {p : Program} {h : Heap} {d : HostData} (hc : d.class? = none)
    (hm : d.method? = none) (hf : d.field? = none) : d.From p h := by
  constructor <;> simp [hc, hm, hf]

/-! ## Changes -/

/-- What changes may do that not all of them may. -/
structure Allowance where
  /-- The static fields that may be written, and the values that may be written there. -/
  static : LoadedClass → Field → Value → Prop := fun _ _ _ => False
  /-- The arrays that may be made, by element type and values. -/
  array : Descriptor → Array Value → Prop := fun _ _ => False
  /-- The host objects whose text may be replaced. -/
  contents : Nat → Prop := fun _ => False

/-- What the one allows, the other allows. -/
structure Allowance.Within (W W' : Allowance) : Prop where
  static : ∀ c f v, W.static c f v → W'.static c f v
  array : ∀ type values, W.array type values → W'.array type values
  contents : ∀ ref, W.contents ref → W'.contents ref

/-- One change of the state. -/
inductive Change (p : Program) (W : Allowance) : State → State → Prop
  | log (s : State) (level : Level) (message : Unit → String) : Change p W s (s.log level message)
  | newInstance (s : State) (className : String) :
    Change p W s (s.allocObject ⟨className, .fields {}⟩).1
  | newHost (s : State) (className : String) (d : HostData) (h : d.From p s.heap) :
    Change p W s (s.allocHost className d).1
  | newArray (s : State) (elementType : Descriptor) (values : Array Value)
    (h : W.array elementType values) : Change p W s (s.allocArray elementType values).1
  | intern (s : State) (text : String) : Change p W s (s.intern text).1
  | setField (s : State) (ref : Nat) (name : String) (v : Value) (heap : Heap)
    (h : s.heap.setField ref name v = .ok heap) : Change p W s { s with heap }
  | setContents (s : State) (ref : Nat) (text : String) (heap : Heap)
    (h : s.heap.setHostData ref (fun d => { d with contents? := some text }) = .ok heap)
    (href : W.contents ref) : Change p W s { s with heap }
  | setElement (s : State) (ref : Nat) (index : Int) (v : Value) (heap : Heap)
    (h : s.heap.setElement ref index v = .ok heap)
    (hv : ∀ a, s.heap.array ref = .ok a → v.suits a.elementType = true) :
    Change p W s { s with heap }
  | setStatic (s : State) (c : LoadedClass) (f : Field) (v : Value) (h : W.static c f v) :
    Change p W s (s.setStatic c.id f.name v)
  | lock (s s' : State) (v : Value) (h : s.lock v = .ok s') : Change p W s s'
  | unlock (s s' : State) (v : Value) (h : s.unlock v = .ok s') : Change p W s s'

/-- No static field is written, no array is made, and no text is replaced. -/
def noWrite : Allowance := {}

/-- Any number of changes. -/
abbrev Changes (p : Program) (W : Allowance) : State → State → Prop :=
  Relation.ReflTransGen (Change p W)

variable {p : Program} {W W' : Allowance} {s s' : State}

/-- What one change keeps, any number of changes keeps. -/
theorem Changes.preserves {P : State → Prop} (hstep : ∀ s s', Change p W s s' → P s → P s')
    (h : Changes p W s s') (hs : P s) : P s' := by
  -- the induction is on the changes, the last one taken off
  induction h with
  | refl => exact hs
  | tail _ hc ih => exact hstep _ _ hc ih

/-- A change stays one if more is allowed. -/
theorem Change.mono (hW : W.Within W') (h : Change p W s s') : Change p W' s s' := by
  cases h with
  | log level message => exact .log s level message
  | newInstance className => exact .newInstance s className
  | newHost className d h => exact .newHost s className d h
  | newArray elementType values h => exact .newArray s elementType values (hW.array _ _ h)
  | intern text => exact .intern s text
  | setField ref name v heap h => exact .setField s ref name v heap h
  | setContents ref text heap h href => exact .setContents s ref text heap h (hW.contents ref href)
  | setElement ref index v heap h hv => exact .setElement s ref index v heap h hv
  | setStatic c f v h => exact .setStatic s c f v (hW.static c f v h)
  | lock _ v h => exact .lock s s' v h
  | unlock _ v h => exact .unlock s s' v h

/-- Changes stay changes if more is allowed. -/
theorem Changes.mono (h : Changes p W s s') (hW : W.Within W') : Changes p W' s s' :=
  h.lift id fun _ _ => Change.mono hW

/-- What is allowed nowhere is allowed everywhere. -/
theorem noWrite_within : noWrite.Within W :=
  ⟨fun _ _ _ => False.elim, fun _ _ => False.elim, fun _ => False.elim⟩

/-! ## What is left alone -/

/-- Interning a literal leaves the calls, the status of the classes and the static fields alone. -/
theorem intern_fields (s : State) (text : String) :
    (s.intern text).1.calls = s.calls ∧ (s.intern text).1.status = s.status ∧
      (s.intern text).1.statics = s.statics := by
  unfold State.intern
  split <;> exact ⟨rfl, rfl, rfl⟩

/-- Locking leaves all of these and the heap alone. -/
theorem lock_fields {v : Value} (h : s.lock v = .ok s') :
    s'.calls = s.calls ∧ s'.status = s.status ∧ s'.statics = s.statics ∧ s'.heap = s.heap := by
  unfold State.lock at h
  split at h
  · cases h
  · obtain rfl := Except.ok.inj h
    exact ⟨rfl, rfl, rfl, rfl⟩

/-- So does unlocking. -/
theorem unlock_fields {v : Value} (h : s.unlock v = .ok s') :
    s'.calls = s.calls ∧ s'.status = s.status ∧ s'.statics = s.statics ∧ s'.heap = s.heap := by
  unfold State.unlock at h
  split at h
  · obtain rfl := Except.ok.inj h
    exact ⟨rfl, rfl, rfl, rfl⟩
  · cases h

/-- A change leaves the calls in progress and the status of the classes alone. -/
theorem Change.calls_status (h : Change p W s s') : s'.calls = s.calls ∧ s'.status = s.status := by
  cases h with
  | log | newInstance | newHost | newArray | setField | setContents | setElement | setStatic =>
    exact ⟨rfl, rfl⟩
  | intern text => exact ⟨(intern_fields s text).1, (intern_fields s text).2.1⟩
  | lock _ v h => exact ⟨(lock_fields h).1, (lock_fields h).2.1⟩
  | unlock _ v h => exact ⟨(unlock_fields h).1, (unlock_fields h).2.1⟩

/-- Changes leave the calls in progress alone. -/
theorem Changes.calls_eq (h : Changes p W s s') : s'.calls = s.calls := by
  induction h with
  | refl => rfl
  | tail _ hc ih => exact hc.calls_status.1.trans ih

/-- Changes leave the status of the classes alone. -/
theorem Changes.status_eq (h : Changes p W s s') : s'.status = s.status := by
  induction h with
  | refl => rfl
  | tail _ hc ih => exact hc.calls_status.2.trans ih

/-- A change leaves the value of the call that returned last alone. -/
theorem Change.lastReturn?_eq (h : Change p W s s') : s'.lastReturn? = s.lastReturn? := by
  cases h with
  | log | newInstance | newHost | newArray | setField | setContents | setElement | setStatic => rfl
  | intern text =>
    unfold State.intern
    split <;> rfl
  | lock _ v h =>
    unfold State.lock at h
    split at h
    · cases h
    · rw [← Except.ok.inj h]
  | unlock _ v h =>
    unfold State.unlock at h
    split at h
    · rw [← Except.ok.inj h]
    · cases h

/-- Changes leave the value of the call that returned last alone. -/
theorem Changes.lastReturn?_eq (h : Changes p W s s') : s'.lastReturn? = s.lastReturn? := by
  induction h with
  | refl => rfl
  | tail _ hc ih => exact hc.lastReturn?_eq.trans ih

/-! ## Instructions -/

/-- The static field that an instruction writes once its class is set up. -/
def Writes (p : Program) (i : Instruction) : Allowance where
  static c f v := ∃ kind src id, i = .staticPut kind src id ∧ lookupStaticField p id = .ok (c, f) ∧
    v.fits f.type = true

/-- The array that an instruction makes. Its values suit the element type, which can only fail for void, a
type without values, and its length is a 32-bit integer. -/
def Makes (i : Instruction) : Allowance where
  array type values := (∃ dest length, i = .newArray dest length (.array type)) ∧
    (type ≠ .void → ∀ v ∈ values, v.suits type = true) ∧
    (values.size : Int) ≤ Int32.maxValue.toInt

/-- The value of what nobody has written is there, or it is the empty string, which is interned. -/
theorem defaultValue_changes (s : State) (type : Descriptor) :
    Changes p W s (s.defaultValue type).1 := by
  unfold State.defaultValue
  split
  · exact .single (.intern s "")
  · exact .refl

/-- An attempt that fails changes nothing. -/
theorem attempt_changes {r : Except Fault α} {k : α → State × Except Fault Flow}
    (hk : ∀ a, r = .ok a → Changes p W s (k a).1) : Changes p W s (attempt s r k).1 := by
  cases r with
  | error e => exact .refl
  | ok a => exact hk a rfl

/-- What a new array is filled with; an empty array needs no value for its elements. -/
theorem suits_replicate (s : State) {type : Descriptor} (htype : type ≠ .void) {n : Int32}
    {v : Value} (hv : v ∈ Array.replicate n.toInt.toNat
      (if n.toInt = 0 then (s, .int 0) else s.defaultValue type).2) : v.suits type = true := by
  obtain ⟨hn, rfl⟩ := Array.mem_replicate.1 hv
  have hn : n.toInt ≠ 0 := by omega
  rw [if_neg hn]
  exact suits_defaultValue s htype

/-- A new array is put on the heap, after its first value may have been interned. -/
theorem newArray_changes (s : State) (f : Frame) (dest length : Slot) (type : Descriptor) :
    Changes p (Makes (.newArray dest length type)) s (newArray s f dest length type).1 := by
  refine attempt_changes fun n _ => ?_
  split
  · exact .refl
  · split
    · exact .refl
    · next element helement =>
      -- only an array type has elements
      obtain rfl : type = .array element := by
        cases type with
        | array element' => exact congrArg Descriptor.array (Option.some.inj helement)
        | _ => cases helement
      have hmakes : (Makes (.newArray dest length (.array element))).array element
          (Array.replicate n.toInt.toNat
            (if n.toInt = 0 then (s, .int 0) else s.defaultValue element).2) := by
        refine ⟨⟨dest, length, rfl⟩, fun htype v hv => suits_replicate s htype hv, ?_⟩
        have hlength : n.toInt ≤ Int32.maxValue.toInt := Int32.toInt_le n
        rw [Array.size_replicate]
        omega
      -- the array is made in the state in which its first value is known
      refine .tail (b := (if n.toInt = 0 then (s, .int 0) else s.defaultValue element).1) ?_
        (.newArray _ element _ hmakes)
      split
      · exact .refl
      · exact defaultValue_changes s element

/-- A new object is an instance with no field written, or a host object with no handle. -/
theorem newObject_changes (p : Program) (s : State) (className : String) :
    Changes p W s (newObject p s className).1 := by
  unfold newObject
  split
  · exact .refl
  · next c _ =>
    dsimp only
    -- an instance of a host class holds host data, which is empty at first
    split
    · exact .single (.newHost s c.name {} (.of_none rfl rfl rfl))
    · exact .single (.newInstance s c.name)

/-- A call changes nothing but the journal. -/
theorem dispatch_changes (p : Program) (s : State) (f : Frame) (kind : InvokeKind) (args : List Slot)
    (id : MethodId) : Changes p W s (dispatch p s f kind args id).1 := by
  refine attempt_changes fun values _ => ?_
  cases kind with
  | static => exact attempt_changes fun m _ => .refl
  | direct => exact attempt_changes fun m _ => .refl
  | virtual =>
    refine attempt_changes fun c _ => ?_
    split
    · exact .single (.log s _ _)
    · exact .refl
    · exact .refl

/-- The static field that an accessor touches is the one that is looked up. -/
theorem lookup_of_staticField {kind : AccessKind} {id : FieldId} {c : LoadedClass} {f : Field}
    (h : staticField p kind id = .ok (c, f)) : lookupStaticField p id = .ok (c, f) := by
  obtain ⟨⟨c', f'⟩, hplace, h⟩ := bind_eq_ok.1 h
  obtain ⟨_, _, h⟩ := bind_eq_ok.1 h
  obtain ⟨rfl, rfl⟩ := Prod.mk.inj (Except.ok.inj h)
  exact hplace

/-- A value that passes the check fits. -/
theorem fits_of_checkFits {h : Heap} {v : Value} {type : Descriptor} {u : Unit}
    (hfits : checkFits h v type = .ok u) : v.fits type = true := by
  unfold checkFits at hfits
  split at hfits
  · assumption
  · cases hfits

/-- What is written into an array suits its element type. -/
theorem arrayPut_ok {h heap : Heap} {f : Frame} {kind : AccessKind} {src array index : Slot}
    (hput : arrayPut h f kind src array index = .ok heap) :
    ∃ r i v, h.setElement r i v = .ok heap ∧
      ∀ a, h.array r = .ok a → v.suits a.elementType = true := by
  obtain ⟨_, _, hput⟩ := bind_eq_ok.1 hput
  obtain ⟨r, _, hput⟩ := bind_eq_ok.1 hput
  obtain ⟨i, _, hput⟩ := bind_eq_ok.1 hput
  obtain ⟨a, ha, hput⟩ := bind_eq_ok.1 hput
  split at hput
  · next haccepts =>
    obtain ⟨v, hv, hput⟩ := bind_eq_ok.1 hput
    obtain ⟨_, hfits, hput⟩ := bind_eq_ok.1 hput
    refine ⟨r, i.toInt, v, hput, fun a' ha' => ?_⟩
    -- the array in which the value was checked is the one that is written
    obtain rfl := Except.ok.inj (ha.symm.trans ha')
    exact suits_of_readAccess hv haccepts (fits_of_checkFits hfits)
  · cases hput

/-- The state after an instruction comes about by changes of the listed kinds. -/
theorem exec_changes (p : Program) (s : State) (f : Frame) (i : Instruction) :
    Changes p (Makes i) s (exec p s f i).1 := by
  -- the instructions that are not listed leave the state as it is
  cases i with
  | constString dest text => exact .single (.intern s text)
  | moveResult kind dest =>
    simp only [exec]
    split <;> exact .refl
  | invoke kind args id => exact dispatch_changes p s f kind args id
  | newArray dest length type => exact newArray_changes s f dest length type
  | arrayPut kind src array index =>
    refine attempt_changes fun heap h => ?_
    obtain ⟨r, i, v, h, hv⟩ := arrayPut_ok h
    exact .single (.setElement s r i v heap h hv)
  | newInstance dest className =>
    simp only [exec]
    -- the object is put on the heap even if the slot then cannot be written
    have h := newObject_changes (W := Makes (.newInstance dest className)) p s className
    split
    · next s' r hr => exact (congrArg Prod.fst hr) ▸ h
    · next s' e he => exact (congrArg Prod.fst he) ▸ h
  | monitorEnter slot =>
    refine attempt_changes fun s' h => ?_
    obtain ⟨_, _, h⟩ := bind_eq_ok.1 h
    obtain ⟨v, _, h⟩ := bind_eq_ok.1 h
    exact .single (.lock s s' v h)
  | monitorExit slot =>
    refine attempt_changes fun s' h => ?_
    obtain ⟨_, _, h⟩ := bind_eq_ok.1 h
    obtain ⟨v, _, h⟩ := bind_eq_ok.1 h
    exact .single (.unlock s s' v h)
  | _ => exact .refl

/-- The second half of a field access writes no static field but the one that the instruction names. -/
theorem access_changes (p : Program) (s : State) (f : Frame) (i : Instruction) :
    Changes p (Writes p i) s (access p s f i).1 := by
  unfold access
  split
  · exact .refl
  · refine attempt_changes fun s' h => ?_
    obtain ⟨⟨c, field⟩, hc, h⟩ := bind_eq_ok.1 h
    obtain ⟨v, _, h⟩ := bind_eq_ok.1 h
    obtain ⟨_, hfits, h⟩ := bind_eq_ok.1 h
    obtain rfl := Except.ok.inj h
    exact .single (.setStatic s c field v
      ⟨_, _, _, rfl, lookup_of_staticField hc, fits_of_checkFits hfits⟩)
  · split
    -- a field that was never written has the first value of its type, for which a string may be needed
    · refine attempt_changes fun fields _ => ?_
      dsimp only
      split
      · exact .refl
      · exact defaultValue_changes s _
    · exact .refl
    · exact .refl
  · split
    · refine attempt_changes fun heap h => ?_
      obtain ⟨_, _, h⟩ := bind_eq_ok.1 h
      obtain ⟨r, _, h⟩ := bind_eq_ok.1 h
      obtain ⟨v, _, h⟩ := bind_eq_ok.1 h
      obtain ⟨_, _, h⟩ := bind_eq_ok.1 h
      exact .single (.setField s r _ v heap h)
    · exact .refl
    · exact .refl
  · exact .refl

/-! ## Class set-up -/

/-- The first value of a static field is known, or it is a string that is interned. -/
theorem initialValue_changes (s : State) (f : Field) : Changes p W s (s.initialValue f).1 := by
  unfold State.initialValue
  split
  · next c _ =>
    -- only a text has to be interned
    cases c with
    | string text => exact .single (.intern s text)
    | _ => exact .refl
  · exact defaultValue_changes s f.type

/-- The first values of static fields are known, or they are strings that are interned. -/
theorem initialStatics_changes (s : State) (fields : List Field) :
    Changes p W s (s.initialStatics fields).1 := by
  unfold State.initialStatics
  -- the table that is built plays no part in the states
  generalize ({} : Table String Value) = table
  induction fields generalizing s table with
  | nil => exact .refl
  | cons f rest ih =>
    rw [List.foldl_cons]
    exact (initialValue_changes s f).trans (ih _ _)

/-! ## Host methods -/

/-- What a host method may reply with when it is called with a heap: methods and fields come out of
handles there, and a value to be written fits its field. -/
inductive Reply.From (h : Heap) : Reply → Prop
  | finish (value? : Option Value) : Reply.From h (.finish value?)
  | fail (e : Fault) (he : e.isControl = false) : Reply.From h (.fail e)
  | call (m : Method) (receiver? : Option Value) (args : List Value) (d : HostData)
    (hd : h.Holds d) (hm : d.method? = some m) : Reply.From h (.call m receiver? args)
  | readField (owner : LoadedClass) (field : Field) (args : List Value) (d : HostData)
    (hd : h.Holds d) (hf : d.field? = some (owner, field)) :
    Reply.From h (.readField owner field args)
  | writeField (owner : LoadedClass) (field : Field) (args : List Value) (v : Value) (d : HostData)
    (hd : h.Holds d) (hf : d.field? = some (owner, field)) (hv : v.fits field.type = true) :
    Reply.From h (.writeField owner field args v)

/-- The key of the constructor that gives a string its text. -/
def stringConstructor : String :=
  Natives.key stringClass "<init>" "[III"

/-- The host method under a key may replace the text of its receiver, if it is the constructor of strings
and does not fail. -/
def Constructs (key : String) (receiver? : Option Value) (reply : Reply) : Allowance where
  contents ref := key = stringConstructor ∧ receiver? = some (.object ref) ∧ reply = .finish none

/-- A host method that makes changes of the listed kinds only, writes no static field, replaces no text
unless it is registered as the constructor of strings, and replies with what it may. -/
def HostMethod.Regular (host : HostMethod) (key : String) : Prop :=
  ∀ (p : Program) (call : HostCall) (s : State),
    Changes p (Constructs key call.receiver? (host p call s).2) s (host p call s).1 ∧
      Reply.From s.heap (host p call s).2

variable {key : String}

/-- A host method that leaves the state alone is regular if its replies are of the kinds. -/
theorem regular_reading {g : Program → HostCall → State → Except Fault Reply}
    (hplain : ∀ p call s, Plain (g p call s))
    (hreply : ∀ p call s reply, g p call s = .ok reply → Reply.From s.heap reply) :
    (HostMethod.reading g).Regular key := by
  intro p call s
  refine ⟨.refl, ?_⟩
  unfold HostMethod.reading Reply.ofExcept
  dsimp only
  split
  · next reply h => exact hreply p call s reply h
  · next e h => exact .fail e (hplain p call s e h)

/-- A host method that changes the state is regular if its changes and its replies are of the kinds. -/
theorem regular_writing {g : Program → HostCall → State → Except Fault (State × Reply)}
    (hplain : ∀ p call s, Plain (g p call s))
    (hresult : ∀ p call s result, g p call s = .ok result →
      Changes p (Constructs key call.receiver? result.2) s result.1 ∧ Reply.From s.heap result.2) :
    (HostMethod.writing g).Regular key := by
  intro p call s
  unfold HostMethod.writing
  split
  · next result h => exact hresult p call s result h
  · next e h => exact ⟨.refl, .fail e (hplain p call s e h)⟩

namespace HostCall

/-- A missing receiver is a mismatch. -/
@[simp] theorem plain_receiver (call : HostCall) : Plain call.receiver := by
  unfold receiver
  split <;> simp

/-- A missing argument is a mismatch. -/
@[simp] theorem plain_arg (call : HostCall) (index : Nat) : Plain (call.arg index) := by
  unfold arg
  split <;> simp

end HostCall

/-- Reading the text of the receiver is no matter of control. -/
@[simp] theorem plain_receiverText (call : HostCall) (s : State) : Plain (receiverText call s) := by
  simp [receiverText]

/-- Nor is reading what a handle stands for. -/
@[simp] theorem plain_handle (call : HostCall) (s : State) (key : String)
    (get : HostData → Option α) : Plain (handle call s key get) := by
  simp [handle]

/-- Nor is taking a number out of its box. -/
@[simp] theorem plain_unbox (h : Heap) (v : Value) (type : Descriptor) : Plain (unbox h v type) := by
  cases v <;> simp [unbox]

/-- Nor is reading code points from an array. -/
@[simp] theorem plain_codePoints (a : ArrayObject) (count : Nat) (index : Int) :
    Plain (codePoints a count index) := by
  -- the induction is on the elements still to be read
  induction count generalizing index with
  | zero => exact plain_ok _
  | succ count ih => simp [codePoints, codePointAt, ih]

/-- An object that is found stands at its reference. -/
theorem object_ok {h : Heap} {ref : Nat} {o : Object} (ho : h.object ref = .ok o) :
    h.objects[ref]? = some o := by
  unfold Heap.object at ho
  split at ho
  · next hfound => rw [hfound, Except.ok.inj ho]
  · cases ho

/-- The data of a host object that is found is held by the heap. -/
theorem holds_of_object {h : Heap} {ref : Nat} {o : Object} {d : HostData} (ho : h.object ref = .ok o)
    (hd : o.hostData = .ok d) : h.Holds d := by
  unfold Object.hostData at hd
  split at hd
  · next data hbody =>
    obtain rfl := Except.ok.inj hd
    exact ⟨o, Array.mem_of_getElem? (object_ok ho), hbody⟩
  · cases hd

/-- What a handle stands for is held by a host object. -/
theorem handle_ok {call : HostCall} {key : String} {get : HostData → Option α} {a : α}
    (h : handle call s key get = .ok a) : ∃ d, s.heap.Holds d ∧ get d = some a := by
  obtain ⟨ref, _, h⟩ := bind_eq_ok.1 h
  obtain ⟨o, ho, h⟩ := bind_eq_ok.1 h
  obtain ⟨d, hd, h⟩ := bind_eq_ok.1 h
  split at h
  · next a' ha =>
    obtain rfl := Except.ok.inj h
    exact ⟨d, holds_of_object ho hd, ha⟩
  · cases h

/-! ### One by one -/

/-- A receiver that is accepted is an object. -/
theorem receiver_ok {call : HostCall} {ref : Nat} (h : call.receiver = .ok ref) :
    call.receiver? = some (.object ref) := by
  unfold HostCall.receiver at h
  split at h
  · next v hv =>
    cases v with
    | object r => rw [hv, Except.ok.inj h]
    | int | long | array => cases h
  · cases h

/-- The constructor of strings replaces the text of its receiver, and nothing else. -/
theorem regular_stringInit :
    stringInit.Regular (Natives.key "Ljava/lang/String;" "<init>" "[III") := by
  refine regular_writing (by simp) fun p call s result h => ?_
  -- receiver, array, offset and count come first, then the text is made and stored
  obtain ⟨this, hthis, h⟩ := bind_eq_ok.1 h
  obtain ⟨_, _, h⟩ := bind_eq_ok.1 h
  obtain ⟨_, _, h⟩ := bind_eq_ok.1 h
  obtain ⟨array, _, h⟩ := bind_eq_ok.1 h
  obtain ⟨_, _, h⟩ := bind_eq_ok.1 h
  obtain ⟨offset, _, h⟩ := bind_eq_ok.1 h
  obtain ⟨_, _, h⟩ := bind_eq_ok.1 h
  obtain ⟨count, _, h⟩ := bind_eq_ok.1 h
  obtain ⟨text, _, h⟩ := bind_eq_ok.1 h
  obtain ⟨heap, hheap, h⟩ := bind_eq_ok.1 h
  obtain rfl := Except.ok.inj h
  exact ⟨.single (.setContents s this (String.ofList text) heap hheap ⟨rfl, receiver_ok hthis, rfl⟩),
    .finish none⟩

/-- `String.length()` replies with a number. -/
theorem regular_stringLength : stringLength.Regular key := by
  refine regular_reading (by simp) fun p call s reply h => ?_
  obtain ⟨text, _, h⟩ := bind_eq_ok.1 h
  obtain rfl := Except.ok.inj h
  exact .finish _

/-- `String.charAt(int)` replies with a number, or fails for an index out of bounds. -/
theorem regular_stringCharAt : stringCharAt.Regular key := by
  refine regular_reading (fun p call s => ?_) fun p call s reply h => ?_
  -- an index out of bounds is no fault of control
  · simp only [plain_bind, plain_receiverText, HostCall.plain_arg, Value.plain_asInt, true_and]
    intro text _ v _ index _
    split
    · exact plain_ok _
    · exact (plain_error _).2 rfl
  · obtain ⟨text, _, h⟩ := bind_eq_ok.1 h
    obtain ⟨_, _, h⟩ := bind_eq_ok.1 h
    obtain ⟨index, _, h⟩ := bind_eq_ok.1 h
    split at h
    · obtain rfl := Except.ok.inj h
      exact .finish _
    · cases h

/-- A new string object holds no handle. -/
theorem replyString_regular (s : State) (text : String) :
    Changes p W s (replyString s text).1 ∧ Reply.From s.heap (replyString s text).2 :=
  ⟨.single (.newHost s stringClass _ (.of_none rfl rfl rfl)), .finish _⟩

/-- `String.valueOf(int)` replies with a new string. -/
theorem regular_stringOfInt : stringOfInt.Regular key := by
  refine regular_writing (by simp) fun p call s result h => ?_
  obtain ⟨_, _, h⟩ := bind_eq_ok.1 h
  obtain ⟨v, _, h⟩ := bind_eq_ok.1 h
  obtain rfl := Except.ok.inj h
  exact replyString_regular s _

/-- `String.valueOf(long)` replies with a new string. -/
theorem regular_stringOfLong : stringOfLong.Regular key := by
  refine regular_writing (by simp) fun p call s result h => ?_
  obtain ⟨_, _, h⟩ := bind_eq_ok.1 h
  obtain ⟨_, _, h⟩ := bind_eq_ok.1 h
  obtain ⟨_, _, h⟩ := bind_eq_ok.1 h
  obtain ⟨v, _, h⟩ := bind_eq_ok.1 h
  obtain rfl := Except.ok.inj h
  exact replyString_regular s _

/-- Nor does a box. -/
theorem replyBox_changes (s : State) (v : Value) : Changes p W s (replyBox s v).1 :=
  .single (.newHost s integerClass _ (.of_none rfl rfl rfl))

/-- `Integer.valueOf(int)` replies with a new box. -/
theorem regular_integerValueOf : integerValueOf.Regular key := by
  refine regular_writing (by simp) fun p call s result h => ?_
  obtain ⟨_, _, h⟩ := bind_eq_ok.1 h
  obtain ⟨v, _, h⟩ := bind_eq_ok.1 h
  obtain rfl := Except.ok.inj h
  exact ⟨replyBox_changes s (.int v), .finish _⟩

/-- `Integer.intValue()` replies with what the box holds. -/
theorem regular_integerIntValue : integerIntValue.Regular key := by
  refine regular_reading (by simp) fun p call s reply h => ?_
  obtain ⟨_, _, h⟩ := bind_eq_ok.1 h
  obtain ⟨v, _, h⟩ := bind_eq_ok.1 h
  obtain rfl := Except.ok.inj h
  exact .finish _

/-- `Class.forName(String)` makes a handle of a class of the program. -/
theorem regular_classForName : classForName.Regular key := by
  refine regular_writing (by simp) fun p call s result h => ?_
  obtain ⟨_, _, h⟩ := bind_eq_ok.1 h
  obtain ⟨name, _, h⟩ := bind_eq_ok.1 h
  obtain ⟨c, hc, h⟩ := bind_eq_ok.1 h
  obtain rfl := Except.ok.inj h
  refine ⟨.single (.newHost s _ _ ⟨fun c' hc' => ?_, ?_, ?_⟩), .finish _⟩
  -- of the three kinds of handles only the class is set
  · obtain rfl := Option.some.inj hc'
    exact mem_of_findClass hc
  · intro m hm
    cases hm
  · intro c' f hf
    cases hf

/-- `Class.getDeclaredMethod` makes a handle of a method, out of a class handle. -/
theorem regular_classGetDeclaredMethod : classGetDeclaredMethod.Regular key := by
  refine regular_writing (fun p call s => ?_) fun p call s result h => ?_
  · simp only [plain_bind, plain_handle, HostCall.plain_arg, Heap.plain_stringOf, true_and]
    intro c _ v _ name _
    split
    · exact plain_ok _
    · exact (plain_error _).2 rfl
    · exact (plain_error _).2 rfl
  · obtain ⟨c, hc, h⟩ := bind_eq_ok.1 h
    obtain ⟨_, _, h⟩ := bind_eq_ok.1 h
    obtain ⟨name, _, h⟩ := bind_eq_ok.1 h
    obtain ⟨d, hd, hdc⟩ := handle_ok hc
    split at h
    · next m hm =>
      obtain rfl := Except.ok.inj h
      -- the method is one of the class that the handle stands for
      have hmem : m ∈ c.methods.filter (·.name == name) := hm ▸ List.mem_singleton_self m
      refine ⟨.single (.newHost s _ _ ⟨?_, fun m' hm' => ?_, ?_⟩), .finish _⟩
      · intro c' hc'
        cases hc'
      · obtain rfl := Option.some.inj hm'
        exact ⟨d, c, hd, hdc, (List.mem_filter.1 hmem).1⟩
      · intro c' f hf
        cases hf
    · cases h
    · cases h

/-- `Class.getDeclaredField` makes a handle of a field, out of a class handle. -/
theorem regular_classGetDeclaredField : classGetDeclaredField.Regular key := by
  refine regular_writing (fun p call s => ?_) fun p call s result h => ?_
  · simp only [plain_bind, plain_handle, HostCall.plain_arg, Heap.plain_stringOf, true_and]
    intro c _ v _ name _
    split
    · exact plain_ok _
    · exact (plain_error _).2 rfl
  · obtain ⟨c, hc, h⟩ := bind_eq_ok.1 h
    obtain ⟨_, _, h⟩ := bind_eq_ok.1 h
    obtain ⟨name, _, h⟩ := bind_eq_ok.1 h
    obtain ⟨d, hd, hdc⟩ := handle_ok hc
    split at h
    · next f hf =>
      obtain rfl := Except.ok.inj h
      -- the handle of the field holds the class as well, but not as its class
      refine ⟨.single (.newHost s _ _ ⟨?_, ?_, fun c' f' hf' => ?_⟩), .finish _⟩
      · intro c' hc'
        cases hc'
      · intro m hm
        cases hm
      · obtain ⟨rfl, rfl⟩ := Prod.mk.inj (Option.some.inj hf')
        exact ⟨d, hd, hdc, Table.mem_values_of_get? hf⟩
    · cases h

/-- `Field.get(Object)` asks to read the field that its handle stands for. -/
theorem regular_fieldGet : fieldGet.Regular key := by
  refine regular_reading (by simp) fun p call s reply h => ?_
  obtain ⟨⟨owner, field⟩, hplace, h⟩ := bind_eq_ok.1 h
  obtain rfl := Except.ok.inj h
  obtain ⟨d, hd, hdf⟩ := handle_ok hplace
  exact .readField owner field call.args d hd hdf

/-- `Field.set(Object, Object)` asks to write the field that its handle stands for, with a value that fits.
-/
theorem regular_fieldSet : fieldSet.Regular key := by
  refine regular_reading (by simp) fun p call s reply h => ?_
  obtain ⟨⟨owner, field⟩, hplace, h⟩ := bind_eq_ok.1 h
  obtain ⟨_, _, h⟩ := bind_eq_ok.1 h
  obtain ⟨v, _, h⟩ := bind_eq_ok.1 h
  obtain ⟨d, hd, hdf⟩ := handle_ok hplace
  -- the value is checked against the type of the field before anything is asked for
  split at h
  · next hv =>
    obtain rfl := Except.ok.inj h
    exact .writeField owner field call.args v d hd hdf hv
  · cases h

/-- `Method.invoke(Object, Object[])` asks to call the method that its handle stands for. -/
theorem regular_methodInvoke : methodInvoke.Regular key := by
  refine regular_writing (fun p call s => ?_) fun p call s result h => ?_
  · simp only [plain_bind, plain_handle, HostCall.plain_arg, true_and]
    intro m _ target _ args _
    split <;> simp
  · obtain ⟨m, hm, h⟩ := bind_eq_ok.1 h
    obtain ⟨target, _, h⟩ := bind_eq_ok.1 h
    obtain ⟨list, _, h⟩ := bind_eq_ok.1 h
    obtain ⟨d, hd, hdm⟩ := handle_ok hm
    -- wherever the arguments come from, the call is the same
    have hcall (args : List Value) : Changes p (Constructs key call.receiver?
        (.call m (some target) args)) s (s.log .debug fun _ =>
          "".pushn '\t' call.depth ++ "reflective call of " ++ m.text) ∧
            Reply.From s.heap (.call m (some target) args) :=
      ⟨.single (.log s _ _), .call m (some target) args d hd hdm⟩
    dsimp only at h
    split at h
    · obtain ⟨array, _, h⟩ := bind_eq_ok.1 h
      obtain rfl := Except.ok.inj h
      exact hcall array.values.toList
    · split at h
      · obtain rfl := Except.ok.inj h
        exact hcall []
      · cases h

/-- A method that does nothing is regular. -/
theorem regular_doNothing : doNothing.Regular key :=
  fun _ _ _ => ⟨.refl, .finish none⟩

/-- `Log.d(String, String)` writes the journal. -/
theorem regular_logDebug : logDebug.Regular key := by
  refine regular_writing (by simp) fun p call s result h => ?_
  obtain ⟨_, _, h⟩ := bind_eq_ok.1 h
  obtain ⟨tag, _, h⟩ := bind_eq_ok.1 h
  obtain ⟨v, _, h⟩ := bind_eq_ok.1 h
  obtain rfl := Except.ok.inj h
  exact ⟨.single (.log s _ _), .finish _⟩

/-! ### The registry -/

/-- What is registered last under a key is found there; nothing else comes into a registry. -/
theorem find?_registered {methods : List (String × String × String × HostMethod)} {n : Natives}
    {className name : String} {params : List Descriptor} {host : HostMethod}
    (h : (methods.foldl (fun n (c, name, params, m) => n.register c name params m) n).find?
      className name params = some host) :
    n.find? className name params = some host ∨ ∃ entry ∈ methods, entry.2.2.2 = host ∧
      Natives.key className name (Descriptor.listText params) =
        Natives.key entry.1 entry.2.1 entry.2.2.1 := by
  -- the induction is on the registrations still to come; a later one hides an earlier one
  induction methods generalizing n with
  | nil => exact .inl h
  | cons entry rest ih =>
    obtain ⟨c, name', params', m⟩ := entry
    rw [List.foldl_cons] at h
    cases ih h with
    | inr hrest =>
      obtain ⟨entry, hmem, heq⟩ := hrest
      exact .inr ⟨entry, List.mem_cons_of_mem _ hmem, heq⟩
    | inl hfirst =>
      simp only [Natives.find?, Natives.register, Table.get?_insert] at hfirst
      split at hfirst
      · next hkey => exact .inr ⟨_, List.mem_cons_self, Option.some.inj hfirst, hkey⟩
      · exact .inl hfirst

/-- The host methods of the standard library make changes of the listed kinds only and reply with what
they may. -/
theorem standard_regular {className name : String} {params : List Descriptor} {host : HostMethod}
    (h : Natives.standard.find? className name params = some host) :
    host.Regular (Natives.key className name (Descriptor.listText params)) := by
  cases find?_registered h with
  -- before the registrations the registry is empty
  | inl h => cases h
  | inr h =>
    obtain ⟨entry, hmem, rfl, hkey⟩ := h
    have hall : ∀ entry ∈ Natives.standardMethods,
        entry.2.2.2.Regular (Natives.key entry.1 entry.2.1 entry.2.2.1) := by
      simp [Natives.standardMethods, regular_stringInit, regular_stringLength, regular_stringCharAt,
        regular_stringOfInt, regular_stringOfLong, regular_integerValueOf, regular_integerIntValue,
        regular_classForName, regular_classGetDeclaredMethod, regular_classGetDeclaredField,
        regular_doNothing, regular_fieldGet, regular_fieldSet, regular_methodInvoke,
        regular_logDebug]
    rw [hkey]
    exact hall entry hmem

/-! ### Fields touched once the class is set up -/

/-- A reply that ends the call of the host method. -/
inductive Reply.Ends : Reply → Prop
  | finish (value? : Option Value) : Reply.Ends (.finish value?)
  | fail (e : Fault) (he : e.isControl = false) : Reply.Ends (.fail e)

/-- A reply that ends the call is of the kinds. -/
theorem Reply.Ends.toFrom {h : Heap} {reply : Reply} (hr : reply.Ends) : Reply.From h reply := by
  cases hr with
  | finish value? => exact .finish value?
  | fail e he => exact .fail e he

/-- A missing object to read a field from is a mismatch. -/
@[simp] theorem plain_fieldTarget (args : List Value) : Plain (fieldTarget args) := by
  unfold fieldTarget
  split <;> simp

/-- Reading a field changes nothing, unless the empty string is needed for one never written. -/
theorem readField_changes (s : State) (owner : LoadedClass) (field : Field) (args : List Value) :
    Changes p W s (readField s owner field args).1 := by
  unfold readField
  -- a static field that is missing is a fault, one of an object has the value of its type
  split
  · split <;> exact .refl
  · split
    · exact .refl
    · split
      · exact .refl
      · exact defaultValue_changes s field.type

/-- Reading a field fails for no reason of control. -/
theorem plain_readField (s : State) (owner : LoadedClass) (field : Field) (args : List Value) :
    Plain (readField s owner field args).2 := by
  unfold readField
  split
  · split
    · exact plain_ok _
    · exact (plain_error _).2 rfl
  · split
    · next e he =>
      have hplain : Plain (do (← s.heap.object (← fieldTarget args)).fields) := by simp
      exact (plain_error e).2 (hplain e he)
    · split <;> exact plain_ok _

/-- A reply with the value of a field ends the call; the value may come in a new box. -/
theorem replyField_changes (s : State) (owner : LoadedClass) (field : Field) (args : List Value) :
    Changes p W s (replyField s owner field args).1 ∧ (replyField s owner field args).2.Ends := by
  have hchanges := readField_changes (p := p) (W := W) s owner field args
  have hplain := plain_readField s owner field args
  unfold replyField
  -- a fault, a 64-bit value, an integer, and anything else
  split
  · next s' e h =>
    rw [h] at hchanges hplain
    exact ⟨hchanges, .fail e (hplain e rfl)⟩
  · next s' _ h =>
    rw [h] at hchanges
    exact ⟨hchanges, .fail _ rfl⟩
  · next s' v h =>
    rw [h] at hchanges
    split
    · exact ⟨hchanges.trans (replyBox_changes s' (.int v)), .finish _⟩
    · exact ⟨hchanges, .finish _⟩
  · next s' v _ _ h =>
    rw [h] at hchanges
    exact ⟨hchanges, .finish _⟩

/-- A write to a field ends the call, and writes a static field only if that is allowed. -/
theorem writeField_changes {owner : LoadedClass} {field : Field} {v : Value}
    (hW : field.isStatic = true → W.static owner field v) (s : State) (args : List Value) :
    Changes p W s (writeField s owner field args v).1 ∧ (writeField s owner field args v).2.Ends := by
  unfold writeField
  split
  · next hstatic => exact ⟨.single (.setStatic s owner field v (hW hstatic)), .finish none⟩
  · split
    · next heap h =>
      obtain ⟨r, _, h⟩ := bind_eq_ok.1 h
      exact ⟨.single (.setField s r field.name v heap h), .finish none⟩
    · next e he =>
      have hplain : Plain (do s.heap.setField (← fieldTarget args) field.name v) := by simp
      exact ⟨.refl, .fail e (hplain e he)⟩

end Machine

end Smali
