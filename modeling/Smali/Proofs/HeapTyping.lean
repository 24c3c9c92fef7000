import Smali.Proofs.HeapMoves
import Smali.Proofs.Reach
import Smali.Proofs.VoidArrays

/-!
# The types of what is on the heap

Every slot of an array holds a value that suits the element type, and this stays so: a new array is filled
with the first value of its type, and an accessor stores what it has cut down to its own width, after a
check. Arrays keep their type and length, objects keep their class and their kind, and nothing is ever
taken off the heap.

## Key results

- `Change.persists`, `ArrayInvariant.change`: what one change keeps
- `move_typed`: what one step keeps
- `arrayGet_ok`: reading an element does not fail on the element
- `heap_typing`: all this holds throughout the sessions of a machine
-/

namespace Smali.Machine

/-- Whether the host keeps the object. -/
def Object.isHost (o : Object) : Bool :=
  match o.body with
  | .fields _ => false
  | .host _ => true

/-- Every slot of an array suits the element type. -/
def Heap.Typed (h : Heap) : Prop :=
  ∀ a ∈ h.arrays, ∀ v ∈ a.values, v.suits a.elementType = true

instance (h : Heap) : Decidable h.Typed :=
  inferInstanceAs (Decidable (∀ a ∈ h.arrays, ∀ v ∈ a.values, v.suits a.elementType = true))

/-- What is on the one heap is on the other, under the same reference: an array with the same type and the
same length, an object of the same class and the same kind. -/
structure Heap.Persists (h h' : Heap) : Prop where
  array : ∀ (ref : Nat) a, h.arrays[ref]? = some a → ∃ a', h'.arrays[ref]? = some a' ∧
    a'.elementType = a.elementType ∧ a'.values.size = a.values.size
  object : ∀ (ref : Nat) o, h.objects[ref]? = some o → ∃ o', h'.objects[ref]? = some o' ∧
    o'.className = o.className ∧ o'.isHost = o.isHost

variable {p : Program} {W : Allowance} {s s' : State} {h h' : Heap}

/-! ## What stays on the heap -/

/-- What is on a heap is on it. -/
theorem Heap.Persists.refl (h : Heap) : h.Persists h where
  array _ a ha := ⟨a, ha, rfl, rfl⟩
  object _ o ho := ⟨o, ho, rfl, rfl⟩

/-- What persists twice persists. -/
theorem Heap.Persists.trans {h'' : Heap} (hfirst : h.Persists h') (hsecond : h'.Persists h'') :
    h.Persists h'' where
  array ref a ha := by
    obtain ⟨a', ha', htype', hsize'⟩ := hfirst.array ref a ha
    obtain ⟨a'', ha'', htype, hsize⟩ := hsecond.array ref a' ha'
    exact ⟨a'', ha'', htype.trans htype', hsize.trans hsize'⟩
  object ref o ho := by
    obtain ⟨o', ho', hclass', hkind'⟩ := hfirst.object ref o ho
    obtain ⟨o'', ho'', hclass, hkind⟩ := hsecond.object ref o' ho'
    exact ⟨o'', ho'', hclass.trans hclass', hkind.trans hkind'⟩

/-- What is there is not at the place of something new. -/
theorem getElem?_push_of_some {xs : Array α} {i : Nat} {x : α} (hx : xs[i]? = some x) (y : α) :
    (xs.push y)[i]? = some x := by
  have hlt : i < xs.size := (Array.getElem?_eq_some_iff.1 hx).1
  -- the new element stands behind all others
  have hne : i ≠ xs.size := by omega
  rw [Array.getElem?_push, if_neg hne, hx]

/-- A new object takes no place of an old one. -/
theorem persists_allocObject (h : Heap) (o : Object) : h.Persists (h.allocObject o).1 where
  array _ a ha := ⟨a, ha, rfl, rfl⟩
  object _ o' ho' := ⟨o', getElem?_push_of_some ho' o, rfl, rfl⟩

/-- A new array takes no place of an old one. -/
theorem persists_allocArray (h : Heap) (a : ArrayObject) : h.Persists (h.allocArray a).1 where
  array _ a' ha' := ⟨a', getElem?_push_of_some ha' a, rfl, rfl⟩
  object _ o ho := ⟨o, ho, rfl, rfl⟩

/-- An object of the same class and kind may take the place of another. -/
theorem persists_setObject {ref : Nat} {o o' : Object} (ho : h.object ref = .ok o)
    (hclass : o'.className = o.className) (hkind : o'.isHost = o.isHost) :
    h.Persists { h with objects := h.objects.setIfInBounds ref o' } where
  array _ a ha := ⟨a, ha, rfl, rfl⟩
  object j x hx := by
    have hplace := object_ok ho
    have hlt : ref < h.objects.size := (Array.getElem?_eq_some_iff.1 hplace).1
    -- the place that is written, and every other place
    by_cases hj : ref = j
    · subst hj
      rw [hplace] at hx
      obtain rfl := Option.some.inj hx
      refine ⟨o', ?_, hclass, hkind⟩
      rw [Array.getElem?_setIfInBounds, if_pos rfl, if_pos hlt]
    · refine ⟨x, ?_, rfl, rfl⟩
      rw [Array.getElem?_setIfInBounds, if_neg hj, hx]

/-- A write to a field keeps the class and the kind of the object. -/
theorem persists_setField {ref : Nat} {name : String} {v : Value}
    (hset : h.setField ref name v = .ok h') : h.Persists h' := by
  obtain ⟨o, ho, hset⟩ := bind_eq_ok.1 hset
  obtain ⟨fields, hfields, hset⟩ := bind_eq_ok.1 hset
  obtain rfl := Except.ok.inj hset
  refine persists_setObject ho rfl ?_
  -- the object had fields before
  unfold Object.fields at hfields
  split at hfields
  · next hbody => simp [Object.isHost, hbody]
  · cases hfields

/-- A change of what the host holds keeps the class and the kind of the object. -/
theorem persists_setHostData {ref : Nat} {change : HostData → HostData}
    (hset : h.setHostData ref change = .ok h') : h.Persists h' := by
  obtain ⟨o, ho, hset⟩ := bind_eq_ok.1 hset
  obtain ⟨data, hdata, hset⟩ := bind_eq_ok.1 hset
  obtain rfl := Except.ok.inj hset
  refine persists_setObject ho rfl ?_
  -- the object was kept by the host before
  unfold Object.hostData at hdata
  split at hdata
  · next hbody => simp [Object.isHost, hbody]
  · cases hdata

/-- A write to an element keeps the type and the length of the array. -/
theorem persists_setElement {ref : Nat} {index : Int} {v : Value}
    (hset : h.setElement ref index v = .ok h') : h.Persists h' := by
  obtain ⟨a, _, hset⟩ := bind_eq_ok.1 hset
  obtain ⟨i, _, hset⟩ := bind_eq_ok.1 hset
  obtain rfl := Except.ok.inj hset
  refine ⟨fun j x hx => ?_, fun _ o ho => ⟨o, ho, rfl, rfl⟩⟩
  dsimp only
  rw [Array.getElem?_modify, hx]
  -- the array that is written keeps its size, the others are as they were
  split
  · exact ⟨_, rfl, rfl, Array.size_setIfInBounds⟩
  · exact ⟨x, rfl, rfl, rfl⟩

/-- Interning a literal takes nothing off the heap. -/
theorem persists_intern (s : State) (text : String) :
    s.heap.Persists (s.intern text).1.heap := by
  unfold State.intern
  split
  · exact .refl s.heap
  · exact persists_allocObject s.heap _

/-- A change takes nothing off the heap. -/
theorem Change.persists (hc : Change p W s s') : s.heap.Persists s'.heap := by
  cases hc with
  | log | setStatic => exact .refl s.heap
  | newInstance className => exact persists_allocObject s.heap _
  | newHost className d hd => exact persists_allocObject s.heap _
  | newArray elementType values => exact persists_allocArray s.heap _
  | intern text => exact persists_intern s text
  | setField ref name v heap hset => exact persists_setField hset
  | setContents ref text heap hset => exact persists_setHostData hset
  | setElement ref index v heap hset => exact persists_setElement hset
  | lock _ v hlock => exact (lock_fields hlock).2.2.2 ▸ .refl s.heap
  | unlock _ v hunlock => exact (unlock_fields hunlock).2.2.2 ▸ .refl s.heap

/-! ## What holds of all arrays -/

/-- Interning a literal makes no array. -/
theorem arrays_intern (s : State) (text : String) :
    (s.intern text).1.heap.arrays = s.heap.arrays := by
  unfold State.intern
  split
  · rfl
  · rfl

/-- A write to a field touches no array. -/
theorem arrays_setField {ref : Nat} {name : String} {v : Value}
    (hset : h.setField ref name v = .ok h') : h'.arrays = h.arrays := by
  obtain ⟨o, _, hset⟩ := bind_eq_ok.1 hset
  obtain ⟨fields, _, hset⟩ := bind_eq_ok.1 hset
  rw [← Except.ok.inj hset]

/-- A change of what the host holds touches no array. -/
theorem arrays_setHostData {ref : Nat} {change : HostData → HostData}
    (hset : h.setHostData ref change = .ok h') : h'.arrays = h.arrays := by
  obtain ⟨o, _, hset⟩ := bind_eq_ok.1 hset
  obtain ⟨data, _, hset⟩ := bind_eq_ok.1 hset
  rw [← Except.ok.inj hset]

/-- A property of arrays that those have which may be made, and that is kept when a value of the element type
is written. -/
structure ArrayInvariant (W : Allowance) (P : ArrayObject → Prop) : Prop where
  made : ∀ type values, W.array type values → P ⟨type, values⟩
  set : ∀ (a : ArrayObject) i v, P a → v.suits a.elementType = true →
    P { a with values := a.values.setIfInBounds i v }

namespace ArrayInvariant

variable {P : ArrayObject → Prop}

/-- The property survives a write to an element. -/
theorem setElement (hinv : ArrayInvariant W P) {ref : Nat} {index : Int} {v : Value}
    (hset : h.setElement ref index v = .ok h')
    (hv : ∀ a, h.array ref = .ok a → v.suits a.elementType = true) (hP : ∀ a ∈ h.arrays, P a) :
    ∀ a ∈ h'.arrays, P a := by
  obtain ⟨a, ha, hset⟩ := bind_eq_ok.1 hset
  obtain ⟨i, _, hset⟩ := bind_eq_ok.1 hset
  obtain rfl := Except.ok.inj hset
  intro x hx
  obtain ⟨j, hj⟩ := Array.mem_iff_getElem?.1 hx
  rw [Array.getElem?_modify] at hj
  split at hj
  · next href =>
    subst href
    obtain ⟨x', hx', rfl⟩ := Option.map_eq_some_iff.1 hj
    -- the array whose element type was checked is the one at the place
    have hsame : h.array ref = .ok x' := by
      unfold Heap.array
      rw [hx']
    exact hinv.set x' i v (hP x' (Array.mem_of_getElem? hx')) (hv x' hsame)
  · exact hP x (Array.mem_of_getElem? hj)

/-- One change keeps the property. -/
theorem change (hinv : ArrayInvariant W P) (hc : Change p W s s') (hP : ∀ a ∈ s.heap.arrays, P a) :
    ∀ a ∈ s'.heap.arrays, P a := by
  cases hc with
  | log | newInstance | newHost | setStatic => exact hP
  | newArray type values hmake =>
    intro a ha
    cases Array.mem_push.1 ha with
    | inl hold => exact hP a hold
    | inr hnew => exact hnew ▸ hinv.made type values hmake
  | intern text =>
    rw [arrays_intern]
    exact hP
  | setField ref name v heap hset =>
    rw [arrays_setField hset]
    exact hP
  | setContents ref text heap hset =>
    rw [arrays_setHostData hset]
    exact hP
  | setElement ref index v heap hset hv => exact hinv.setElement hset hv hP
  | lock _ v hlock => exact (lock_fields hlock).2.2.2 ▸ hP
  | unlock _ v hunlock => exact (unlock_fields hunlock).2.2.2 ▸ hP

/-- Changes keep the property. -/
theorem changes (hinv : ArrayInvariant W P) (hc : Changes p W s s') (hP : ∀ a ∈ s.heap.arrays, P a) :
    ∀ a ∈ s'.heap.arrays, P a :=
  hc.preserves (P := fun s => ∀ a ∈ s.heap.arrays, P a) (fun _ _ => hinv.change) hP

/-- A step keeps the property. -/
theorem becomes (hinv : ArrayInvariant W P) (hb : s.Becomes p W s') (hP : ∀ a ∈ s.heap.arrays, P a) :
    ∀ a ∈ s'.heap.arrays, P a := by
  refine hb.preserves (P := fun s => ∀ a ∈ s.heap.arrays, P a) (fun _ _ => hinv.change)
    (fun s₁ s₂ hstore hs => ?_) hP
  rw [heap_of_store hstore]
  exact hs

end ArrayInvariant

/-- The values keep suiting the element types, if those of the arrays that may be made do. -/
theorem typed_arrays (hW : ∀ type values, W.array type values → ∀ v ∈ values, v.suits type = true) :
    ArrayInvariant W fun a => ∀ v ∈ a.values, v.suits a.elementType = true where
  made := hW
  set a i v ha hv w hw := by
    -- the slot that was written holds the new value, the others what they held before
    cases Array.mem_or_eq_of_mem_setIfInBounds hw with
    | inl hold => exact ha w hold
    | inr hnew => exact hnew ▸ hv

/-! ## Steps -/

section Steps

variable {setup : Setup}

/-- A step takes nothing off the heap. -/
theorem State.Becomes.persists (hb : s.Becomes p W s') : s.heap.Persists s'.heap := by
  refine hb.preserves (P := fun s' => s.heap.Persists s'.heap)
    (fun _ _ hchange hs => hs.trans hchange.persists) (fun s₁ s₂ hstore hs => ?_) (.refl s.heap)
  -- what a step stores besides its changes is not on the heap
  rw [heap_of_store hstore]
  exact hs

/-- Code that makes no array of void makes only arrays whose values suit their type. -/
theorem suits_of_makes {m : Snapshot} (hm : m.task.CodeAll Code.Voidless) {type : Descriptor}
    {values : Array Value} (hmake : m.Makes type values) : ∀ v ∈ values, v.suits type = true := by
  obtain ⟨f, i, htask, hi, ⟨dest, length, hnew⟩, hsuits, -⟩ := hmake
  rw [htask] at hm
  have hvoid : i.makesVoidArray = false := hm i hi
  refine hsuits fun htype => ?_
  rw [hnew, htype] at hvoid
  cases hvoid

/-- What one step of code without void arrays keeps: values that suit their types. -/
theorem move_typed {m : Snapshot} {q : Progress} (hq : Move setup m q)
    (hm : m.task.CodeAll Code.Voidless) (ht : m.state.heap.Typed) : q.state.heap.Typed :=
  (typed_arrays fun _ _ => suits_of_makes hm).becomes (move_becomes hq) ht

end Steps

/-! ## Reading an element -/

/-- The frame has the slots that a value of a kind takes. -/
def Frame.HasRoom (f : Frame) (kind : ValueKind) (slot : Slot) : Prop :=
  match kind with
  | .wide => slot.index + 1 < (f.file slot).size
  | _ => slot.index < (f.file slot).size

/-- A frame can be changed where its slots can. -/
theorem update_ok {f : Frame} {slot : Slot} {change : Slots → Except Fault Slots}
    (hchange : ∃ file, change (f.file slot) = .ok file) : ∃ f', f.update slot change = .ok f' := by
  obtain ⟨file, hchange⟩ := hchange
  cases slot with
  | register i => exact ⟨{ f with registers := file }, bind_eq_ok.2 ⟨file, hchange, rfl⟩⟩
  | parameter i => exact ⟨{ f with parameters := file }, bind_eq_ok.2 ⟨file, hchange, rfl⟩⟩

/-- A value of one slot can be written into a slot that is there. -/
theorem write_ok {f : Frame} {slot : Slot} {v : Value} (hroom : slot.index < (f.file slot).size)
    (hv : v.variant ≠ .long) : ∃ f', f.write slot v = .ok f' := by
  refine update_ok ⟨⟨(f.file slot).cells.setIfInBounds slot.index (some v)⟩, ?_⟩
  rw [Slots.set, if_pos hroom, if_neg hv]

/-- A 64-bit value can be written into two slots that are there. -/
theorem writeWide_ok {f : Frame} {slot : Slot} (hroom : slot.index + 1 < (f.file slot).size)
    (n : Int64) : ∃ f', f.writeWide slot (.long n) = .ok f' :=
  update_ok ⟨_, if_pos hroom⟩

/-- What fits a wide type is a 64-bit value. -/
theorem long_of_fits {v : Value} {d : Descriptor} (hfits : v.fits d = true)
    (hwide : d.isWide = true) : ∃ n, v = .long n := by
  have hvariant : v.variant = .long := by
    cases d with
    | long | double => exact of_decide_eq_true hfits
    | _ => cases hwide
  cases v with
  | long n => exact ⟨n, rfl⟩
  | int | object | array => cases hvariant

/-- What fits a reference type is a reference or null. -/
theorem reference_of_fits {v : Value} {d : Descriptor} (hfits : v.fits d = true)
    (href : d.isReference = true) : v.isReferenceOrNull = true := by
  cases d with
  | object | array => exact hfits
  | _ => cases href

/-- The accessors for one slot accept the types of integers only. -/
theorem int_of_fits {v : Value} {kind : AccessKind} {d : Descriptor} (hfits : v.fits d = true)
    (haccepts : kind.accepts d = true) (hkind : kind.valueKind = .single) : ∃ n, v = .int n := by
  have hvariant : v.variant = .int := by
    cases d with
    | void => cases hfits
    | boolean | byte | short | char | int | float => exact of_decide_eq_true hfits
    -- only the wide accessor accepts these, and it takes two slots
    | long | double =>
      cases kind with
      | wide => cases hkind
      | _ => cases haccepts
    | object | array =>
      cases kind with
      | object => cases hkind
      | _ => cases haccepts
  cases v with
  | int n => exact ⟨n, rfl⟩
  | long | object | array => cases hvariant

/-- What fits a type can be moved into a slot by every accessor that accepts the type. -/
theorem writeKind_ok {f : Frame} {kind : AccessKind} {slot : Slot} {v : Value} {d : Descriptor}
    (hfits : v.fits d = true) (haccepts : kind.accepts d = true)
    (hroom : f.HasRoom kind.valueKind slot) :
    ∃ f', f.writeKind h kind.valueKind slot v = .ok f' := by
  cases kind with
  | wide =>
    obtain ⟨n, rfl⟩ := long_of_fits hfits haccepts
    exact writeWide_ok hroom n
  | object =>
    have href := reference_of_fits hfits haccepts
    -- a reference or null is no 64-bit value
    have hnarrow : v.variant ≠ .long := by
      intro hlong
      cases v with
      | long n => cases href
      | int | object | array => cases hlong
    obtain ⟨f', hf'⟩ := write_ok hroom hnarrow
    exact ⟨f', (if_pos href).trans hf'⟩
  | int | boolean | byte | char | short =>
    obtain ⟨n, rfl⟩ := int_of_fits hfits haccepts rfl
    exact write_ok hroom fun hlong => by cases hlong

/-- An array that is found stands at its reference. -/
theorem array_ok {h : Heap} {ref : Nat} {a : ArrayObject} (ha : h.array ref = .ok a) :
    h.arrays[ref]? = some a := by
  unfold Heap.array at ha
  split at ha
  · next hfound => rw [hfound, Except.ok.inj ha]
  · cases ha

/-- An array that is found is on the heap. -/
theorem mem_of_array {ref : Nat} {a : ArrayObject} (ha : h.array ref = .ok a) : a ∈ h.arrays :=
  Array.mem_of_getElem? (array_ok ha)

/-- An index that lies inside of an array finds an element. -/
theorem get_ok {a : ArrayObject} {index : Int} (hindex : 0 ≤ index ∧ index < a.values.size) :
    ∃ v ∈ a.values, a.get index = .ok v := by
  have hlt : index.toNat < a.values.size := by omega
  refine ⟨a.values[index.toNat], Array.getElem_mem hlt, bind_eq_ok.2 ⟨index.toNat, if_pos hindex, ?_⟩⟩
  rw [Array.getElem?_eq_getElem hlt]
  rfl

/-- Reading an element cannot fail on the element: it succeeds if the array is there, the index lies
inside and the frame has the slots. -/
theorem arrayGet_ok (ht : h.Typed) {f : Frame} {kind : AccessKind} {dest array index : Slot} {ref : Nat}
    {a : ArrayObject} {i : Int32} (href : f.read array = .ok (.array ref)) (ha : h.array ref = .ok a)
    (haccepts : kind.accepts a.elementType = true) (hindex : f.readInt index = .ok i)
    (hinside : 0 ≤ i.toInt ∧ i.toInt < a.values.size) (hroom : f.HasRoom kind.valueKind dest) :
    ∃ f', arrayGet h f kind dest array index = .ok f' := by
  obtain ⟨v, hmem, hv⟩ := get_ok hinside
  -- the element suits the type of the array, so it fits every accessor that accepts the type
  have hfits : v.fits a.elementType = true := fits_of_suits (ht a (mem_of_array ha) v hmem)
  obtain ⟨f', hf'⟩ := writeKind_ok (h := h) hfits haccepts hroom
  refine ⟨f', bind_eq_ok.2 ⟨_, href, bind_eq_ok.2 ⟨ref, rfl, bind_eq_ok.2 ⟨i, hindex,
    bind_eq_ok.2 ⟨a, ha, ?_⟩⟩⟩⟩⟩
  rw [if_pos haccepts]
  exact bind_eq_ok.2 ⟨v, hv, hf'⟩

/-! ## Sessions -/

/-- What is on the heap at the one moment is on it at the other. -/
def Outcome.Persists (o o' : Outcome) : Prop :=
  o.state.heap.Persists o'.state.heap

instance : Trans Outcome.Persists Outcome.Persists Outcome.Persists :=
  ⟨Heap.Persists.trans⟩

/-- What is done from outside makes only arrays whose values suit their type. -/
def Operation.Typed : Operation → Prop
  | .invoke m _ _ => m.CodeAll Code.Voidless
  | .newArray type values => ∀ v ∈ values, v.suits type = true
  | _ => True

instance : DecidablePred Operation.Typed
  | .invoke m _ _ => inferInstanceAs (Decidable (m.CodeAll Code.Voidless))
  | .newArray type values => inferInstanceAs (Decidable (∀ v ∈ values, v.suits type = true))
  | .initClass _ | .newObject _ | .newString _ | .literal _ => isTrue trivial

section Sessions

variable {setup : Setup} {allowed : Operation → Prop}

/-- From one moment to the next nothing is taken off the heap. -/
theorem next_persists (hn : setup.natives = .standard) {o o' : Outcome}
    (hnext : Next setup allowed o o') : o.Persists o' :=
  (next_becomes hn hnext).persists

/-- The elements keep their types in a session. -/
theorem typed_invariant (hn : setup.natives = .standard) :
    Invariant setup Operation.Typed
      (fun s => s.CodeAll setup.program Code.Voidless ∧ s.heap.Typed)
      (fun m => m.CodeAll setup.program Code.Voidless ∧ m.state.heap.Typed) (fun _ => True) where
  invoke s m receiver? args hs hm := ⟨⟨hs.1, hm, by simp⟩, hs.2⟩
  initClass s className hs := ⟨⟨hs.1, trivial, by simp⟩, hs.2⟩
  changes s s' hchanges hs :=
    ⟨hs.1.changes hchanges, (typed_arrays fun _ _ => id).changes hchanges hs.2⟩
  forget s hs := hs
  step m hm := by
    have hmove := step_move hn m
    have hcode := move_codeAll hmove hm.1
    have htyped := move_typed hmove hm.1.task hm.2
    -- a step goes on, ends or fails, and each time both properties hold of its state
    cases hq : step setup m with
    | more m' =>
      rw [hq] at hcode htyped
      exact ⟨hcode, htyped⟩
    | done s value? =>
      rw [hq] at hcode htyped
      exact ⟨hcode, htyped⟩
    | fault s e =>
      rw [hq] at hcode htyped
      exact ⟨⟨hcode, htyped⟩, trivial⟩
  plain _ _ := trivial

/-- What is on the heap at some moment is there ever after. -/
theorem pairwise_persists (hn : setup.natives = .standard) (s : State)
    (ops : List (Operation × Nat)) :
    (.returned s none :: history setup s ops).Pairwise Outcome.Persists := by
  -- neighbouring moments are one step apart; persistence is transitive
  have hchain : List.IsChain (Next setup fun _ => True) (.returned s none :: history setup s ops) :=
    isChain_history (fun _ _ => trivial) rfl
  exact (hchain.imp fun _ _ hnext => next_persists hn hnext).pairwise

/-- The elements of arrays suit their types at every moment of a session. -/
theorem typed_history (setup : Setup) (hn : setup.natives = .standard)
    (hcode : s.CodeAll setup.program Code.Voidless) (hs : s.heap.Typed)
    {ops : List (Operation × Nat)} (hops : ∀ op ∈ ops, op.1.Typed) :
    ∀ o ∈ (.returned s none :: history setup s ops : List Outcome), o.state.heap.Typed := by
  refine List.forall_mem_cons.2 ⟨hs, fun o ho => ?_⟩
  have hmoment := (typed_invariant hn).history hops ⟨hcode, hs⟩ ho
  -- a moment is between two steps or at the end of an operation
  cases o with
  | unfinished m => exact hmoment.2
  | returned s' value? => exact hmoment.2
  | failed s' e => exact hmoment.1.2

end Sessions

/-- Take a session that starts with typed arrays, where neither the code in reach nor anybody from outside
makes an ill-typed one. The first is no condition on programs that are loaded: their code cannot name an
array of void. Then

- at every moment every slot of every array holds a value that suits the element type;
- what is on the heap at some moment is there ever after, under the same reference: arrays with their
  type and length, objects with their class and kind;
- at every moment an element can be read by every accessor that accepts the element type, if the array is
  there, the index lies inside and the frame has the slots. -/
theorem heap_typing (p : Program) (maxDepth : Nat) (s : State) (ops : List (Operation × Nat))
    (hcode : ∀ m, s.Reaches p m → m.CodeAll Code.Voidless) (hs : s.heap.Typed)
    (hops : ∀ op ∈ ops, op.1.Typed) :
    let moments := .returned s none :: history { program := p, maxDepth } s ops
    (∀ sources p', loadProgram sources = .ok p' → ∀ m, p'.HasMethod m → m.CodeAll Code.Voidless) ∧
    (∀ o ∈ moments, o.state.heap.Typed) ∧
    moments.Pairwise Outcome.Persists ∧
    ∀ o ∈ moments, ∀ (f : Frame) (kind : AccessKind) (dest array index : Slot) ref a (i : Int32),
      f.read array = .ok (.array ref) → o.state.heap.array ref = .ok a →
      kind.accepts a.elementType = true →
      f.readInt index = .ok i → 0 ≤ i.toInt ∧ i.toInt < a.values.size →
      f.HasRoom kind.valueKind dest →
      ∃ f', (exec p o.state f (.arrayGet kind dest array index)).2 = .ok (.next f') := by
  intro moments
  have htyped : ∀ o ∈ moments, o.state.heap.Typed :=
    typed_history { program := p, maxDepth } rfl hcode hs hops
  refine ⟨fun _ _ hload _ hm => loadProgram_voidless hload hm, htyped, pairwise_persists rfl s ops,
    ?_⟩
  intro o ho f kind dest array index ref a i href ha haccepts hindex hinside hroom
  obtain ⟨f', hf'⟩ := arrayGet_ok (htyped o ho) href ha haccepts hindex hinside hroom
  refine ⟨f', ?_⟩
  rw [exec, hf']
  rfl

namespace Narrow

/-- A method that puts a number into an array of bytes, which cannot hold it, and reads it back. -/
def fill : Method where
  className := "LNarrow;"
  name := "fill"
  flags := .ofWords ["static"]
  params := [.int]
  returnType := .int
  body := .code
    { registerCount := 3
      instructions := #[.const (.register 0) ⟨2, 4⟩,
        .newArray (.register 1) (.register 0) (.array .byte), .const (.register 2) ⟨1, 4⟩,
        .arrayPut .byte (.parameter 0) (.register 1) (.register 2),
        .arrayGet .byte (.register 0) (.register 1) (.register 2), .returnValue .single (.register 0)] }

/-- The program with the method. -/
def program : Program :=
  ClassTable.freeze ⟨[("LNarrow;", { flags := .ofWords [], name := "LNarrow;", methods := [fill] })]⟩

/-- An array of characters is made, then the method is called. -/
def session : List (Operation × Nat) :=
  [(.newArray .char #[.int 65535], 0), (.invoke fill none [.int 200], 12)]

/-- A frame in which the second array can be read. -/
def reader : Frame where
  method := fill
  code := {}
  registers := ⟨#[none, some (.array 1), some (.int 1)]⟩
  parameters := ⟨#[]⟩

end Narrow

open Narrow in
/-- The number is cut down to a byte, so that the heap is typed in the end as at every moment, and the
element can be read. -/
theorem narrow_heap_typing :
    (∀ c ∈ program.classes, ∀ m ∈ c.methods, m.CodeAll Code.Voidless) ∧
    (∀ op ∈ session, op.1.Typed) ∧
    (history { program, maxDepth := 8 } {} session).getLast?.map (·.state.heap.arrays) =
      some #[⟨.char, #[.int 65535]⟩, ⟨.byte, #[.int 0, .int (-56)]⟩] ∧
    (∀ o ∈ history { program, maxDepth := 8 } {} session, o.state.heap.Typed) ∧
    (history { program, maxDepth := 8 } {} session).Pairwise Outcome.Persists ∧
    ∀ o ∈ history { program, maxDepth := 8 } {} session,
      o.state.heap.array 1 = .ok ⟨.byte, #[.int 0, .int (-56)]⟩ →
      ∃ f', (exec program o.state reader
        (.arrayGet .byte (.register 0) (.register 1) (.register 2))).2 = .ok (.next f') := by
  have hcode : ∀ c ∈ program.classes, ∀ m ∈ c.methods, m.CodeAll Code.Voidless := by decide
  have hreach : ∀ m, State.Reaches program {} m → m.CodeAll Code.Voidless := by
    -- no handle is on the empty heap, so the methods in reach are those of the program
    rintro m (⟨c, hc, hm⟩ | ⟨d, ⟨o, ho, _⟩, _⟩)
    · exact hcode c hc m hm
    · exact absurd ho (Array.not_mem_empty o)
  have hops : ∀ op ∈ session, op.1.Typed := by decide
  obtain ⟨_, htyped, hpersists, hread⟩ := heap_typing program 8 {} session hreach (by decide) hops
  refine ⟨hcode, hops, by decide, fun o ho => htyped o (List.mem_cons_of_mem _ ho),
    (List.pairwise_cons.1 hpersists).2, fun o ho harray => ?_⟩
  exact hread o (List.mem_cons_of_mem _ ho) reader .byte _ _ _ 1 _ 1 rfl harray rfl rfl (by decide)
    (show 0 < 3 by decide)

end Smali.Machine
