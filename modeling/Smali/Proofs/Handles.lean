import Smali.Proofs.Changes

/-!
# What handles stand for

Reflection hands out handles to classes, methods and fields. Whatever a run does, a handle on the heap
stands for something of the program: a class handle is made from a class that was found there, a method
handle or a field handle from the class behind a class handle, and nothing rewrites a handle. A machine
that is given other handles at the start never gets to more methods than these lead to.

## Key results

- `Change.comes`: where the handles on the heap come from
- `Changes.known`: changes of the state keep that handles stand for what the program has
- `Reply.From.call_known`, `Reply.From.field_known`: so a host method replies with what the program has
- `Changes.reaches`: no change brings a method into reach
-/

namespace Smali.Machine

/-- What the data of a host object stands for is in the program. -/
structure HostData.Known (p : Program) (d : HostData) : Prop where
  ofClass : ∀ c, d.class? = some c → c ∈ p.classes
  ofMethod : ∀ m, d.method? = some m → p.HasMethod m
  ofField : ∀ c f, d.field? = some (c, f) → p.HasField c f

/-- Every handle on the heap stands for something of the program. -/
def Heap.Known (p : Program) (h : Heap) : Prop :=
  ∀ d, h.Holds d → d.Known p

variable {p : Program} {W : Allowance} {s s' : State} {h : Heap}

/-- There is no handle on the heap of a fresh machine. -/
theorem known_empty (p : Program) : Heap.Known p {} := by
  rintro d ⟨o, ho, _⟩
  exact absurd ho (Array.not_mem_empty o)

/-! ## What a heap holds -/

/-- A new object brings its own data only. -/
theorem holds_push {o : Object} {d : HostData}
    (hd : { h with objects := h.objects.push o }.Holds d) : h.Holds d ∨ o.body = .host d := by
  obtain ⟨o', ho', hbody⟩ := hd
  cases Array.mem_push.1 ho' with
  | inl hold => exact .inl ⟨o', hold, hbody⟩
  | inr hnew => exact .inr (hnew ▸ hbody)

/-- So does an object that replaces another one. -/
theorem holds_set {ref : Nat} {o : Object} {d : HostData}
    (hd : { h with objects := h.objects.setIfInBounds ref o }.Holds d) :
    h.Holds d ∨ o.body = .host d := by
  obtain ⟨o', ho', hbody⟩ := hd
  cases Array.mem_or_eq_of_mem_setIfInBounds ho' with
  | inl hold => exact .inl ⟨o', hold, hbody⟩
  | inr hnew => exact .inr (hnew ▸ hbody)

/-! ## Where handles come from -/

/-- The handles in the data were on the heap before, or are made from the program and from what the heap
holds. -/
inductive HostData.Comes (p : Program) (h : Heap) (d : HostData) : Prop
  | kept (d' : HostData) (hd' : h.Holds d') (hclass : d.class? = d'.class?)
    (hmethod : d.method? = d'.method?) (hfield : d.field? = d'.field?)
  | made (hd : d.From p h)

/-- What the heap holds comes from the heap. -/
theorem comes_of_holds {d : HostData} (hd : h.Holds d) : d.Comes p h :=
  .kept d hd rfl rfl rfl

/-- With a new object comes what its data comes from. -/
theorem comes_allocObject {o : Object} {d : HostData} (ho : ∀ d, o.body = .host d → d.From p h)
    (hd : (h.allocObject o).1.Holds d) : d.Comes p h := by
  cases holds_push hd with
  | inl hold => exact comes_of_holds hold
  | inr hnew => exact .made (ho d hnew)

/-- With a new host object comes what it is made from. -/
theorem comes_allocHost {className : String} {data d : HostData} (hdata : data.From p s.heap)
    (hd : (s.allocHost className data).1.heap.Holds d) : d.Comes p s.heap := by
  refine comes_allocObject (fun d' hd' => ?_) hd
  obtain rfl := ObjectBody.host.inj hd'
  exact hdata

/-- The object of a literal has no handle. -/
theorem comes_intern {text : String} {d : HostData} (hd : (s.intern text).1.heap.Holds d) :
    d.Comes p s.heap := by
  unfold State.intern at hd
  split at hd
  · exact comes_of_holds hd
  · exact comes_allocHost (.of_none rfl rfl rfl) hd

/-- Writing a field brings no handle. -/
theorem comes_setField {ref : Nat} {name : String} {v : Value} {heap : Heap} {d : HostData}
    (hset : h.setField ref name v = .ok heap) (hd : heap.Holds d) : d.Comes p h := by
  obtain ⟨o, _, hset⟩ := bind_eq_ok.1 hset
  obtain ⟨fields, _, hset⟩ := bind_eq_ok.1 hset
  obtain rfl := Except.ok.inj hset
  cases holds_set hd with
  | inl hold => exact comes_of_holds hold
  -- an object with fields is no host object
  | inr hnew => cases hnew

/-- New contents leave the handles of a host object alone. -/
theorem comes_setContents {ref : Nat} {text : String} {heap : Heap} {d : HostData}
    (hset : h.setHostData ref (fun d => { d with contents? := some text }) = .ok heap)
    (hd : heap.Holds d) : d.Comes p h := by
  obtain ⟨o, ho, hset⟩ := bind_eq_ok.1 hset
  obtain ⟨data, hdata, hset⟩ := bind_eq_ok.1 hset
  obtain rfl := Except.ok.inj hset
  cases holds_set hd with
  | inl hold => exact comes_of_holds hold
  | inr hnew =>
    obtain rfl := ObjectBody.host.inj hnew
    exact .kept data (holds_of_object ho hdata) rfl rfl rfl

/-- Writing an element leaves the objects alone. -/
theorem objects_of_setElement {ref : Nat} {index : Int} {v : Value} {heap : Heap}
    (hset : h.setElement ref index v = .ok heap) : heap.objects = h.objects := by
  obtain ⟨a, _, hset⟩ := bind_eq_ok.1 hset
  obtain ⟨i, _, hset⟩ := bind_eq_ok.1 hset
  obtain rfl := Except.ok.inj hset
  rfl

/-- What a heap holds after a change comes from what it held before. -/
theorem Change.comes (hc : Change p W s s') {d : HostData} (hd : s'.heap.Holds d) :
    d.Comes p s.heap := by
  -- only new host objects bring new handles, and their data says where those come from
  cases hc with
  | log | newArray | setStatic => exact comes_of_holds hd
  | newInstance className =>
    refine comes_allocObject (fun d' hd' => ?_) hd
    cases hd'
  | newHost className data hdata => exact comes_allocHost hdata hd
  | intern text => exact comes_intern hd
  | setField ref name v heap h => exact comes_setField h hd
  | setContents ref text heap h => exact comes_setContents h hd
  | setElement ref index v heap h =>
    obtain ⟨o, ho, hbody⟩ := hd
    exact comes_of_holds ⟨o, objects_of_setElement h ▸ ho, hbody⟩
  | lock _ v h => exact comes_of_holds ((lock_fields h).2.2.2 ▸ hd)
  | unlock _ v h => exact comes_of_holds ((unlock_fields h).2.2.2 ▸ hd)

/-! ## Handles to what the program has -/

/-- Data made from the program and from known handles is known. -/
theorem HostData.From.known {d : HostData} (hd : d.From p h) (hk : h.Known p) : d.Known p where
  ofClass := hd.ofClass
  ofMethod m hm := by
    -- a method handle is made from the class behind a class handle
    obtain ⟨d', c, hheld, hc, hmem⟩ := hd.ofMethod m hm
    exact ⟨c, (hk d' hheld).ofClass c hc, hmem⟩
  ofField c f hf := by
    obtain ⟨d', hheld, hc, hmem⟩ := hd.ofField c f hf
    exact ⟨(hk d' hheld).ofClass c hc, hmem⟩

/-- What comes from known handles is known. -/
theorem HostData.Comes.known {d : HostData} (hd : d.Comes p h) (hk : h.Known p) : d.Known p := by
  cases hd with
  | kept d' hd' hclass hmethod hfield =>
    have hold := hk d' hd'
    exact ⟨hclass ▸ hold.ofClass, hmethod ▸ hold.ofMethod, hfield ▸ hold.ofField⟩
  | made hd => exact hd.known hk

/-- One change keeps the handles. -/
theorem Change.known (hc : Change p W s s') (hk : s.heap.Known p) : s'.heap.Known p :=
  fun _ hd => (hc.comes hd).known hk

/-- Any number of changes does. -/
theorem Changes.known (hc : Changes p W s s') (hk : s.heap.Known p) : s'.heap.Known p :=
  hc.preserves (fun _ _ hchange => hchange.known) hk

/-! ## Methods in reach -/

/-- A handle leads to the method: it stands for the method or for a class that has it. -/
def Heap.Shows (h : Heap) (m : Method) : Prop :=
  ∃ d, h.Holds d ∧ (d.method? = some m ∨ ∃ c, d.class? = some c ∧ m ∈ c.methods)

/-- The method is in the program, or a handle leads to it. -/
def State.Reaches (p : Program) (s : State) (m : Method) : Prop :=
  p.HasMethod m ∨ s.heap.Shows m

/-- A handle leads to no more than what it comes from. -/
theorem HostData.Comes.reaches {d : HostData} (hd : d.Comes p s.heap) {m : Method}
    (hm : d.method? = some m ∨ ∃ c, d.class? = some c ∧ m ∈ c.methods) : s.Reaches p m := by
  cases hd with
  | kept d' hd' hclass hmethod hfield =>
    rw [hclass, hmethod] at hm
    exact .inr ⟨d', hd', hm⟩
  | made hd =>
    -- a new method handle is made from a class that was in reach, a new class handle from the program
    cases hm with
    | inl hm =>
      obtain ⟨d', c, hheld, hc, hmem⟩ := hd.ofMethod m hm
      exact .inr ⟨d', hheld, .inr ⟨c, hc, hmem⟩⟩
    | inr hm =>
      obtain ⟨c, hc, hmem⟩ := hm
      exact .inl ⟨c, hd.ofClass c hc, hmem⟩

/-- A change brings no method into reach. -/
theorem Change.reaches (hc : Change p W s s') {m : Method} (hm : s'.Reaches p m) :
    s.Reaches p m := by
  -- what the program has was in reach before, and so was what the handle comes from
  cases hm with
  | inl hm => exact .inl hm
  | inr hm =>
    obtain ⟨d, hd, hm⟩ := hm
    exact (hc.comes hd).reaches hm

/-- Nor does any number of changes. -/
theorem Changes.reaches (hc : Changes p W s s') {m : Method} (hm : s'.Reaches p m) :
    s.Reaches p m :=
  hc.preserves (P := fun s' => ∀ m, s'.Reaches p m → s.Reaches p m)
    (fun _ _ hchange hs m hm => hs m (hchange.reaches hm)) (fun _ => id) m hm

/-! ## Replies -/

/-- A host method calls what a handle leads to. -/
theorem Reply.From.call_shown {m : Method} {receiver? : Option Value} {args : List Value}
    (hr : Reply.From h (.call m receiver? args)) : h.Shows m := by
  cases hr with
  | call _ _ _ d hd hm => exact ⟨d, hd, .inl hm⟩

/-- It calls a method of the program if the handles are known. -/
theorem Reply.From.call_known {m : Method} {receiver? : Option Value} {args : List Value}
    (hr : Reply.From h (.call m receiver? args)) (hk : h.Known p) : p.HasMethod m := by
  cases hr with
  | call _ _ _ d hd hm => exact (hk d hd).ofMethod m hm

/-- A field that a host method asks for. -/
def Reply.field? : Reply → Option (LoadedClass × Field)
  | .readField owner field _ | .writeField owner field _ _ => some (owner, field)
  | _ => none

/-- It asks for a field of the program if the handles are known. -/
theorem Reply.From.field_known {reply : Reply} {c : LoadedClass} {f : Field}
    (hr : Reply.From h reply) (hf : reply.field? = some (c, f)) (hk : h.Known p) :
    p.HasField c f := by
  cases hr with
  | finish | fail | call => cases hf
  | readField owner field args d hd hdf =>
    obtain ⟨rfl, rfl⟩ := Prod.mk.inj (Option.some.inj hf)
    exact (hk d hd).ofField owner field hdf
  | writeField owner field args v d hd hdf hv =>
    obtain ⟨rfl, rfl⟩ := Prod.mk.inj (Option.some.inj hf)
    exact (hk d hd).ofField owner field hdf

end Smali.Machine
