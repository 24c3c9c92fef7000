import Smali.Proofs.HeapTyping
import Smali.Proofs.Loading

/-!
# The string pool

A literal gets a string object when it is met first, and the pool keeps the object for the rest of the run,
so that equal literals are one object and different ones are different objects. A string object is an
object like any other, though. The constructor of strings can be called on it again, and then it reads as
something else, wherever the literal stands.

## Key results

- `Change.pooled`: what one change keeps of the pool
- `string_pool`: what holds of the pool throughout the sessions of a machine
- `pooled_text_replaced`: a literal that reads as something else
-/

namespace Smali.Machine

/-- The host objects of the one heap are host objects of the same class on the other, and apart from those
in the set they hold the same. -/
def Heap.KeepsHosts (C : Nat → Prop) (h h' : Heap) : Prop :=
  ∀ (r : Nat) className d, h.objects[r]? = some ⟨className, .host d⟩ →
    ∃ d', h'.objects[r]? = some ⟨className, .host d'⟩ ∧ (¬ C r → d' = d)

/-- Each literal has a string object, which holds the literal unless it is in the set, and no two literals
have the same. -/
structure State.Pooled (C : Nat → Prop) (s : State) : Prop where
  string : ∀ text r, s.strings.get? text = some r →
    ∃ d, s.heap.objects[r]? = some ⟨stringClass, .host d⟩ ∧ (¬ C r → d.contents? = some text)
  injective : ∀ text text' r, s.strings.get? text = some r → s.strings.get? text' = some r →
    text = text'

variable {p : Program} {W : Allowance} {s s' : State} {h h' : Heap} {C C' : Nat → Prop}

/-! ## Host objects -/

/-- What leaves the objects alone leaves the host objects alone. -/
theorem keepsHosts_of_objects (hobjects : h'.objects = h.objects) : h.KeepsHosts C h' := by
  intro r className d hd
  exact ⟨d, hobjects ▸ hd, fun _ => rfl⟩

/-- A new object leaves the old ones alone. -/
theorem keepsHosts_allocObject (h : Heap) (o : Object) : h.KeepsHosts C (h.allocObject o).1 :=
  fun _ _ d hd => ⟨d, getElem?_push_of_some hd o, fun _ => rfl⟩

/-- Writing a field leaves the host objects alone, as they have no fields. -/
theorem keepsHosts_setField {ref : Nat} {name : String} {v : Value}
    (hset : h.setField ref name v = .ok h') : h.KeepsHosts C h' := by
  obtain ⟨o, ho, hset⟩ := bind_eq_ok.1 hset
  obtain ⟨fields, hfields, hset⟩ := bind_eq_ok.1 hset
  obtain rfl := Except.ok.inj hset
  intro r className d hd
  refine ⟨d, ?_, fun _ => rfl⟩
  -- the object with the field is another one
  have hne : ref ≠ r := by
    rintro rfl
    obtain rfl := Option.some.inj (hd.symm.trans (object_ok ho))
    cases hfields
  rw [Array.getElem?_setIfInBounds, if_neg hne, hd]

/-- A host object that gets another text stays a host object. -/
theorem keepsHosts_setHostData {ref : Nat} {change : HostData → HostData}
    (hset : h.setHostData ref change = .ok h') (href : C ref) : h.KeepsHosts C h' := by
  obtain ⟨o, ho, hset⟩ := bind_eq_ok.1 hset
  obtain ⟨data, hdata, hset⟩ := bind_eq_ok.1 hset
  obtain rfl := Except.ok.inj hset
  intro r className d hd
  -- the object itself is in the set, all others are left alone
  by_cases hr : ref = r
  · subst hr
    have hlt : ref < h.objects.size := (Array.getElem?_eq_some_iff.1 hd).1
    obtain rfl := Option.some.inj (hd.symm.trans (object_ok ho))
    refine ⟨change data, ?_, fun hnot => absurd href hnot⟩
    rw [Array.getElem?_setIfInBounds, if_pos rfl, if_pos hlt]
  · refine ⟨d, ?_, fun _ => rfl⟩
    rw [Array.getElem?_setIfInBounds, if_neg hr, hd]

/-! ## The pool -/

/-- More objects may be in the set. -/
theorem State.Pooled.mono (hs : s.Pooled C) (hC : ∀ r, C r → C' r) : s.Pooled C' where
  string text r hr := by
    obtain ⟨d, hd, hcontents⟩ := hs.string text r hr
    exact ⟨d, hd, fun hnot => hcontents fun h => hnot (hC r h)⟩
  injective := hs.injective

/-- The pool does not change. -/
theorem State.Pooled.of_keepsHosts (hs : s.Pooled C) (hstrings : s'.strings = s.strings)
    (hheap : s.heap.KeepsHosts C s'.heap) : s'.Pooled C where
  string text r hr := by
    rw [hstrings] at hr
    obtain ⟨d, hd, hcontents⟩ := hs.string text r hr
    obtain ⟨d', hd', hsame⟩ := hheap r stringClass d hd
    exact ⟨d', hd', fun hnot => hsame hnot ▸ hcontents hnot⟩
  injective := by
    rw [hstrings]
    exact hs.injective

/-- Only the stored part of the state matters. -/
theorem State.Pooled.of_store (hs : s.Pooled C) (hstore : s'.store = s.store) : s'.Pooled C :=
  hs.of_keepsHosts (strings_of_store hstore)
    (keepsHosts_of_objects (congrArg Heap.objects (heap_of_store hstore)))

/-- The object of a literal is on the heap. -/
theorem State.Pooled.lt_size (hs : s.Pooled C) {text : String} {r : Nat}
    (hr : s.strings.get? text = some r) : r < s.heap.objects.size := by
  obtain ⟨d, hd, _⟩ := hs.string text r hr
  exact (Array.getElem?_eq_some_iff.1 hd).1

/-- A literal that is met first gets a new object. -/
theorem pooled_intern (hs : s.Pooled C) (text : String) : (s.intern text).1.Pooled C := by
  unfold State.intern
  split
  · exact hs
  · next hnew =>
    -- the object of an older literal has another place than the new one
    have hfresh (text' : String) (hold : s.strings.get? text' = some s.heap.objects.size) : False := by
      have hlt := hs.lt_size hold
      omega
    constructor
    -- the object of the new literal holds it, the older ones hold what they held
    · intro text' r hr
      dsimp only [State.newString, State.allocHost, State.allocObject, Heap.allocObject] at hr ⊢
      rw [Table.get?_insert] at hr
      split at hr
      · next heq =>
        obtain rfl := Option.some.inj hr
        exact ⟨{ contents? := some text }, Array.getElem?_push_size, fun _ => congrArg some heq.symm⟩
      · obtain ⟨d, hd, hcontents⟩ := hs.string text' r hr
        exact ⟨d, getElem?_push_of_some hd _, hcontents⟩
    -- two literals with one object are both new or both old
    · intro text₁ text₂ r h₁ h₂
      dsimp only [State.newString, State.allocHost, State.allocObject, Heap.allocObject] at h₁ h₂
      rw [Table.get?_insert] at h₁ h₂
      split at h₁
      · next heq₁ =>
        split at h₂
        · next heq₂ => rw [heq₁, heq₂]
        · exact (hfresh text₂ (Option.some.inj h₁ ▸ h₂)).elim
      · split at h₂
        · exact (hfresh text₁ (Option.some.inj h₂ ▸ h₁)).elim
        · exact hs.injective text₁ text₂ r h₁ h₂

/-- Locking an object stores nothing. -/
theorem store_lock {v : Value} (hlock : s.lock v = .ok s') : s'.store = s.store := by
  unfold State.lock at hlock
  split at hlock
  · cases hlock
  · rw [← Except.ok.inj hlock]
    rfl

/-- Unlocking an object stores nothing. -/
theorem store_unlock {v : Value} (hunlock : s.unlock v = .ok s') : s'.store = s.store := by
  unfold State.unlock at hunlock
  split at hunlock
  · rw [← Except.ok.inj hunlock]
    rfl
  · cases hunlock

/-- A change keeps the pool in order, if only texts of objects in the set may be replaced. -/
theorem Change.pooled (hW : ∀ r, W.contents r → C r) (hc : Change p W s s') (hs : s.Pooled C) :
    s'.Pooled C := by
  -- the pool changes with a new literal only, host objects with a new text only
  cases hc with
  | log | setStatic => exact hs.of_store rfl
  | newInstance | newHost => exact hs.of_keepsHosts rfl (keepsHosts_allocObject s.heap _)
  | newArray => exact hs.of_keepsHosts rfl (keepsHosts_of_objects rfl)
  | intern text => exact pooled_intern hs text
  | setField ref name v heap hset => exact hs.of_keepsHosts rfl (keepsHosts_setField hset)
  | setContents ref text heap hset href =>
    exact hs.of_keepsHosts rfl (keepsHosts_setHostData hset (hW ref href))
  | setElement ref index v heap hset =>
    exact hs.of_keepsHosts rfl (keepsHosts_of_objects (objects_of_setElement hset))
  | lock _ v hlock => exact hs.of_store (store_lock hlock)
  | unlock _ v hunlock => exact hs.of_store (store_unlock hunlock)

/-- The one pool has the entries of the other. -/
def State.PoolGrows (s s' : State) : Prop :=
  ∀ text r, s.strings.get? text = some r → s'.strings.get? text = some r

/-- A change takes no entry out of the pool. -/
theorem Change.poolGrows (hc : Change p W s s') : s.PoolGrows s' := by
  intro text r hr
  cases hc with
  | intern text' =>
    unfold State.intern
    split
    · exact hr
    · next hnew =>
      dsimp only [State.newString, State.allocHost, State.allocObject]
      -- the pool has no entry for a literal that is new
      have hne : text ≠ text' := by
        rintro rfl
        cases hr.symm.trans hnew
      rw [Table.get?_insert, if_neg hne]
      exact hr
  | lock _ v hlock =>
    rw [strings_of_store (store_lock hlock)]
    exact hr
  | unlock _ v hunlock =>
    rw [strings_of_store (store_unlock hunlock)]
    exact hr
  | log | newInstance | newHost | newArray | setField | setContents | setElement | setStatic => exact hr

/-! ## Sessions -/

/-- Changes keep the pool in order. -/
theorem State.Becomes.pooled (hb : s.Becomes p W s') (hW : ∀ r, W.contents r → C r)
    (hs : s.Pooled C) : s'.Pooled C :=
  hb.preserves (fun _ _ hchange => hchange.pooled hW) (fun _ _ hstore hs => hs.of_store hstore) hs

/-- Changes take no entry out of the pool. -/
theorem State.Becomes.poolGrows (hb : s.Becomes p W s') : s.PoolGrows s' := by
  refine hb.preserves (P := s.PoolGrows)
    (fun _ _ hchange hs text r hr => hchange.poolGrows text r (hs text r hr))
    (fun s₁ s₂ hstore hs => ?_) fun _ _ hr => hr
  intro text r hr
  rw [strings_of_store hstore]
  exact hs text r hr

/-- At one of the moments the constructor of strings was called on the object, and it returned. -/
def Constructed (setup : Setup) (moments : List Outcome) (r : Nat) : Prop :=
  ∃ m, .unfinished m ∈ moments ∧ m.Constructs (step setup m) r

variable {setup : Setup} {allowed : Operation → Prop} {o o' : Outcome} {before : List Outcome}

/-- An object whose text may be replaced at a moment counts as constructed after it. -/
theorem constructed_of_allowance {r : Nat} (hr : (o.allowance setup allowed).contents r) :
    Constructed setup (before ++ [o]) r := by
  cases o with
  | unfinished m => exact ⟨m, List.mem_append_right before (List.mem_singleton_self _), hr⟩
  | returned | failed => exact hr.elim

/-- From one moment to the next the pool stays in order, with what was constructed at the first added to the
set. -/
theorem Next.pooled (hn : setup.natives = .standard) (hnext : Next setup allowed o o')
    (ho : o.state.Pooled (Constructed setup before)) :
    o'.state.Pooled (Constructed setup (before ++ [o])) := by
  -- what was constructed before is still in the set
  have hmore : o.state.Pooled (Constructed setup (before ++ [o])) :=
    ho.mono fun r ⟨m, hm, hr⟩ => ⟨m, List.mem_append_left _ hm, hr⟩
  exact (next_becomes hn hnext).pooled (fun r => constructed_of_allowance) hmore

/-- The pool of a fresh machine is empty. -/
theorem pooled_fresh (journal : Journal) : State.Pooled C { journal } where
  string text r hr := by cases hr
  injective text text' r hr := by cases hr

/-- The pool of the one moment has the entries of the other. -/
def Outcome.PoolGrows (o o' : Outcome) : Prop :=
  o.state.PoolGrows o'.state

/-- From one moment to the next the pool keeps its entries. -/
theorem Next.poolGrows (hn : setup.natives = .standard) (hnext : Next setup allowed o o') :
    o.PoolGrows o' :=
  (next_becomes hn hnext).poolGrows

instance : Trans Outcome.PoolGrows Outcome.PoolGrows Outcome.PoolGrows :=
  ⟨fun hfirst hsecond text r hr => hsecond text r (hfirst text r hr)⟩

/-! ## Literals -/

/-- A literal is in the pool when it has been met. -/
theorem get?_intern (s : State) (text : String) :
    (s.intern text).1.strings.get? text = some (s.intern text).2 := by
  unfold State.intern
  split
  · assumption
  · exact (Table.get?_insert _ _ _ _).trans (if_pos rfl)

/-- A literal that is in the pool leaves everything as it is. -/
theorem intern_of_pooled {text : String} {r : Nat} (hr : s.strings.get? text = some r) :
    s.intern text = (s, r) := by
  unfold State.intern
  rw [hr]

/-- A host object with a text reads as the text. -/
theorem stringOf_of_contents {r : Nat} {className text : String} {d : HostData}
    (hd : h.objects[r]? = some ⟨className, .host d⟩) (htext : d.contents? = some text) :
    h.stringOf (.object r) = .ok text := by
  unfold Heap.stringOf
  simp only [Heap.textOf_contents]
  simp [Heap.object, Value.asObject, hd, Object.contents, Object.property, Object.hostData, htext, bind,
    Except.bind, pure, Except.pure]

/-- Throughout a session of a fresh machine:

- each literal in the pool has an object of the class of strings, a host object, and no two literals have
  the same; the object reads as the literal unless the constructor of strings was called on this very
  object before and returned;
- an instruction for a literal gives the object that the pool has for the literal then, and where the pool
  has one already, the instruction changes nothing but its slot;
- the pool keeps its entries, so that an instruction for the literal gives the same object ever after. -/
theorem string_pool (p : Program) (maxDepth : Nat) (journal : Journal)
    (ops : List (Operation × Nat)) :
    let setup : Setup := { program := p, maxDepth }
    let moments := history setup { journal } ops
    (∀ before o after, moments = before ++ o :: after →
      ∀ text r, o.state.strings.get? text = some r →
        (∃ d, o.state.heap.objects[r]? = some ⟨stringClass, .host d⟩) ∧
        (∀ text', o.state.strings.get? text' = some r → text' = text) ∧
        (¬ Constructed setup before r → o.state.heap.stringOf (.object r) = .ok text)) ∧
    (∀ s frame dest text,
      (∃ s' r, exec p s frame (.constString dest text) = proceed s' (frame.write dest (.object r)) ∧
        s'.strings.get? text = some r) ∧
      ∀ r, s.strings.get? text = some r →
        exec p s frame (.constString dest text) = proceed s (frame.write dest (.object r))) ∧
    moments.Pairwise fun o o' => ∀ text r, o.state.strings.get? text = some r →
      o'.state.strings.get? text = some r := by
  intro setup moments
  have hchain : List.IsChain (Next setup fun _ => True) (.returned { journal } none :: moments) :=
    isChain_history (fun _ _ => trivial) rfl
  refine ⟨fun before o after hsplit text r hr => ?_, fun s frame dest text => ?_, ?_⟩
  · have hstart : State.Pooled (Constructed setup []) { journal } := pooled_fresh journal
    -- the state from which the session starts counts as a moment, but nothing is constructed there
    have hpooled : o.state.Pooled (Constructed setup (.returned { journal } none :: before)) :=
      track_of_isChain (T := fun before o => o.state.Pooled (Constructed setup before))
        (fun _ _ _ hnext => hnext.pooled rfl) hchain hstart (congrArg (_ :: ·) hsplit)
    obtain ⟨d, hd, hcontents⟩ := hpooled.string text r hr
    refine ⟨⟨d, hd⟩, fun text' hr' => hpooled.injective text' text r hr' hr, fun hnot => ?_⟩
    refine stringOf_of_contents hd (hcontents ?_)
    -- the state from which the session starts is no moment of a run
    rintro ⟨m, hm, hconstructs⟩
    cases List.mem_cons.1 hm with
    | inl heq => cases heq
    | inr hmem => exact hnot ⟨m, hmem, hconstructs⟩
  · refine ⟨⟨(s.intern text).1, (s.intern text).2, rfl, get?_intern s text⟩, fun r hr => ?_⟩
    rw [exec, intern_of_pooled hr]
  · have hgrows : (Outcome.returned { journal } none :: moments).Pairwise Outcome.PoolGrows :=
      (hchain.imp fun _ _ hnext => hnext.poolGrows rfl).pairwise
    exact hgrows.of_cons

/-! ## A literal that reads as something else -/

/-- A method that calls the constructor on the object of a literal, and one that returns the literal. -/
def poolSource : String := "
.class LPool;
.method static literal()Ljava/lang/String;
    .registers 1
    const-string v0, \"kept\"
    return-object v0
.end method
.method static blank()V
    .registers 3
    const-string v0, \"kept\"
    const v1, 0
    new-array v2, v1, [I
    invoke-direct {v0, v2, v1, v1}, Ljava/lang/String;-><init>([III)V
    return-void
.end method
"

namespace Pool

/-- The method that returns the literal. -/
def literalId : MethodId := ⟨"LPool;", "literal", [], .object stringClass⟩

/-- The method that calls the constructor. -/
def blankId : MethodId := ⟨"LPool;", "blank", [], .void⟩

end Pool

/-- What a call has returned with. -/
def Outcome.returned? : Outcome → Option (State × Option Value)
  | .returned s value? => some (s, value?)
  | .failed _ _ | .unfinished _ => none

/-- What has returned has returned with this. -/
theorem eq_returned_of_returned? {x : State × Option Value} (hx : o.returned? = some x) :
    o = .returned x.1 x.2 := by
  cases o with
  | returned s value? =>
    obtain rfl := Option.some.inj hx
    rfl
  | failed | unfinished => cases hx

open Pool in
/-- What the literal reads as before and after the constructor is called on its object. -/
def readings (p : Program) : Option (String × String) := do
  let literal ← p.findMethod? literalId
  let blank ← p.findMethod? blankId
  let first ← (invoke { program := p } 5 {} literal none []).returned?
  let second ← (invoke { program := p } 12 first.1 blank none []).returned?
  let third ← (invoke { program := p } 5 second.1 literal none []).returned?
  let v ← first.2
  guard (third.2 = some v)
  let before ← (first.1.heap.stringOf v).toOption
  let after ← (third.1.heap.stringOf v).toOption
  return (before, after)

set_option maxRecDepth 10000 in
/-- The literal reads as itself before, and as the empty text after. -/
theorem readings_pool :
    (loadProgram [poolSource]).toOption.bind readings = some ("kept", "") := by
  rw [loadProgram_ofTexts (show [poolSource] = List.map String.ofList [_] from rfl)]
  decide +kernel

open Pool in
/-- The constructor is called on the object of a literal. From then on the literal gives the same object as
before, but the object reads as the empty text. -/
theorem pooled_text_replaced : ∃ p literal blank s₁ s₂ s₃ v₁ v₂, loadProgram [poolSource] = .ok p ∧
    p.findMethod? literalId = some literal ∧ p.findMethod? blankId = some blank ∧
    invoke { program := p } 5 {} literal none [] = .returned s₁ (some v₁) ∧
    s₁.heap.stringOf v₁ = .ok "kept" ∧
    invoke { program := p } 12 s₁ blank none [] = .returned s₂ v₂ ∧
    invoke { program := p } 5 s₂ literal none [] = .returned s₃ (some v₁) ∧
    s₃.heap.stringOf v₁ = .ok "" := by
  obtain ⟨p, hp, h⟩ := Option.bind_eq_some_iff.1 readings_pool
  obtain ⟨literal, hliteral, h⟩ := Option.bind_eq_some_iff.1 h
  obtain ⟨blank, hblank, h⟩ := Option.bind_eq_some_iff.1 h
  obtain ⟨first, hfirst, h⟩ := Option.bind_eq_some_iff.1 h
  obtain ⟨second, hsecond, h⟩ := Option.bind_eq_some_iff.1 h
  obtain ⟨third, hthird, h⟩ := Option.bind_eq_some_iff.1 h
  obtain ⟨v, hv, h⟩ := Option.bind_eq_some_iff.1 h
  obtain ⟨_, hsame, h⟩ := Option.bind_eq_some_iff.1 h
  obtain ⟨before, hbefore, h⟩ := Option.bind_eq_some_iff.1 h
  obtain ⟨after, hafter, h⟩ := Option.bind_eq_some_iff.1 h
  obtain ⟨rfl, rfl⟩ := Prod.mk.inj (Option.some.inj h)
  -- the third call returns the value of the first one
  have hsame : third.2 = some v := by simpa [guard] using hsame
  have hfirst := eq_returned_of_returned? hfirst
  have hthird := eq_returned_of_returned? hthird
  rw [hv] at hfirst
  rw [hsame] at hthird
  exact ⟨p, literal, blank, first.1, second.1, third.1, v, second.2, ok_of_toOption hp, hliteral,
    hblank, hfirst, ok_of_toOption hbefore, eq_returned_of_returned? hsecond, hthird,
    ok_of_toOption hafter⟩

end Smali.Machine
