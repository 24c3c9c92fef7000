import Smali.Proofs.IdentifierTexts
import Smali.Proofs.LibraryMethods

/-!
# The keys of host methods

The key of a host method is one text without any quoting, and a class or a method may have the separators
in its name: the class `La->b;` has methods like `b;->c`, since the first arrow of `La->b;->c()V` is taken
for the one behind the class. Still no two methods share a key. A class name that was read ends at its only
semicolon, the name of a method has no opening parenthesis, and a list of types falls apart in one way, so
each part of a key can be read off it (`hostKey_inj`). What is registered for a method is then found for
that method and for no other.

## Key results

- `spelled_invariant`: what the reader makes sure of in the parts of a key
- `Method.Spelled.hostKey_inj`: a key tells class, name and parameters
- `Machine.host_lookup`: a registration is seen by the methods with its class, name and parameters only
-/

namespace Smali

/-! ## What the reader makes sure of -/

/-- The parts of the key of the method end where they can be seen to end. -/
structure Method.Spelled (m : Method) : Prop where
  className : (Descriptor.object m.className).WellFormed
  name : '(' ∉ m.name.toList
  params : ∀ d ∈ m.params, d.WellFormed

/-- The name of the class is a full descriptor, and its methods are spelled so. -/
structure Class.Spelled (c : Class) : Prop where
  name : (Descriptor.object c.name).WellFormed
  methods : ∀ m ∈ c.methods, m.Spelled

/-- All that was read so far is spelled so. -/
structure Reader.Spelled (r : Reader) : Prop where
  table : ∀ c ∈ r.classes.values, c.Spelled
  openClass : ∀ c, r.class? = some c → c.Spelled
  draft : ∀ d, r.draft? = some d → d.method.Spelled

/-- The end of a method changes nothing but its body. -/
theorem Method.Spelled.finishDraft {d : Draft} (h : d.method.Spelled) {m : Method}
    (hm : Reader.finishDraft d = .ok m) : m.Spelled := by
  obtain ⟨body, rfl⟩ := Reader.header_of_finishDraft hm
  exact ⟨h.className, h.name, h.params⟩

/-- A method is begun with the name and the parameters of an identifier, under the name of its class. -/
theorem Class.Spelled.beginMethod {c : Class} (h : c.Spelled) {m : Method} (hclass : m.className = c.name)
    {text : List Char} {id : MethodId} (hid : MethodId.parse text = .ok id) (hname : m.name = id.name)
    (hparams : m.params = id.params) : m.Spelled := by
  have hreadable := (MethodId.parse_eq_ok_iff.1 hid).1
  refine ⟨?_, ?_, ?_⟩
  · rw [hclass]
    exact h.name
  · rw [hname]
    exact hreadable.name_free
  · rw [hparams]
    exact hreadable.params

/-- One line keeps it that way. -/
theorem Edit.spelled {c? c?' : Option Class} {d? d?' : Option Draft} (he : Edit c? d? c?' d?')
    (hclass : ∀ c, c? = some c → c.Spelled) (hdraft : ∀ d, d? = some d → d.method.Spelled) :
    (∀ c, c?' = some c → c.Spelled) ∧ ∀ d, d?' = some d → d.method.Spelled := by
  -- one case for each way in which a line changes what is open
  cases he with
  | keep => exact ⟨hclass, hdraft⟩
  | beginClass _ flags name hname =>
    obtain ⟨text, htext⟩ := hname
    refine ⟨?_, hdraft⟩
    rintro c ⟨⟩
    exact ⟨(Descriptor.parse_eq_ok_iff.1 htext).1, fun m hm => by cases hm⟩
  | setSuper c | addField c =>
    refine ⟨?_, hdraft⟩
    rintro c' ⟨⟩
    exact ⟨(hclass c rfl).name, (hclass c rfl).methods⟩
  | beginMethod c m hname _ hid =>
    obtain ⟨signature, id, hid, hsame, hparams⟩ := hid
    refine ⟨hclass, ?_⟩
    rintro d ⟨⟩
    exact (hclass c rfl).beginMethod hname hid hsame hparams
  | endMethod c d m hm =>
    refine ⟨?_, fun d' hd => by cases hd⟩
    rintro c' ⟨⟩
    refine ⟨(hclass c rfl).name, fun m' hm' => ?_⟩
    -- the method that is finished comes to those of the class
    rcases List.mem_append.1 hm' with hold | hnew
    · exact (hclass c rfl).methods m' hold
    · rw [List.mem_singleton.1 hnew]
      exact (hdraft d rfl).finishDraft hm
  | setRegisters c d | addLabel c d | addTable c d | addInstruction c d =>
    refine ⟨hclass, ?_⟩
    rintro d' ⟨⟩
    exact hdraft d rfl

/-- Reading keeps that the parts of keys end where they can be seen to end. -/
theorem spelled_invariant : ReadInvariant (fun t => ∀ c ∈ t.values, c.Spelled) Reader.Spelled where
  start _ _ h := ⟨h, fun _ hc => (by cases hc), fun _ hd => (by cases hd)⟩
  edit r r' h he := by
    obtain ⟨hclass, hdraft⟩ := he.2.spelled h.openClass h.draft
    exact ⟨he.1 ▸ h.table, hclass, hdraft⟩
  commit r h := by
    unfold Reader.commit
    split
    · next c hc =>
      refine ⟨fun c' hc' => ?_, fun _ hc' => (by cases hc'), h.draft⟩
      cases Table.mem_values_insert hc' with
      | inl hold => exact h.table c' hold
      | inr hnew => exact hnew ▸ h.openClass c hc
    · exact h
  table _ h := h.table

/-! ## Reading a key -/

/-- Texts that go on behind the first mark of a kind agree in front of it and behind it. -/
theorem Text.append_cons_inj {mark : Char} {front front' behind behind' : List Char}
    (hfront : mark ∉ front) (hfront' : mark ∉ front')
    (h : front ++ mark :: behind = front' ++ mark :: behind') : front = front' ∧ behind = behind' := by
  have hcut := Text.cutAt_eq_some_iff.2 ⟨h, hfront'⟩
  rw [Text.cutAt_eq_some_iff.2 ⟨rfl, hfront⟩] at hcut
  exact Prod.mk.inj (Option.some.inj hcut)

/-- A key is read from its front: the class up to the first semicolon, then behind the arrow the name up to
the first parenthesis, then the parameters, which the reader takes apart. -/
theorem Method.Spelled.hostKey_inj {m m' : Method} (h : m.Spelled) (h' : m'.Spelled)
    (hkey : m.hostKey = m'.hostKey) :
    m.className = m'.className ∧ m.name = m'.name ∧ m.params = m'.params := by
  obtain ⟨inner, -, hend, hclass⟩ := h.className
  obtain ⟨inner', -, hend', hclass'⟩ := h'.className
  have hlists := congrArg String.toList hkey
  rw [Method.hostKey, Method.hostKey, Machine.toList_key, Machine.toList_key, hclass, hclass'] at hlists
  simp only [List.cons_append, List.append_assoc, List.nil_append] at hlists
  -- no semicolon stands in the class name but the last character
  obtain ⟨hinner, hrest⟩ := Text.append_cons_inj hend hend' (List.cons.inj hlists).2
  have hrest := (List.cons.inj (List.cons.inj hrest).2).2
  obtain ⟨hname, hparams⟩ := Text.append_cons_inj h.name h'.name hrest
  have hparams := List.append_cancel_right hparams
  refine ⟨?_, String.toList_inj.1 hname, ?_⟩
  · rw [← String.toList_inj, hclass, hclass', hinner]
  -- the text of the parameters is read as one list only
  · have hread := Descriptor.parseList_listText h.params
    rw [hparams, Descriptor.parseList_listText h'.params] at hread
    exact (Except.ok.inj hread).symm

namespace Machine

/-- The methods of a loaded program are spelled as the reader makes sure of. -/
theorem spelled_of_hasMethod {sources : List String} {p : Program} (hp : loadProgram sources = .ok p)
    {m : Method} (hm : p.HasMethod m) : m.Spelled := by
  obtain ⟨t, ht, rfl⟩ := spelled_invariant.loadProgram (fun c hc => by cases hc) hp
  obtain ⟨c, hc, hm⟩ := hm
  have hmem : c.toClass ∈ t.values := by
    rw [← ClassTable.map_toClass_freeze]
    exact List.mem_map.2 ⟨c, Array.mem_toList_iff.2 hc, rfl⟩
  exact (ht c.toClass hmem).methods m hm

/-- What is registered under a key is found by the methods with that key, and only by them. -/
theorem find?_register (n : Natives) (m m' : Method) (host : HostMethod) :
    (n.register m.className m.name (Descriptor.listText m.params) host).find?
        m'.className m'.name m'.params =
      if m'.hostKey = m.hostKey then some host else n.find? m'.className m'.name m'.params := by
  unfold Natives.register Natives.find?
  rw [Table.get?_insert]
  rfl

/-! ## Lookup -/

/-- Two methods of loaded programs have one key exactly if they agree in class, name and parameters. So a
host method that is registered for one of them is found for it, and for every method that differs in one of
the three a registry finds what it found before. -/
theorem host_lookup {sources sources' : List String} {p p' : Program}
    (hp : loadProgram sources = .ok p) (hp' : loadProgram sources' = .ok p') {m m' : Method}
    (hm : p.HasMethod m) (hm' : p'.HasMethod m') :
    (m.hostKey = m'.hostKey ↔
      m.className = m'.className ∧ m.name = m'.name ∧ m.params = m'.params) ∧
    ∀ (n : Natives) (host : HostMethod),
      (n.register m.className m.name (Descriptor.listText m.params) host).find?
        m.className m.name m.params = some host ∧
      (¬ (m.className = m'.className ∧ m.name = m'.name ∧ m.params = m'.params) →
        (n.register m.className m.name (Descriptor.listText m.params) host).find?
            m'.className m'.name m'.params =
          n.find? m'.className m'.name m'.params) := by
  have hkey : m.hostKey = m'.hostKey ↔
      m.className = m'.className ∧ m.name = m'.name ∧ m.params = m'.params := by
    constructor
    · exact (spelled_of_hasMethod hp hm).hostKey_inj (spelled_of_hasMethod hp' hm')
    · rintro ⟨hclass, hname, hparams⟩
      unfold Method.hostKey
      rw [hclass, hname, hparams]
  refine ⟨hkey, fun n host => ⟨?_, fun hother => ?_⟩⟩
  · rw [find?_register, if_pos rfl]
  · rw [find?_register, if_neg]
    exact fun hsame => hother (hkey.1 hsame.symm)

/-- A source with arrows in the name of a class and in those of its methods. -/
def arrowSource : String := "
.class La->b;
.method native c(I)V
.end method
.class La;
.method native b;->c(I)V
.end method
"

set_option maxRecDepth 10000 in
/-- Both methods of that source are `b;->c`, the one of `La->b;` and the other of `La;`; what is registered
for the first is not found for the second. -/
theorem arrows_told_apart : ∃ p m m', loadProgram [arrowSource] = .ok p ∧ p.HasMethod m ∧
    p.HasMethod m' ∧ m.name = "b;->c" ∧ m'.name = m.name ∧ m'.params = m.params ∧
    m.hostKey ≠ m'.hostKey ∧ ∀ (n : Natives) (host : HostMethod),
      (n.register m.className m.name (Descriptor.listText m.params) host).find?
        m.className m.name m.params = some host ∧
      (n.register m.className m.name (Descriptor.listText m.params) host).find?
          m'.className m'.name m'.params =
        n.find? m'.className m'.name m'.params := by
  let flags := Flags.ofWords ["native"]
  have hfound : ((loadProgram [arrowSource]).toOption.map fun p =>
      p.classes.toList.flatMap (·.methods) |>.reverse.take 2) =
        some [⟨"La;", "b;->c", flags, [.int], .void, .native⟩,
          ⟨"La->b;", "b;->c", flags, [.int], .void, .native⟩] := by
    rw [loadProgram_ofTexts (show [arrowSource] = List.map String.ofList [_] from rfl)]
    decide +kernel
  obtain ⟨p, hp, hlast⟩ := Option.map_eq_some_iff.1 hfound
  -- the two are the last methods of the program
  have hmem : ∀ m ∈ (p.classes.toList.flatMap (·.methods)).reverse.take 2, p.HasMethod m := by
    intro m hm
    obtain ⟨c, hc, hm⟩ := List.mem_flatMap.1 (List.mem_reverse.1 (List.mem_of_mem_take hm))
    exact ⟨c, Array.mem_toList_iff.1 hc, hm⟩
  rw [hlast, List.forall_mem_cons, List.forall_mem_singleton] at hmem
  have hload := ok_of_toOption hp
  obtain ⟨hkey, hlookup⟩ := host_lookup hload hload hmem.2 hmem.1
  have hother : ¬ ("La->b;" = "La;" ∧ "b;->c" = "b;->c" ∧ [Descriptor.int] = [.int]) := by decide
  refine ⟨p, _, _, hload, hmem.2, hmem.1, rfl, rfl, rfl, fun h => hother (hkey.1 h), fun n host => ?_⟩
  exact ⟨(hlookup n host).1, (hlookup n host).2 hother⟩

end Machine

end Smali
