import Smali.Machine.Library
import Smali.Proofs.Flow

/-!
# What a line of a source can do

An accepted line makes one of a few edits to the class and to the method that are open; `Edit` lists them.
The class table is left alone by every line but the one that starts the next class, which puts the open
class into it. What holds of all tables that reading can come to is shown by going through the edits, and
what holds of all code by going through those that touch the code of the open method.

## Key results

- `Reader.accept_edit`: an accepted line makes one of the edits
- `ReadInvariant.readSources`, `ReadInvariant.loadProgram`: what the edits keep, reading any sources keeps
- `CodeInvariant.loadProgram`: a property of code that the edits lead to holds of all code that is loaded
-/

namespace Smali

/-- What a line can do to the class and to the method that are open. -/
inductive Edit : Option Class → Option Draft → Option Class → Option Draft → Prop
  /-- The line belongs to a block or is passed over. -/
  | keep (c? d?) : Edit c? d? c? d?
  | beginClass (c? flags name) (hname : ∃ text, Descriptor.parse text = .ok (.object name)) :
    Edit c? none (some { flags, name }) none
  | setSuper (c d? text type) (h : Descriptor.parse text = .ok type) :
    Edit (some c) d? (some { c with superName? := some type.text }) d?
  | addField (c d? f) (htype : ∃ text, Descriptor.parse text = .ok f.type)
    (hinitial : ∀ k, f.initial? = some k → ∃ text, Constant.parse text f.type = .ok k) :
    Edit (some c) d? (some { c with fields := c.fields.insert f.name f }) d?
  | beginMethod (c m) (hclass : m.className = c.name)
    (hbody : m.body = if m.flags.contains .isNative then .native else .code {})
    (hid : ∃ signature id, MethodId.parse (c.name.toList ++ '-' :: '>' :: signature) = .ok id ∧
      m.name = id.name ∧ m.params = id.params) :
    Edit (some c) none (some c) (some { method := m })
  | endMethod (c d m) (h : Reader.finishDraft d = .ok m) :
    Edit (some c) (some d) (some { c with methods := c.methods ++ [m] }) none
  | setRegisters (c d count) :
    Edit (some c) (some d) (some c)
      (some { d with code := { d.code with registerCount := count } })
  | addLabel (c d label) :
    Edit (some c) (some d) (some c) (some { d with
      code := { d.code with labels := d.code.labels.insert label d.code.instructions.size }
      lastLabel? := some label })
  | addTable (c d name table) :
    Edit (some c) (some d) (some c)
      (some { d with code := { d.code with switchTables := d.code.switchTables.insert name table } })
  | addInstruction (c d line i) (h : Instruction.ofLine line = .ok i) :
    Edit (some c) (some d) (some c)
      (some { d with code := { d.code with instructions := d.code.instructions.push i } })

namespace Reader

/-- The table stays as it is, and the rest is one of the edits. -/
def Edited (r r' : Reader) : Prop :=
  r'.classes = r.classes ∧ Edit r.class? r.draft? r'.class? r'.draft?

variable {r r' : Reader} {rest line : List Char}

/-! ## Changes of what is open -/

/-- A change of the class is accepted if a class is open, and does nothing else. -/
theorem withClass_ok {change : Class → Class} (h : r.withClass change = .ok r') :
    ∃ c, r.class? = some c ∧ r' = { r with class? := some (change c) } := by
  unfold withClass at h
  split at h
  · next c hc => exact ⟨c, hc, (Except.ok.inj h).symm⟩
  · cases h

/-- A change of the method is accepted if one is open in a class, and does nothing else. -/
theorem withDraft_ok {change : Draft → Except ReadError Draft} (h : r.withDraft change = .ok r') :
    ∃ c d d', r.class? = some c ∧ r.draft? = some d ∧ change d = .ok d' ∧
      r' = { r with draft? := some d' } := by
  unfold withDraft at h
  split at h
  · cases h
  · cases h
  · next c d hc hd =>
    obtain ⟨d', hd', h⟩ := Machine.bind_eq_ok.1 h
    exact ⟨c, d, d', hc, hd, hd', (Except.ok.inj h).symm⟩

/-- A change of the code is accepted if a method is open in a class, and does nothing else. -/
theorem withCode_ok {change : Code → Code} (h : r.withCode change = .ok r') :
    ∃ c d, r.class? = some c ∧ r.draft? = some d ∧
      r' = { r with draft? := some { d with code := change d.code } } := by
  obtain ⟨c, d, d', hc, hd, hd', h⟩ := withDraft_ok h
  obtain rfl := Except.ok.inj hd'
  exact ⟨c, d, hc, hd, h⟩

/-- What changes neither the class nor the method. -/
theorem edited_of_eq (hclasses : r'.classes = r.classes) (hclass : r'.class? = r.class?)
    (hdraft : r'.draft? = r.draft?) : r.Edited r' := by
  refine ⟨hclasses, ?_⟩
  rw [hclass, hdraft]
  exact .keep r.class? r.draft?

/-! ## Directives -/

/-- A line that starts a class. -/
theorem beginClass_edit (h : r.beginClass rest = .ok r') : r.Edited r' := by
  unfold beginClass at h
  split at h
  · cases h
  · next hdraft =>
    have hdraft : r.draft? = none := by simpa using hdraft
    split at h
    · cases h
    · next flags last _ =>
      obtain ⟨type, htype, h⟩ := Machine.bind_eq_ok.1 h
      split at h
      · next name =>
        obtain rfl := Except.ok.inj h
        refine ⟨rfl, ?_⟩
        rw [hdraft]
        exact .beginClass r.class? flags name ⟨last, htype⟩
      · cases h

/-- A line with a superclass. -/
theorem readSuper_edit {text : List Char} {type : Descriptor} (htype : Descriptor.parse text = .ok type)
    (h : r.withClass (fun c => { c with superName? := some type.text }) = .ok r') : r.Edited r' := by
  obtain ⟨c, hc, rfl⟩ := withClass_ok h
  refine ⟨rfl, ?_⟩
  rw [hc]
  exact .setSuper c r.draft? text type htype

/-- What is read of an optional text is the reading of the text. -/
theorem eq_some_of_mapM {f : α → Except ε β} {a? : Option α} {b : β}
    (h : a?.mapM f = .ok (some b)) : ∃ a, a? = some a ∧ f a = .ok b := by
  cases a? with
  | none => cases h
  | some a =>
    obtain ⟨b', hb, h⟩ := Machine.map_eq_ok.1 h
    exact ⟨a, rfl, Option.some.inj h ▸ hb⟩

/-- A line with a field. -/
theorem readField_edit (h : r.readField rest = .ok r') : r.Edited r' := by
  unfold readField at h
  dsimp only at h
  split at h
  · cases h
  · next flags member _ =>
    split at h
    · cases h
    · next name text _ =>
      obtain ⟨type, htype, h⟩ := Machine.bind_eq_ok.1 h
      obtain ⟨initial?, hinitial, h⟩ := Machine.bind_eq_ok.1 h
      obtain ⟨c, hc, rfl⟩ := withClass_ok h
      refine ⟨rfl, ?_⟩
      rw [hc]
      refine .addField c r.draft? ⟨flags, String.ofList name, type, initial?⟩ ⟨text, htype⟩ ?_
      -- an initial value is the reading of the text behind the equals sign
      intro k hk
      obtain rfl : initial? = some k := hk
      obtain ⟨value, _, hvalue⟩ := eq_some_of_mapM hinitial
      exact ⟨value, hvalue⟩

/-- A line that starts a method. -/
theorem beginMethod_edit (h : r.beginMethod rest = .ok r') : r.Edited r' := by
  unfold beginMethod at h
  split at h
  · cases h
  · next hdraft =>
    have hdraft : r.draft? = none := by simpa using hdraft
    split at h
    · cases h
    · cases h
    · next c flags signature hc _ =>
      obtain ⟨id, hid, h⟩ := Machine.bind_eq_ok.1 h
      obtain rfl := Except.ok.inj h
      refine ⟨rfl, ?_⟩
      rw [hc, hdraft]
      exact .beginMethod c _ rfl rfl ⟨signature, id, hid, rfl, rfl⟩

/-- A line that ends a method. -/
theorem endMethod_edit (h : r.endMethod = .ok r') : r.Edited r' := by
  unfold endMethod at h
  split at h
  · cases h
  · next d hd =>
    obtain ⟨m, hm, h⟩ := Machine.bind_eq_ok.1 h
    obtain ⟨c, hc, rfl⟩ := withClass_ok h
    have hc : r.class? = some c := hc
    refine ⟨rfl, ?_⟩
    rw [hc, hd]
    exact .endMethod c d m hm

/-- A line with a register count. -/
theorem readRegisters_edit (h : r.readRegisters rest = .ok r') : r.Edited r' := by
  obtain ⟨count, _, h⟩ := Machine.bind_eq_ok.1 h
  dsimp only at h
  split at h
  · obtain ⟨c, d, hc, hd, rfl⟩ := withCode_ok h
    refine ⟨rfl, ?_⟩
    rw [hc, hd]
    exact .setRegisters c d _
  · cases h

/-- A line that starts a switch table opens a block only. -/
theorem beginSwitch_edit (h : r.beginSwitch rest = .ok r') : r.Edited r' := by
  obtain ⟨start, _, h⟩ := Machine.bind_eq_ok.1 h
  dsimp only at h
  split at h
  · split at h
    · cases h
    · cases h
    · split at h
      · cases h
      · obtain rfl := Except.ok.inj h
        exact edited_of_eq rfl rfl rfl
  · cases h

/-- A line with a directive. -/
theorem readDirective_edit {directive : List Char} (h : r.readDirective directive = .ok r') :
    r.Edited r' := by
  unfold readDirective at h
  dsimp only at h
  split at h
  · exact beginClass_edit h
  · obtain ⟨type, htype, h⟩ := Machine.bind_eq_ok.1 h
    exact readSuper_edit htype h
  · exact readField_edit h
  · exact beginMethod_edit h
  · exact readRegisters_edit h
  · exact readRegisters_edit h
  · exact beginSwitch_edit h
  -- what starts a block leaves class and method alone
  iterate 4
    · obtain rfl := Except.ok.inj h
      exact edited_of_eq rfl rfl rfl
  · split at h
    · exact endMethod_edit h
    · obtain rfl := Except.ok.inj h
      exact edited_of_eq rfl rfl rfl

/-! ## Lines -/

/-- A line of a switch table: only the last one adds the table. -/
theorem readSwitchLine_edit {name : String} {table : SwitchTable}
    (h : r.readSwitchLine name table line = .ok r') : r.Edited r' := by
  unfold readSwitchLine at h
  split at h
  · obtain ⟨c, d, hc, hd, rfl⟩ := withCode_ok h
    -- closing the block has not touched the class and the method
    have hc : r.class? = some c := hc
    have hd : r.draft? = some d := hd
    refine ⟨rfl, ?_⟩
    rw [hc, hd]
    exact .addTable c d name table
  · split at h
    · obtain rfl := Except.ok.inj h
      exact edited_of_eq rfl rfl rfl
    · cases h

/-- A line of metadata. -/
theorem readMetadataLine_edit (r : Reader) (depth : Nat) (line : List Char) :
    r.Edited (r.readMetadataLine depth line) := by
  unfold readMetadataLine
  split
  · exact edited_of_eq rfl rfl rfl
  · split
    · exact edited_of_eq rfl rfl rfl
    · exact edited_of_eq rfl rfl rfl

/-- A line with a label. -/
theorem readLabel_edit {label : List Char} (h : r.readLabel label = .ok r') : r.Edited r' := by
  obtain ⟨c, d, d', hc, hd, hd', rfl⟩ := withDraft_ok h
  obtain rfl := Except.ok.inj hd'
  refine ⟨rfl, ?_⟩
  rw [hc, hd]
  exact .addLabel c d _

/-- A line with an instruction. -/
theorem readInstruction_edit (h : r.readInstruction line = .ok r') : r.Edited r' := by
  obtain ⟨i, hi, h⟩ := Machine.bind_eq_ok.1 h
  obtain ⟨c, d, hc, hd, rfl⟩ := withCode_ok h
  refine ⟨rfl, ?_⟩
  rw [hc, hd]
  exact .addInstruction c d line i hi

/-- An accepted line makes one of the edits. -/
theorem accept_edit (h : r.accept line = .ok r') : r.Edited r' := by
  unfold accept at h
  -- a line belongs to the open block, or it is a directive, a label or an instruction
  split at h
  · exact readSwitchLine_edit h
  · obtain rfl := Except.ok.inj h
    exact readMetadataLine_edit r _ line
  · obtain rfl := Except.ok.inj h
    split
    · exact edited_of_eq rfl rfl rfl
    · exact edited_of_eq rfl rfl rfl
  · split at h
    · exact readDirective_edit h
    · exact readLabel_edit h
    · exact readInstruction_edit h

end Reader

/-! ## Invariants of reading -/

/-- A property of class tables, and one of readers, that reading keeps. -/
structure ReadInvariant (tables : ClassTable → Prop) (inv : Reader → Prop) : Prop where
  start : ∀ t journal, tables t → inv { classes := t, journal }
  edit : ∀ r r', inv r → r.Edited r' → inv r'
  commit : ∀ r, inv r → inv r.commit
  table : ∀ r, inv r → tables r.classes

namespace ReadInvariant

variable {tables : ClassTable → Prop} {inv : Reader → Prop} {r : Reader}

/-- Settling a line keeps the property. -/
theorem settle (hinv : ReadInvariant tables inv) (h : inv r) (line : List Char) :
    inv (r.settle line) := by
  unfold Reader.settle
  split
  · exact hinv.commit r h
  · exact h

/-- A line keeps the property, be it right or wrong. -/
theorem readLine (hinv : ReadInvariant tables inv) (h : inv r) (line : List Char) :
    inv (r.readLine line).1 := by
  -- counting the line is no edit of what is open
  have hcounted : inv { r with line := r.line + 1 } :=
    hinv.edit r _ h (Reader.edited_of_eq rfl rfl rfl)
  unfold Reader.readLine
  dsimp only
  split
  · exact hcounted
  -- a line that is refused has settled the class before it all the same
  · have hsettled := hinv.settle hcounted (Text.trim (stripComment line))
    split
    · next r' hr => exact hinv.edit _ r' hsettled (Reader.accept_edit hr)
    · exact hsettled

/-- Lines keep the property, up to the first that is wrong. -/
theorem readLines (hinv : ReadInvariant tables inv) (h : inv r) (lines : List (List Char)) :
    inv (r.readLines lines).1 := by
  -- the induction is on the lines; the first that is wrong ends the reading
  induction lines generalizing r with
  | nil => exact h
  | cons line rest ih =>
    have hline := hinv.readLine h line
    unfold Reader.readLines
    split
    · next r' hr =>
      rw [hr] at hline
      exact ih hline
    · next r' e hr =>
      rw [hr] at hline
      exact hline

/-- The end of a source keeps the property. -/
theorem finish (hinv : ReadInvariant tables inv) (h : inv r) : inv r.finish.1 := by
  unfold Reader.finish
  split
  · exact h
  · split
    · exact h
    · exact hinv.commit r h

/-- A source leads from a table with the property to one with the property. -/
theorem readSource (hinv : ReadInvariant tables inv) {t : ClassTable} (h : tables t)
    (journal : Journal) (source : String) : tables (t.readSource journal source).classes := by
  have hlines := hinv.readLines (hinv.start t journal h) (Text.lines source.toList)
  unfold ClassTable.readSource
  dsimp only
  -- the lines may be wrong, or all right and followed by the end
  split
  · next r hr =>
    rw [hr] at hlines
    exact hinv.table _ (hinv.finish hlines)
  · next r e hr =>
    rw [hr] at hlines
    exact hinv.table _ hlines

/-- What the edits keep, reading any sources keeps. -/
theorem readSources (hinv : ReadInvariant tables inv) {t t' : ClassTable} {journal : Journal}
    {sources : List String} (h : tables t) (ht : t.readSources journal sources = .ok t') :
    tables t' := by
  -- the induction is on the sources, each read into the table that the ones before have left
  induction sources generalizing t journal with
  | nil =>
    obtain rfl := Except.ok.inj ht
    exact h
  | cons source rest ih =>
    have hsource := hinv.readSource h journal source
    unfold ClassTable.readSources at ht
    split at ht
    · next hread =>
      rw [hread] at hsource
      exact ih hsource ht
    · cases ht

/-- So a program is frozen from a table with that property. -/
theorem loadProgram (hinv : ReadInvariant tables inv) (h : tables {}) {sources : List String}
    {p : Program} (hp : Machine.loadProgram sources = .ok p) : ∃ t, tables t ∧ p = t.freeze := by
  obtain ⟨t, ht, hp⟩ := Machine.bind_eq_ok.1 hp
  exact ⟨t, hinv.readSources h ht, (Except.ok.inj hp).symm⟩

end ReadInvariant

/-! ## Properties of code -/

/-- A property of code that is being read, which the edits keep, and one that it gives at the end. -/
structure CodeInvariant (begun whole : Code → Prop) : Prop where
  empty : begun {}
  setRegisters : ∀ c count, begun c → begun { c with registerCount := count }
  addLabel : ∀ c label, begun c →
    begun { c with labels := c.labels.insert label c.instructions.size }
  addTable : ∀ c name table, begun c →
    begun { c with switchTables := c.switchTables.insert name table }
  addInstruction : ∀ c line i, Instruction.ofLine line = .ok i → begun c →
    begun { c with instructions := c.instructions.push i }
  finish : ∀ c, begun c → c.undefinedLabel? = none → whole c

/-- All methods that are finished have code with the one property, the method that is open has code with
the other. -/
structure Reader.CodeAll (begun whole : Code → Prop) (r : Reader) : Prop where
  table : ∀ c ∈ r.classes.values, ∀ m ∈ c.methods, m.CodeAll whole
  openClass : ∀ c, r.class? = some c → ∀ m ∈ c.methods, m.CodeAll whole
  openMethod : ∀ d, r.draft? = some d → begun d.code

namespace CodeInvariant

variable {begun whole : Code → Prop} {r r' : Reader}

/-- A method that is finished has the property that the code has at the end. -/
theorem finishDraft (hinv : CodeInvariant begun whole) {d : Draft} {m : Method}
    (hd : begun d.code) (hm : Reader.finishDraft d = .ok m) : m.CodeAll whole := by
  unfold Reader.finishDraft at hm
  split at hm
  · next hnative =>
    split at hm
    · obtain rfl := Except.ok.inj hm
      -- a method of the host has no code
      intro code hcode
      simp [Method.isNative, hcode] at hnative
    · cases hm
  · split at hm
    · cases hm
    · next hlabels =>
      obtain rfl := Except.ok.inj hm
      intro code hcode
      obtain rfl := Body.code.inj hcode
      exact hinv.finish d.code hd hlabels

/-- Each edit keeps both properties. -/
theorem edit (hinv : CodeInvariant begun whole) {c? c?' : Option Class} {d? d?' : Option Draft}
    (he : Edit c? d? c?' d?') (hclass : ∀ c, c? = some c → ∀ m ∈ c.methods, m.CodeAll whole)
    (hdraft : ∀ d, d? = some d → begun d.code) :
    (∀ c, c?' = some c → ∀ m ∈ c.methods, m.CodeAll whole) ∧ ∀ d, d?' = some d → begun d.code := by
  cases he with
  | keep => exact ⟨hclass, hdraft⟩
  | beginClass _ flags name =>
    refine ⟨fun c hc => ?_, nofun⟩
    obtain rfl := Option.some.inj hc
    exact fun m hm => absurd hm List.not_mem_nil
  | setSuper c _ _ type | addField c _ f =>
    refine ⟨fun c' hc' => ?_, hdraft⟩
    obtain rfl := Option.some.inj hc'
    exact hclass c rfl
  | beginMethod c m =>
    refine ⟨hclass, fun d hd => ?_⟩
    obtain rfl := Option.some.inj hd
    exact hinv.empty
  | endMethod c d m hm =>
    refine ⟨fun c' hc' => ?_, nofun⟩
    obtain rfl := Option.some.inj hc'
    intro m' hm'
    -- the methods from before, and the one that is finished
    cases List.mem_append.1 hm' with
    | inl hold => exact hclass c rfl m' hold
    | inr hnew => exact List.mem_singleton.1 hnew ▸ hinv.finishDraft (hdraft d rfl) hm
  | setRegisters c d count =>
    refine ⟨hclass, fun d' hd' => ?_⟩
    obtain rfl := Option.some.inj hd'
    exact hinv.setRegisters d.code count (hdraft d rfl)
  | addLabel c d label =>
    refine ⟨hclass, fun d' hd' => ?_⟩
    obtain rfl := Option.some.inj hd'
    exact hinv.addLabel d.code label (hdraft d rfl)
  | addTable c d name table =>
    refine ⟨hclass, fun d' hd' => ?_⟩
    obtain rfl := Option.some.inj hd'
    exact hinv.addTable d.code name table (hdraft d rfl)
  | addInstruction c d line i hi =>
    refine ⟨hclass, fun d' hd' => ?_⟩
    obtain rfl := Option.some.inj hd'
    exact hinv.addInstruction d.code line i hi (hdraft d rfl)

/-- The class that goes into the table takes its methods there. -/
theorem commit (h : r.CodeAll begun whole) : r.commit.CodeAll begun whole := by
  unfold Reader.commit
  split
  · next c hc =>
    refine ⟨fun c' hc' => ?_, nofun, h.openMethod⟩
    cases Table.mem_values_insert hc' with
    | inl hold => exact h.table c' hold
    | inr hnew => exact hnew ▸ h.openClass c hc
  · exact h

/-- Reading keeps the properties. -/
theorem readInvariant (hinv : CodeInvariant begun whole) :
    ReadInvariant (fun t => ∀ c ∈ t.values, ∀ m ∈ c.methods, m.CodeAll whole)
      (Reader.CodeAll begun whole) where
  start _ _ h := ⟨h, nofun, nofun⟩
  edit r r' h he := by
    obtain ⟨hclass, hdraft⟩ := hinv.edit he.2 h.openClass h.openMethod
    exact ⟨he.1 ▸ h.table, hclass, hdraft⟩
  commit _ := commit
  table _ h := h.table

/-- So the code of every method of a program that is loaded has the property. -/
theorem loadProgram (hinv : CodeInvariant begun whole) {sources : List String} {p : Program}
    (h : Machine.loadProgram sources = .ok p) {m : Method} (hm : p.HasMethod m) : m.CodeAll whole := by
  have hempty : ∀ c ∈ ({} : ClassTable).values, ∀ m ∈ c.methods, m.CodeAll whole :=
    fun c hc => absurd hc List.not_mem_nil
  obtain ⟨t, ht, rfl⟩ := hinv.readInvariant.loadProgram hempty h
  obtain ⟨c, hc, hm⟩ := hm
  -- the methods of a program are those of the classes in its table
  unfold ClassTable.freeze at hc
  rw [List.mem_toArray, List.mem_mapIdx] at hc
  obtain ⟨i, hi, rfl⟩ := hc
  exact ht t.values[i] (List.getElem_mem hi) m hm

end CodeInvariant

end Smali
