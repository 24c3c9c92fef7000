import Smali.Proofs.Lines

/-!
# Programs that are read from sources

A method comes into a class only at its end, where its labels are checked. So in every class that reading
puts into the table, every label and every switch table that an instruction names is there, and a label
stands for a place inside of its code or right behind it.

## Key results

- `checked_invariant`: the lines of a source keep that
- `loadProgram_checked`: so it holds of every method of a program that is loaded
-/

namespace Smali

/-! ## Checked methods -/

/-- A label stands for a place in the code or right behind it. -/
def Code.LabelsWithin (c : Code) : Prop :=
  ∀ label pc, c.labels.get? label = some pc → pc ≤ c.instructions.size

/-- Nothing is missing from the code that its instructions and switch tables name. -/
structure Code.Checked (c : Code) : Prop where
  complete : c.undefinedLabel? = none
  within : c.LabelsWithin

/-- The code of a method is checked, if it has any. -/
def Method.Checked (m : Method) : Prop :=
  ∀ code, m.body = .code code → code.Checked

/-- In checked code all names are there for each instruction. -/
theorem Code.Checked.defines {c : Code} (h : c.Checked) {i : Instruction} (hi : i ∈ c.instructions) :
    Machine.Defines c i := by
  obtain ⟨hinstructions, htables⟩ := Option.or_eq_none_iff.1 h.complete
  refine ⟨List.findSome?_eq_none_iff.1 hinstructions i (Array.mem_toList_iff.2 hi), ?_⟩
  intro name t ht label hlabel
  have hfind := List.findSome?_eq_none_iff.1 htables t (Table.mem_values_of_get? ht)
  simpa using List.find?_eq_none.1 hfind label hlabel

/-! ## The reader -/

/-- A label is set behind the instructions read so far. -/
theorem labelsWithin_addLabel {code : Code} (h : code.LabelsWithin) (label : String) :
    { code with labels := code.labels.insert label code.instructions.size }.LabelsWithin := by
  intro label' pc hpc
  dsimp only at hpc ⊢
  rw [Table.get?_insert] at hpc
  split at hpc
  · exact Nat.le_of_eq (Option.some.inj hpc).symm
  · exact h label' pc hpc

/-- Another instruction moves the end of the code away from the labels. -/
theorem labelsWithin_push {code : Code} (h : code.LabelsWithin) (i : Instruction) :
    { code with instructions := code.instructions.push i }.LabelsWithin := by
  intro label pc hpc
  have hle := h label pc hpc
  simp only [Array.size_push]
  omega

/-- While code is read its labels are set inside of it; at its end it is looked for missing ones. -/
theorem checked_invariant : CodeInvariant Code.LabelsWithin Code.Checked where
  empty label pc hpc := by cases hpc
  setRegisters _ _ h := h
  addLabel _ label h := labelsWithin_addLabel h label
  addTable _ _ _ h := h
  addInstruction _ _ i _ h := labelsWithin_push h i
  finish _ h hlabels := ⟨hlabels, h⟩

/-- Every method of a program that is loaded from sources is checked. -/
theorem loadProgram_checked {sources : List String} {p : Program}
    (h : Machine.loadProgram sources = .ok p) {m : Method} (hm : p.HasMethod m) : m.Checked :=
  checked_invariant.loadProgram h hm

/-! ## Concrete sources

A concrete source is best evaluated on its characters: the way from a long literal to its characters is
what takes time. -/

/-- Reads a source that is given as its characters. -/
def ClassTable.readText (t : ClassTable) (journal : Journal) (text : List Char) : ReadResult :=
  let (r, error?) :=
    match ({ classes := t, journal } : Reader).readLines (Text.lines text) with
    | (r, none) => r.finish
    | (r, some e) => (r, some e)
  ⟨r.classes, r.journal, error?⟩

/-- Reads sources that are given as their characters. -/
def ClassTable.readTexts (t : ClassTable) (journal : Journal) :
    List (List Char) → Except ReadError ClassTable
  | [] => .ok t
  | text :: rest =>
    match t.readText journal text with
    | ⟨t, journal, none⟩ => readTexts t journal rest
    | ⟨_, _, some e⟩ => .error e

/-- Reading a source is reading its characters. -/
theorem readSource_ofList (t : ClassTable) (journal : Journal) (text : List Char) :
    t.readSource journal (String.ofList text) = t.readText journal text := by
  unfold ClassTable.readSource
  rw [String.toList_ofList]
  rfl

/-- So is reading several sources. -/
theorem readSources_map_ofList (t : ClassTable) (journal : Journal) (texts : List (List Char)) :
    t.readSources journal (texts.map String.ofList) = t.readTexts journal texts := by
  induction texts generalizing t journal with
  | nil => rfl
  | cons text rest ih =>
    rw [List.map_cons, ClassTable.readSources, ClassTable.readTexts, readSource_ofList]
    obtain ⟨t', journal', error?⟩ := t.readText journal text
    cases error? with
    | none => exact ih t' journal'
    | some e => rfl

set_option maxRecDepth 100000 in
/-- The characters of the standard library. -/
noncomputable def libraryText : { text : List Char // Machine.standardLibrary = String.ofList text } :=
  ⟨_, rfl⟩

/-- Sources that are written out are loaded from their characters, and so is the standard library. -/
theorem loadProgram_ofTexts {sources : List String} {texts : List (List Char)}
    (h : sources = texts.map String.ofList) :
    Machine.loadProgram sources =
      (ClassTable.readTexts {} {} (libraryText.1 :: texts)).map ClassTable.freeze := by
  have hall : Machine.standardLibrary :: sources = (libraryText.1 :: texts).map String.ofList := by
    rw [List.map_cons, ← libraryText.2, h]
  rw [Machine.loadProgram, hall, readSources_map_ofList]
  -- the library is not to be read here
  generalize ClassTable.readTexts {} {} (libraryText.1 :: texts) = result
  cases result <;> rfl

/-- The class with a name, in a program that is loaded from sources. -/
def loadClass? (sources : List String) (name : String) : Option LoadedClass :=
  (Machine.loadProgram sources).toOption.bind (·.find? name)

/-- Only a computation that succeeds has a result. -/
theorem ok_of_toOption {x : Except ε α} {a : α} (h : x.toOption = some a) : x = .ok a := by
  cases x with
  | ok a' => exact congrArg Except.ok (Option.some.inj h)
  | error e => cases h

/-- A class that is found is a class of the program. -/
theorem loadClass?_eq_some {sources : List String} {name : String} {c : LoadedClass}
    (h : loadClass? sources name = some c) :
    ∃ p, Machine.loadProgram sources = .ok p ∧ p.find? name = some c := by
  obtain ⟨p, hp, hc⟩ := Option.bind_eq_some_iff.1 h
  exact ⟨p, ok_of_toOption hp, hc⟩

end Smali
