import Mathlib.Data.List.Find
import Smali.Proofs.Names
import Smali.Proofs.Reading

/-!
# Numbers of classes

Freezing a table numbers its classes in the order in which their names came up, and a superclass link is
the number of the class with that name. So what a program is follows from the classes that its sources
define: each class is the last with its name, and the numbers come from the order of the names alone.

## Key results

- `ClassTable.readSources_ok_iff`: sources are read exactly if each is right, and then add what they define
- `ClassTable.keys_addAll_empty`: the names come in the order in which they came up
- `ClassTable.toClass_find?`, `ClassTable.id_find?`: the class under a name, and its number
-/

namespace Smali

namespace ClassTable

/-! ## Tables of classes -/

/-- Classes that are added stand under their names. -/
theorem named_addAll {t : ClassTable} (h : t.Named) (cs : List Class) : (t.addAll cs).Named := by
  induction cs using List.reverseRecOn with
  | nil => exact h
  | append_singleton cs c ih =>
    rw [addAll_concat]
    exact named_insert ih c

/-- No name comes twice. -/
theorem nodup_keys_addAll {t : ClassTable} (h : t.keys.Nodup) (cs : List Class) :
    (t.addAll cs).keys.Nodup := by
  induction cs using List.reverseRecOn with
  | nil => exact h
  | append_singleton cs c ih =>
    rw [addAll_concat]
    exact Table.nodup_keys_insert ih c.name c

/-- A name that has come up before is dropped. -/
theorem eraseDups_concat (names : List String) (name : String) :
    (names ++ [name]).eraseDups =
      if name ∈ names then names.eraseDups else names.eraseDups ++ [name] := by
  rw [List.eraseDups_append, List.removeAll]
  split
  · next h => simp [h]
  · next h => simp [h, List.eraseDups_cons]

/-- The names come in the order in which they came up. -/
theorem keys_addAll_empty (cs : List Class) :
    (addAll {} cs).keys = (cs.map (·.name)).eraseDups := by
  -- the classes are added one by one at the end
  induction cs using List.reverseRecOn with
  | nil => rfl
  | append_singleton cs c ih =>
    rw [addAll_concat, Table.keys_insert, ih, List.map_append, List.map_singleton, eraseDups_concat]
    simp only [List.mem_eraseDups]

/-! ## Sources in a row -/

/-- A source that is right adds its classes, and the rest is read. -/
theorem readSources_cons {source : String} {cs : List Class} (h : sourceClasses? source = some cs)
    (t : ClassTable) (journal : Journal) (rest : List String) :
    t.readSources journal (source :: rest) =
      readSources (t.addAll cs) (t.readSource journal source).journal rest := by
  obtain ⟨hnone, hclasses⟩ := readSource_eq h t journal
  rw [readSources]
  split
  · next hread =>
    rw [hread] at hclasses ⊢
    rw [← hclasses]
  · next hread =>
    rw [hread] at hnone
    cases hnone

/-- A source that is not right is refused. -/
theorem readSources_cons_refused {source : String} (h : sourceClasses? source = none)
    (t : ClassTable) (journal : Journal) (rest : List String) :
    ∃ e, t.readSources journal (source :: rest) = .error e := by
  obtain ⟨e, he⟩ := readSource_refused h t journal
  rw [readSources]
  split
  · next hread =>
    rw [hread] at he
    cases he
  · exact ⟨_, rfl⟩

/-- Sources are read exactly if each is right, and then they add the classes they define, in order. -/
theorem readSources_ok_iff {t t' : ClassTable} {journal : Journal} {sources : List String} :
    t.readSources journal sources = .ok t' ↔
      (∀ source ∈ sources, (sourceClasses? source).isSome) ∧
        t' = t.addAll (sources.flatMap sourceClasses) := by
  -- the induction is on the sources, with the table so far
  induction sources generalizing t journal with
  | nil =>
    constructor
    · intro h
      exact ⟨fun _ hmem => absurd hmem List.not_mem_nil, (Except.ok.inj h).symm⟩
    · rintro ⟨-, rfl⟩
      rfl
  | cons source rest ih =>
    rw [List.forall_mem_cons, List.flatMap_cons, addAll_append]
    cases hsource : sourceClasses? source with
    | none =>
      obtain ⟨e, he⟩ := readSources_cons_refused hsource t journal rest
      simp [he]
    | some cs =>
      rw [readSources_cons hsource, ih, sourceClasses, hsource]
      simp

/-! ## Frozen tables -/

variable {t : ClassTable}

theorem named_empty : ClassTable.Named {} := fun _ he => absurd he List.not_mem_nil

/-- A class of the program is one of the table, with its place and the place of its superclass. -/
theorem getElem?_freeze (t : ClassTable) (i : Nat) :
    t.freeze.classes[i]? =
      t.values[i]?.map fun c => { c with id := i, superId? := c.superName?.bind t.id? } := by
  simp [freeze]

/-- Classes are numbered by their places. -/
theorem id_of_getElem?_freeze {i : Nat} {c : LoadedClass} (h : t.freeze.classes[i]? = some c) :
    c.id = i := by
  rw [getElem?_freeze] at h
  obtain ⟨c', -, rfl⟩ := Option.map_eq_some_iff.1 h
  rfl

/-- A superclass link is the number of the class with that name. -/
theorem superId?_freeze {c : LoadedClass} (h : c ∈ t.freeze.classes) :
    c.superId? = c.superName?.bind t.id? := by
  obtain ⟨i, hi⟩ := Array.getElem?_of_mem h
  rw [getElem?_freeze] at hi
  obtain ⟨c', -, rfl⟩ := Option.map_eq_some_iff.1 hi
  rfl

theorem map_toClass_freeze (t : ClassTable) : t.freeze.classes.toList.map (·.toClass) = t.values := by
  refine List.ext_getElem? fun i => ?_
  rw [List.getElem?_map, Array.getElem?_toList, getElem?_freeze, Option.map_map]
  simp [Function.comp_def]

/-- The class that a program has under a name is the one that its table has. -/
theorem toClass_find? (h : t.Named) (name : String) :
    (t.freeze.find? name).map (·.toClass) = t.get? name := by
  have hclasses : (t.freeze.find? name).map (·.toClass) = t.values.find? (·.name == name) := by
    rw [Program.find?, ← Array.find?_toList, ← map_toClass_freeze, List.find?_map]
    rfl
  -- each class stands under its own name
  have hentries : t.entries.find? (·.2.name == name) = t.entries.find? (·.1 = name) := by
    refine List.find?_congr fun e he => ?_
    rw [h e he]
    rfl
  rw [hclasses, Table.values, List.find?_map, Table.get?, ← hentries]
  rfl

/-- The number of the class under a name is the place of the name. -/
theorem id_find? (h : t.Named) (name : String) : (t.freeze.find? name).map (·.id) = t.id? name := by
  rw [find?_freeze h]
  cases hid : t.id? name with
  | none => rfl
  | some i =>
    -- the place of a name is one of the places of the program
    obtain ⟨hi, -⟩ := List.findIdx?_eq_some_iff_getElem.1 hid
    have hi : i < t.freeze.classes.size := by
      rw [← names_freeze h] at hi
      simpa using hi
    have hclass : t.freeze.classes[i]? = some t.freeze.classes[i] := Array.getElem?_eq_getElem hi
    rw [Option.bind_some, hclass, Option.map_some, id_of_getElem?_freeze hclass]

end ClassTable
end Smali
