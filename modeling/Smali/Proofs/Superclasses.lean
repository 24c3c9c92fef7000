import Smali.Proofs.Loading
import Smali.Proofs.Walks

/-!
# Superclass links of loaded programs

A class is kept under its own name, so freezing a table links each class to the one that has the name of
its superclass. Nothing else is asked of the names: classes may extend one another in a circle. The
lookups that go up the links end all the same, except for those that are led into a circle and find
nothing on the way.

## Key results

- `above?_freeze`: the link of a class leads where the name of its superclass says
- `lookups_end_off_circles`: when the lookups in a loaded program end
- `circular_loads`: a program that extends itself is loaded, and lookups in it have no end
-/

namespace Smali

/-! ## Classes under their names -/

/-- Every class is kept under its own name. -/
def ClassTable.Named (t : ClassTable) : Prop :=
  ∀ e ∈ t.entries, e.2.name = e.1

namespace ClassTable

variable {t : ClassTable}

theorem named_insert (h : t.Named) (c : Class) : ClassTable.Named (t.insert c.name c) := by
  intro e he
  cases Table.mem_put he with
  | inl hold => exact h e hold
  | inr hnew => rw [hnew]

/-- Only a finished class comes into the table, and under its name. -/
theorem named_invariant : ReadInvariant Named (fun r => r.classes.Named) where
  start _ _ h := h
  edit r r' h he := by
    rw [he.1]
    exact h
  commit r h := by
    unfold Reader.commit
    split
    · next c _ => exact named_insert h c
    · exact h
  table _ h := h

/-- The classes of a program come in the order of the names in the table. -/
theorem names_freeze (h : t.Named) : t.freeze.classes.toList.map (·.name) = t.keys := by
  refine List.ext_getElem? fun i => ?_
  simp only [freeze, Table.values, Table.keys, List.getElem?_map, List.getElem?_mapIdx, Option.map_map]
  cases he : t.entries[i]? with
  | none => rfl
  | some e => exact congrArg some (h e (List.mem_of_getElem? he))

/-- To look for a name among the classes is to look up its place. -/
theorem find?_freeze (h : t.Named) (name : String) :
    t.freeze.find? name = (t.id? name).bind fun id => t.freeze.classes[id]? := by
  -- the names are in the places of the classes
  have hid : t.id? name = t.freeze.classes.toList.findIdx? (·.name == name) := by
    rw [id?, ← names_freeze h, List.findIdx?_map]
    rfl
  rw [Program.find?, ← Array.find?_toList, List.find?_eq_bind_findIdx?_getElem?, hid]
  simp only [Array.getElem?_toList]

/-- The link of a class leads where the name of its superclass says. -/
theorem above?_freeze (h : t.Named) {c : LoadedClass} (hc : c ∈ t.freeze.classes) :
    t.freeze.above? c = c.superName?.bind t.freeze.find? := by
  -- freezing has looked up the place of the name
  have hlink : c.superId? = c.superName?.bind t.id? := by
    unfold freeze at hc
    rw [List.mem_toArray, List.mem_mapIdx] at hc
    obtain ⟨i, hi, rfl⟩ := hc
    rfl
  rw [Program.above?, hlink]
  cases c.superName? with
  | none => rfl
  | some name => exact (find?_freeze h name).symm

end ClassTable

namespace Machine

/-! ## Lookups in loaded programs -/

/-- In a program that is loaded from sources each link goes by the name of the superclass. A lookup up the
links has no end, whatever its bound, exactly if the links lead from where it starts into a circle and no
class on the way has what is looked for; so without circles every lookup ends. -/
theorem lookups_end_off_circles {sources : List String} {p : Program}
    (h : loadProgram sources = .ok p) :
    (∀ c ∈ p.classes, p.above? c = c.superName?.bind p.find?) ∧
    (∀ runtimeClass id, lookupVirtual p runtimeClass id = .endless ↔
      (∃ named, findClass p id.className = .ok named) ∧
        ∃ c, findClass p runtimeClass = .ok c ∧ p.Circular c ∧
          ∀ d, Relation.ReflTransGen p.Extends c d → selectMethod? d.toClass id false = none) ∧
    (∀ id, lookupInstanceField p id = .endless ↔
      ∃ c, findClass p id.className = .ok c ∧ p.Circular c ∧
        ∀ d, Relation.ReflTransGen p.Extends c d → d.fields.get? id.name = none) ∧
    (∀ (α : Type) (pick : LoadedClass → Option α), ∀ c ∈ p.classes,
      searchUp p pick p.classes.size c = .endless → ∀ steps, searchUp p pick steps c = .endless) ∧
    (p.Acyclic → (∀ runtimeClass id, lookupVirtual p runtimeClass id ≠ .endless) ∧
      ∀ id, lookupInstanceField p id ≠ .endless) := by
  have hempty : ClassTable.Named {} := fun e he => absurd he List.not_mem_nil
  obtain ⟨t, ht, rfl⟩ := ClassTable.named_invariant.loadProgram hempty h
  refine ⟨fun c hc => ClassTable.above?_freeze ht hc, fun _ _ => lookupVirtual_endless_iff,
    fun _ => lookupInstanceField_endless_iff, fun α pick c hc hwalk steps => ?_,
    fun hp => ⟨lookupVirtual_ne_endless hp, lookupInstanceField_ne_endless hp⟩⟩
  -- the walk goes into a circle, so no bound is enough
  obtain ⟨hcircular, hnone⟩ := (searchUp_endless_iff pick hc).1 hwalk
  exact searchUp_of_circular hcircular hnone steps

/-! ## Classes in a circle -/

/-- Two classes that extend each other. -/
def circularSource : String := "
.class LFirst;
.super LSecond;
.method first()V
    .registers 1
    return-void
.end method
.class LSecond;
.super LFirst;
.method second()V
    .registers 1
    return-void
.end method
"

/-- A method that neither of them has. -/
def third : MethodId := ⟨"LFirst;", "third", [], .void⟩

/-- A field that neither of them has. -/
def missing : FieldId := ⟨"LFirst;", "missing", .int⟩

set_option maxRecDepth 10000 in
/-- The two lookups in the program. -/
theorem circular_walks : (loadProgram [circularSource]).toOption.map
    (fun p => (lookupVirtual p "LSecond;" third, lookupInstanceField p missing)) =
      some (.endless, .endless) := by
  rw [loadProgram_ofTexts (show [circularSource] = List.map String.ofList [_] from rfl)]
  decide +kernel

/-- Classes that extend each other are loaded, and there are lookups that have no end. -/
theorem circular_loads : ∃ p, loadProgram [circularSource] = .ok p ∧ ¬ p.Acyclic ∧
    lookupVirtual p "LSecond;" third = .endless ∧ lookupInstanceField p missing = .endless := by
  obtain ⟨p, hp, hwalks⟩ := Option.map_eq_some_iff.1 circular_walks
  obtain ⟨hvirtual, hfield⟩ := Prod.mk.inj hwalks
  obtain ⟨_, _, _, hcircular, _⟩ := lookupVirtual_endless_iff.1 hvirtual
  exact ⟨p, ok_of_toOption hp, hcircular.not_acyclic, hvirtual, hfield⟩

/-- The links lead from both classes into the circle. -/
theorem circular_lookups : ∃ p c d, loadProgram [circularSource] = .ok p ∧
    findClass p "LFirst;" = .ok c ∧ p.Circular c ∧ c.fields.get? missing.name = none ∧
    findClass p "LSecond;" = .ok d ∧ p.Circular d ∧ selectMethod? d.toClass third false = none := by
  obtain ⟨p, hp, hwalks⟩ := Option.map_eq_some_iff.1 circular_walks
  obtain ⟨hvirtual, hfield⟩ := Prod.mk.inj hwalks
  have hload := ok_of_toOption hp
  obtain ⟨_, hmethods, hfields, _⟩ := lookups_end_off_circles hload
  obtain ⟨_, d, hd, hcircular, hnone⟩ := (hmethods _ _).1 hvirtual
  obtain ⟨c, hc, hcircular', hnone'⟩ := (hfields _).1 hfield
  exact ⟨p, c, d, hload, hc, hcircular', hnone' c .refl, hd, hcircular, hnone d .refl⟩

end Machine

end Smali
