import Smali.Proofs.Superclasses

/-!
# Names in loaded programs

Reading keeps each class and each field under its own name, and a later definition takes the place of an
earlier one. So in a loaded program a name tells the class, and within a class it tells the field.

## Key results

- `tidy_invariant`: reading keeps every table tidy
- `ClassTable.Tidy.find?_name`: a class is found under its name
- `Class.Tidy.field_unique`: two fields of a class have different names
-/

namespace Smali

/-- The fields of the class stand under their own names, each once. -/
structure Class.Tidy (c : Class) : Prop where
  named : ∀ e ∈ c.fields.entries, e.2.name = e.1
  nodup : c.fields.keys.Nodup

/-- The classes stand under their own names, each once, and so do the fields of each class. -/
structure ClassTable.Tidy (t : ClassTable) : Prop where
  named : t.Named
  nodup : t.keys.Nodup
  classes : ∀ c ∈ t.values, c.Tidy

/-- What has been read so far is tidy. -/
structure Reader.Tidy (r : Reader) : Prop where
  table : r.classes.Tidy
  openClass : ∀ c, r.class? = some c → c.Tidy

/-! ## Reading -/

theorem Class.Tidy.addField {c : Class} (h : c.Tidy) (f : Field) :
    { c with fields := c.fields.insert f.name f }.Tidy := by
  refine ⟨fun e he => ?_, Table.nodup_keys_insert h.nodup f.name f⟩
  cases Table.mem_put he with
  | inl hold => exact h.named e hold
  | inr hnew => rw [hnew]

theorem ClassTable.Tidy.insert {t : ClassTable} (h : t.Tidy) {c : Class} (hc : c.Tidy) :
    ClassTable.Tidy (t.insert c.name c) := by
  refine ⟨named_insert h.named c, Table.nodup_keys_insert h.nodup c.name c, fun c' hc' => ?_⟩
  cases Table.mem_values_insert hc' with
  | inl hold => exact h.classes c' hold
  | inr hnew => exact hnew ▸ hc

/-- An edit keeps the class that is open tidy: only one of them touches fields. -/
theorem Edit.tidy {c? c?' : Option Class} {d? d?' : Option Draft} (he : Edit c? d? c?' d?')
    (h : ∀ c, c? = some c → c.Tidy) : ∀ c, c?' = some c → c.Tidy := by
  cases he with
  | keep | beginMethod | setRegisters | addLabel | addTable | addInstruction => exact h
  | beginClass _ flags name =>
    intro c hc
    obtain rfl := Option.some.inj hc
    exact ⟨fun e he => absurd he List.not_mem_nil, List.nodup_nil⟩
  | addField c _ f =>
    intro c' hc'
    obtain rfl := Option.some.inj hc'
    exact (h c rfl).addField f
  | setSuper c | endMethod c =>
    intro c' hc'
    obtain rfl := Option.some.inj hc'
    exact ⟨(h c rfl).named, (h c rfl).nodup⟩

/-- Reading keeps every table tidy. -/
theorem tidy_invariant : ReadInvariant ClassTable.Tidy Reader.Tidy where
  start _ _ h := ⟨h, nofun⟩
  edit r r' h he := ⟨he.1 ▸ h.table, he.2.tidy h.openClass⟩
  commit r h := by
    unfold Reader.commit
    split
    · next c hc => exact ⟨h.table.insert (h.openClass c hc), nofun⟩
    · exact h
  table _ h := h.table

/-- A program that is loaded from sources is frozen from a tidy table. -/
theorem loadProgram_tidy {sources : List String} {p : Program}
    (h : Machine.loadProgram sources = .ok p) : ∃ t : ClassTable, t.Tidy ∧ p = t.freeze := by
  have hempty : ClassTable.Tidy {} :=
    ⟨fun e he => absurd he List.not_mem_nil, List.nodup_nil, fun c hc => absurd hc List.not_mem_nil⟩
  exact tidy_invariant.loadProgram hempty h

/-! ## What a name tells -/

theorem Class.Tidy.field_unique {c : Class} (h : c.Tidy) {f f' : Field} (hf : f ∈ c.fields.values)
    (hf' : f' ∈ c.fields.values) (hname : f.name = f'.name) : f = f' := by
  obtain ⟨e, he, rfl⟩ := List.mem_map.1 hf
  obtain ⟨e', he', rfl⟩ := List.mem_map.1 hf'
  have hkey : e.1 = e'.1 := by rw [← h.named e he, ← h.named e' he', hname]
  rw [List.inj_on_of_nodup_map h.nodup he he' hkey]

namespace ClassTable

variable {t : ClassTable} {c : LoadedClass}

/-- The classes of a program are those of its table. -/
theorem Tidy.ofClass (h : t.Tidy) (hc : c ∈ t.freeze.classes) : c.toClass.Tidy := by
  unfold freeze at hc
  rw [List.mem_toArray, List.mem_mapIdx] at hc
  obtain ⟨i, hi, rfl⟩ := hc
  exact h.classes t.values[i] (List.getElem_mem hi)

/-- A class is found under its name. -/
theorem Tidy.find?_name (h : t.Tidy) (hc : c ∈ t.freeze.classes) :
    t.freeze.find? c.name = some c := by
  have hnames : (t.freeze.classes.toList.map (·.name)).Nodup := names_freeze h.named ▸ h.nodup
  -- some class is found, and it has the name of `c`
  have hsome : (t.freeze.find? c.name).isSome := Array.find?_isSome.2 ⟨c, hc, by simp⟩
  obtain ⟨c', hc'⟩ := Option.isSome_iff_exists.1 hsome
  have hname : c'.name = c.name := by simpa using Array.find?_some hc'
  rw [hc', List.inj_on_of_nodup_map hnames (Array.mem_toList_iff.2 (Array.mem_of_find?_eq_some hc'))
    (Array.mem_toList_iff.2 hc) hname]

end ClassTable

end Smali
