/-!
# Tables in insertion order

A table keeps its entries in the order in which their keys were first inserted. Inserting a key that is
already there replaces its value and keeps its place.

A table is seen through `get?`; `get?_insert` says what an insertion does to that view, and `keys_insert`
what it does to the order. Keys never repeat: `nodup_keys_insert`.
-/

namespace Smali

/-- Entries in the order in which their keys were first inserted. -/
structure Table (κ : Type) (α : Type) where
  /-- The entries, oldest key first. -/
  entries : List (κ × α) := []
  deriving Repr, DecidableEq

namespace Table

variable {κ α : Type} [DecidableEq κ]

instance : Inhabited (Table κ α) := ⟨{}⟩

/-- The value stored under a key. -/
def get? (t : Table κ α) (k : κ) : Option α :=
  (t.entries.find? (·.1 = k)).map (·.2)

/-- Whether the key is there. -/
def contains (t : Table κ α) (k : κ) : Bool :=
  (t.get? k).isSome

/-- Replaces the value of an entry with key `k`, or adds the entry at the end. -/
def put (k : κ) (a : α) : List (κ × α) → List (κ × α)
  | [] => [(k, a)]
  | (k', a') :: rest => if k' = k then (k, a) :: rest else (k', a') :: put k a rest

/-- Stores a value under a key. -/
def insert (t : Table κ α) (k : κ) (a : α) : Table κ α :=
  ⟨put k a t.entries⟩

/-- The keys, oldest first. -/
def keys (t : Table κ α) : List κ :=
  t.entries.map (·.1)

/-- The values in the order of their keys. -/
def values (t : Table κ α) : List α :=
  t.entries.map (·.2)

/-! ## What is stored -/

/-- What is found is stored. -/
theorem mem_entries_of_get? {t : Table κ α} {k : κ} {a : α} (h : t.get? k = some a) :
    (k, a) ∈ t.entries := by
  obtain ⟨e, he, rfl⟩ := Option.map_eq_some_iff.1 h
  have hk : e.1 = k := by simpa using List.find?_some he
  exact hk ▸ List.mem_of_find?_eq_some he

theorem mem_values_of_get? {t : Table κ α} {k : κ} {a : α} (h : t.get? k = some a) :
    a ∈ t.values :=
  List.mem_map_of_mem (f := Prod.snd) (mem_entries_of_get? h)

/-- A key is there exactly if a value is stored under it. -/
theorem mem_keys_iff {t : Table κ α} {k : κ} : k ∈ t.keys ↔ ∃ a, t.get? k = some a := by
  constructor
  · intro h
    obtain ⟨e, he, rfl⟩ := List.mem_map.1 h
    have hf : (t.entries.find? (·.1 = e.1)).isSome := List.find?_isSome.2 ⟨e, he, by simp⟩
    obtain ⟨e', he'⟩ := Option.isSome_iff_exists.1 hf
    exact ⟨e'.2, by simp [get?, he']⟩
  · rintro ⟨a, ha⟩
    exact List.mem_map_of_mem (f := Prod.fst) (mem_entries_of_get? ha)

/-! ## What an insertion does -/

@[simp] theorem get?_empty (k : κ) : ({} : Table κ α).get? k = none := rfl

/-- A stored value is found, and no other entry is touched. -/
theorem find?_put (k j : κ) (a : α) (l : List (κ × α)) :
    ((put k a l).find? (·.1 = j)).map (·.2) =
      if j = k then some a else (l.find? (·.1 = j)).map (·.2) := by
  -- the induction is on the entries, up to the one with the key
  induction l with
  | nil => by_cases h : j = k <;> simp [put, h, eq_comm]
  | cons e l ih =>
    obtain ⟨k', a'⟩ := e
    unfold put
    by_cases h : k' = k
    · subst h
      by_cases hj : j = k'
      · simp [hj]
      · simp [hj, Ne.symm hj]
    · by_cases hj : k' = j
      · subst hj; simp [h]
      · simpa [h, hj] using ih

/-- A stored value is found under its key, and no other key is touched. -/
@[simp] theorem get?_insert (t : Table κ α) (k j : κ) (a : α) :
    (t.insert k a).get? j = if j = k then some a else t.get? j :=
  find?_put k j a t.entries

/-- A new key goes to the end of the entries. -/
theorem map_fst_put (k : κ) (a : α) (l : List (κ × α)) :
    (put k a l).map (·.1) = if k ∈ l.map (·.1) then l.map (·.1) else l.map (·.1) ++ [k] := by
  induction l with
  | nil => rfl
  | cons e l ih =>
    obtain ⟨k', a'⟩ := e
    unfold put
    by_cases h : k' = k
    · subst h; simp
    · simp only [h, ↓reduceIte, List.map_cons, ih, List.mem_cons, Ne.symm h, false_or]
      split <;> simp

/-- A new key goes to the end, a known one keeps its place. -/
theorem keys_insert (t : Table κ α) (k : κ) (a : α) :
    (t.insert k a).keys = if k ∈ t.keys then t.keys else t.keys ++ [k] :=
  map_fst_put k a t.entries

theorem mem_put {k : κ} {a : α} {l : List (κ × α)} {e : κ × α} (h : e ∈ put k a l) :
    e ∈ l ∨ e = (k, a) := by
  induction l with
  | nil => exact .inr (List.mem_singleton.1 h)
  | cons e' l ih =>
    obtain ⟨k', a'⟩ := e'
    unfold put at h
    split at h
    · cases List.mem_cons.1 h with
      | inl heq => exact .inr heq
      | inr hmem => exact .inl (List.mem_cons_of_mem _ hmem)
    · cases List.mem_cons.1 h with
      | inl heq => exact .inl (heq ▸ List.mem_cons_self)
      | inr hmem => exact (ih hmem).imp_left (List.mem_cons_of_mem _)

/-- An insertion brings one value into a table. -/
theorem mem_values_insert {t : Table κ α} {k : κ} {a b : α} (h : b ∈ (t.insert k a).values) :
    b ∈ t.values ∨ b = a := by
  obtain ⟨e, he, rfl⟩ := List.mem_map.1 h
  cases mem_put he with
  | inl hold => exact .inl (List.mem_map_of_mem hold)
  | inr hnew => exact .inr (congrArg Prod.snd hnew)

@[simp] theorem mem_keys_insert {t : Table κ α} {k j : κ} {a : α} :
    j ∈ (t.insert k a).keys ↔ j ∈ t.keys ∨ j = k := by
  rw [keys_insert]
  split
  · next hk =>
    constructor
    · exact .inl
    · rintro (h | rfl)
      · exact h
      · exact hk
  · simp

/-- No key comes twice. -/
theorem nodup_keys_insert {t : Table κ α} (h : t.keys.Nodup) (k : κ) (a : α) :
    (t.insert k a).keys.Nodup := by
  rw [keys_insert]
  split
  · exact h
  · rename_i hk
    -- the new key is none of the old ones
    rw [List.nodup_append]
    refine ⟨h, by simp, ?_⟩
    intro x hx y hy
    obtain rfl : y = k := by simpa using hy
    exact fun hxy => hk (hxy ▸ hx)

end Table

end Smali
