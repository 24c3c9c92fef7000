import Mathlib.Data.Finset.Card
import Mathlib.Logic.Relation
import Smali.Machine.Resolve

/-!
# Walks up the superclass links

A walk looks at a class, then at the class that its superclass link leads to, and so on. It is bounded by
the number of classes of the program, and the bound loses nothing: a walk that has followed so many links
has met a class twice, and what it has not found by then it never finds. So a walk has no end exactly if
the links lead into a circle and no class on the way has what is looked for.

## Key results

- `searchUp_endless_iff`: when a walk has no end
- `lookupVirtual_endless_iff`, `lookupInstanceField_endless_iff`: when a lookup has none
- `lookupVirtual_ne_endless`, `lookupInstanceField_ne_endless`: without circles every lookup ends
-/

namespace Smali

/-! ## Links -/

namespace Program

/-- The class that the superclass link of a class leads to. -/
def above? (p : Program) (c : LoadedClass) : Option LoadedClass :=
  c.superId?.bind fun id => p.classes[id]?

/-- The superclass link of `c` leads to `above`. -/
def Extends (p : Program) (c above : LoadedClass) : Prop :=
  p.above? c = some above

/-- The superclass links lead from the class into a circle. -/
def Circular (p : Program) (c : LoadedClass) : Prop :=
  ∃ d, Relation.ReflTransGen p.Extends c d ∧ Relation.TransGen p.Extends d d

/-- No class of the program is above itself. -/
def Acyclic (p : Program) : Prop :=
  ∀ c ∈ p.classes, ¬ Relation.TransGen p.Extends c c

variable {p : Program} {c d : LoadedClass}

/-- Links lead to classes of the program. -/
theorem mem_of_extends (h : p.Extends c d) : d ∈ p.classes := by
  obtain ⟨id, _, hd⟩ := Option.bind_eq_some_iff.1 h
  exact Array.mem_of_getElem? hd

/-- A circle goes through classes of the program. -/
theorem Circular.not_acyclic (h : p.Circular c) : ¬ p.Acyclic := by
  obtain ⟨d, _, hcircle⟩ := h
  intro hp
  obtain ⟨_, _, hlast⟩ := Relation.TransGen.tail'_iff.1 hcircle
  exact hp d (mem_of_extends hlast) hcircle

/-- Links that always lead to an earlier class lead into no circle. -/
theorem acyclic_of_id_lt (h : ∀ c ∈ p.classes, ∀ d ∈ p.above? c, d.id < c.id) : p.Acyclic := by
  intro c hc hcircle
  -- the induction is on the path, along which the numbers go down
  have hlt (d : LoadedClass) (hd : Relation.TransGen p.Extends c d) : d.id < c.id := by
    induction hd with
    | single hlink => exact h c hc _ hlink
    | tail hpath hlink ih =>
      obtain ⟨_, _, hlast⟩ := Relation.TransGen.tail'_iff.1 hpath
      exact (h _ (mem_of_extends hlast) _ hlink).trans ih
  exact (hlt c hcircle).false

/-- A class from which the links lead into a circle has a superclass, and that is such a class too. -/
theorem Circular.above (h : p.Circular c) : ∃ above, p.Extends c above ∧ p.Circular above := by
  obtain ⟨d, hreach, hcircle⟩ := h
  cases hreach.cases_head with
  | inl heq =>
    -- the class itself is on the circle, and so is the next one
    subst heq
    obtain ⟨above, hlink, hback⟩ := Relation.TransGen.head'_iff.1 hcircle
    exact ⟨above, hlink, above, .refl, .tail' hback hlink⟩
  | inr hstep =>
    obtain ⟨above, hlink, hrest⟩ := hstep
    exact ⟨above, hlink, d, hrest, hcircle⟩

/-! ## Climbing -/

/-- The class so many links above a class. -/
def climb (p : Program) : (links : Nat) → LoadedClass → Option LoadedClass
  | 0, c => some c
  | n + 1, c => (p.above? c).bind (p.climb n)

/-- Links are followed one part after the other. -/
theorem climb_add (p : Program) (m n : Nat) (c : LoadedClass) :
    p.climb (m + n) c = (p.climb m c).bind (p.climb n) := by
  -- the induction is on the links that are followed first
  induction m generalizing c with
  | zero => simp [climb]
  | succ m ih =>
    rw [Nat.succ_add, climb, climb, Option.bind_assoc]
    exact congrArg _ (funext ih)

/-- One link more is followed at the end. -/
theorem climb_of_extends {k : Nat} {x : LoadedClass} (hx : p.climb k c = some x)
    (h : p.Extends x d) : p.climb (k + 1) c = some d := by
  rw [climb_add, hx, Option.bind_some, climb, h, Option.bind_some, climb]

/-- A climb stays in the program. -/
theorem mem_of_climb {k : Nat} (hc : c ∈ p.classes) (h : p.climb k c = some d) : d ∈ p.classes := by
  induction k generalizing c with
  | zero => exact Option.some.inj h ▸ hc
  | succ k ih =>
    obtain ⟨above, habove, h⟩ := Option.bind_eq_some_iff.1 h
    exact ih (mem_of_extends habove) h

/-- A climb follows the links. -/
theorem reflTransGen_of_climb {k : Nat} (h : p.climb k c = some d) :
    Relation.ReflTransGen p.Extends c d := by
  induction k generalizing c with
  | zero => exact Option.some.inj h ▸ .refl
  | succ k ih =>
    obtain ⟨above, habove, h⟩ := Option.bind_eq_some_iff.1 h
    exact .head habove (ih h)

/-- A climb of at least one link does so too. -/
theorem transGen_of_climb {k : Nat} (h : p.climb (k + 1) c = some d) :
    Relation.TransGen p.Extends c d := by
  obtain ⟨above, habove, h⟩ := Option.bind_eq_some_iff.1 h
  exact .head' habove (reflTransGen_of_climb h)

/-- After as many links as the program has classes some class has been met twice, and from there on the
climb repeats itself. -/
theorem climb_size_repeats (hc : c ∈ p.classes) (h : p.climb p.classes.size c = some d) :
    ∃ k < p.classes.size, p.climb k c = some d := by
  -- there are more places on the way than classes
  have hcard : ((p.classes.toList.map some).toFinset).card <
      (Finset.range (p.classes.size + 1)).card := by
    have hle := List.toFinset_card_le (p.classes.toList.map some)
    rw [List.length_map, Array.length_toList] at hle
    rw [Finset.card_range]
    omega
  have hmaps : ∀ k ∈ Finset.range (p.classes.size + 1),
      p.climb k c ∈ (p.classes.toList.map some).toFinset := by
    intro k hk
    have hk := Finset.mem_range.1 hk
    -- the links in front of the last one can be followed too
    have hsplit : p.classes.size = k + (p.classes.size - k) := by omega
    rw [hsplit, climb_add] at h
    obtain ⟨x, hx, _⟩ := Option.bind_eq_some_iff.1 h
    rw [hx, List.mem_toFinset]
    exact List.mem_map_of_mem (Array.mem_toList_iff.2 (mem_of_climb hc hx))
  obtain ⟨i, hi, j, hj, hne, heq⟩ :=
    Finset.exists_ne_map_eq_of_card_lt_of_maps_to hcard hmaps
  have hi := Finset.mem_range.1 hi
  have hj := Finset.mem_range.1 hj
  -- what comes after the later meeting comes after the earlier one
  have hback (i j : Nat) (hij : i < j) (hj : j ≤ p.classes.size) (heq : p.climb i c = p.climb j c) :
      ∃ k < p.classes.size, p.climb k c = some d := by
    refine ⟨i + (p.classes.size - j), by omega, ?_⟩
    rw [climb_add, heq, ← climb_add, Nat.add_sub_cancel' hj, h]
  cases Nat.lt_or_gt_of_ne hne with
  | inl hlt => exact hback i j hlt (by omega) heq
  | inr hgt => exact hback j i hgt (by omega) heq.symm

/-- A climb of as many links as the program has classes is on its way into a circle. -/
theorem circular_of_climb (hc : c ∈ p.classes) (h : p.climb p.classes.size c = some d) :
    p.Circular c := by
  obtain ⟨k, hk, hd⟩ := climb_size_repeats hc h
  refine ⟨d, reflTransGen_of_climb h, ?_⟩
  -- the links between the two meetings lead from the class to itself
  have hsplit : p.classes.size = k + (p.classes.size - k - 1 + 1) := by omega
  rw [hsplit, climb_add, hd, Option.bind_some] at h
  exact transGen_of_climb h

/-- Every class above a class is met within as many links as the program has classes. -/
theorem climb_lt_of_reflTransGen (hc : c ∈ p.classes) (h : Relation.ReflTransGen p.Extends c d) :
    ∃ k < p.classes.size, p.climb k c = some d := by
  -- the induction is on the links, with the number of links so far
  induction h with
  | refl => exact ⟨0, Array.size_pos_of_mem hc, rfl⟩
  | tail _ hlink ih =>
    obtain ⟨k, hk, hx⟩ := ih
    have hnext := climb_of_extends hx hlink
    by_cases hlt : k + 1 < p.classes.size
    · exact ⟨k + 1, hlt, hnext⟩
    · -- so many links have been followed that the next class is one met before
      have hsize : k + 1 = p.classes.size := by omega
      rw [hsize] at hnext
      exact climb_size_repeats hc hnext

end Program

/-! ## Walks -/

namespace Machine

variable {p : Program} {c : LoadedClass}

/-- The superclass is the class that the link leads to. -/
theorem superclass?_eq_some_iff {above : LoadedClass} :
    superclass? p c = .ok (some above) ↔ p.Extends c above := by
  unfold superclass? Program.Extends Program.above?
  -- without a link there is no superclass, whatever its name is
  cases c.superId? with
  | some id => simp
  | none => cases c.superName? <;> simp

/-- A walk that is stopped by its bound has found nothing up to there. -/
theorem climb_of_endless {pick : LoadedClass → Option α} {steps : Nat}
    (h : searchUp p pick steps c = .endless) :
    (∃ d, p.climb steps c = some d) ∧ ∀ k < steps, ∀ d, p.climb k c = some d → pick d = none := by
  -- the induction is on the bound; the walk has gone one link up each time
  induction steps generalizing c with
  | zero => exact ⟨⟨c, rfl⟩, fun k hk => absurd hk (Nat.not_lt_zero k)⟩
  | succ steps ih =>
    unfold searchUp at h
    split at h
    · cases h
    · next hpick =>
      split at h
      · next above habove =>
        have hlink : p.above? c = some above := superclass?_eq_some_iff.1 habove
        obtain ⟨⟨d, hd⟩, hnone⟩ := ih h
        refine ⟨⟨d, by rw [Program.climb, hlink, Option.bind_some, hd]⟩, fun k hk d hd => ?_⟩
        cases k with
        | zero => exact Option.some.inj hd ▸ hpick
        | succ k =>
          rw [Program.climb, hlink, Option.bind_some] at hd
          exact hnone k (Nat.lt_of_succ_lt_succ hk) d hd
      · cases h
      · cases h

/-- No bound is enough for a walk into a circle on whose way nothing is found. -/
theorem searchUp_of_circular {pick : LoadedClass → Option α} (hc : p.Circular c)
    (hnone : ∀ d, Relation.ReflTransGen p.Extends c d → pick d = none) (steps : Nat) :
    searchUp p pick steps c = .endless := by
  -- whatever the bound is, the class above leads into the circle too
  induction steps generalizing c with
  | zero => rfl
  | succ steps ih =>
    obtain ⟨above, hlink, habove⟩ := hc.above
    have hrest := ih habove fun d hd => hnone d (.head hlink hd)
    simp only [searchUp, hnone c .refl, superclass?_eq_some_iff.2 hlink, hrest]

/-- A walk from a class of the program has no end exactly if the links lead into a circle and no class on
the way has what is looked for. -/
theorem searchUp_endless_iff (pick : LoadedClass → Option α) (hc : c ∈ p.classes) :
    searchUp p pick p.classes.size c = .endless ↔
      p.Circular c ∧ ∀ d, Relation.ReflTransGen p.Extends c d → pick d = none := by
  constructor
  · intro h
    obtain ⟨⟨last, hlast⟩, hnone⟩ := climb_of_endless h
    refine ⟨Program.circular_of_climb hc hlast, fun d hd => ?_⟩
    -- every class on the way was looked at before the bound was reached
    obtain ⟨k, hk, hd⟩ := Program.climb_lt_of_reflTransGen hc hd
    exact hnone k hk d hd
  · rintro ⟨hcircular, hnone⟩
    exact searchUp_of_circular hcircular hnone _

/-! ## Lookups -/

/-- A class that is found has the name. -/
theorem findClass_ok {name : String} (h : findClass p name = .ok c) : p.find? name = some c := by
  unfold findClass at h
  split at h
  · next c' hc =>
    obtain rfl := Except.ok.inj h
    exact hc
  · cases h

/-- A class that is found is one of the program. -/
theorem mem_of_findClass {name : String} (h : findClass p name = .ok c) : c ∈ p.classes :=
  Array.mem_of_find?_eq_some (findClass_ok h)

/-- A virtual lookup has no end exactly if the links from the class of the object lead into a circle and
nothing is picked on the way. -/
theorem lookupVirtual_endless_iff {runtimeClass : String} {id : MethodId} :
    lookupVirtual p runtimeClass id = .endless ↔
      (∃ named, findClass p id.className = .ok named) ∧
        ∃ c, findClass p runtimeClass = .ok c ∧ p.Circular c ∧
          ∀ d, Relation.ReflTransGen p.Extends c d → selectMethod? d.toClass id false = none := by
  unfold lookupVirtual
  cases hnamed : findClass p id.className with
  | error e => simp
  | ok named =>
    cases hc : findClass p runtimeClass with
    | error e => simp
    | ok c =>
      have hwalk := searchUp_endless_iff (fun c => selectMethod? c.toClass id false)
        (mem_of_findClass hc)
      simp only [Except.ok.injEq, exists_eq', exists_eq_left', true_and, ← hwalk]
      -- the lookup passes on what the walk comes to
      cases searchUp p (fun c => selectMethod? c.toClass id false) p.classes.size c with
      | found m? => cases m? <;> simp
      | failed e => simp
      | endless => simp

/-- A lookup of an instance field has no end exactly if the links lead into a circle and no class on the way
declares the name. -/
theorem lookupInstanceField_endless_iff {id : FieldId} :
    lookupInstanceField p id = .endless ↔
      ∃ c, findClass p id.className = .ok c ∧ p.Circular c ∧
        ∀ d, Relation.ReflTransGen p.Extends c d → d.fields.get? id.name = none := by
  unfold lookupInstanceField
  cases hc : findClass p id.className with
  | error e => simp
  | ok c =>
    have hwalk := searchUp_endless_iff (fun c => (c.fields.get? id.name).map (c, ·))
      (mem_of_findClass hc)
    simp only [Option.map_eq_none_iff] at hwalk
    simp only [Except.ok.injEq, exists_eq_left', ← hwalk]
    cases searchUp p (fun c => (c.fields.get? id.name).map (c, ·)) p.classes.size c with
    | found place? =>
      cases place? with
      | none => simp
      | some place =>
        -- a static field ends the lookup with a fault
        obtain ⟨owner, f⟩ := place
        cases h : f.isStatic <;> simp [h]
    | failed e => simp
    | endless => simp

/-- Without circles every virtual call finds its target or fails. -/
theorem lookupVirtual_ne_endless (hp : p.Acyclic) (runtimeClass : String) (id : MethodId) :
    lookupVirtual p runtimeClass id ≠ .endless := by
  intro h
  obtain ⟨_, _, _, hcircular, _⟩ := lookupVirtual_endless_iff.1 h
  exact hcircular.not_acyclic hp

/-- So does every lookup of an instance field. -/
theorem lookupInstanceField_ne_endless (hp : p.Acyclic) (id : FieldId) :
    lookupInstanceField p id ≠ .endless := by
  intro h
  obtain ⟨_, _, hcircular, _⟩ := lookupInstanceField_endless_iff.1 h
  exact hcircular.not_acyclic hp

end Machine

end Smali
