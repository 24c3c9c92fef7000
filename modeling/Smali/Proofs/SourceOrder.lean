import Mathlib.Data.List.Nodup
import Smali.Proofs.Numbering
import Smali.Proofs.RenumberedRuns

/-!
# The order of sources

Sources that define different classes can be read in any order. The tables that they fill have the same
classes under the same names, in different places; so the programs differ by the numbers of the classes
only, and under other numbers a machine does the same.

## Key results

- `ClassTable.SameClasses.renumbers`: tables with the same classes freeze to the same program up to numbers
- `ClassTable.get?_perm`: what sources in another order define
- `Machine.loadProgram_perm`: programs from the same sources in two orders
-/

namespace Smali

namespace ClassTable

variable {t t' : ClassTable} {name : String} {i : Nat}

/-! ## Places in a table -/

/-- The number of a name is its place. -/
theorem id?_eq_some_iff (h : t.keys.Nodup) : t.id? name = some i ↔ t.keys[i]? = some name := by
  unfold id?
  rw [List.findIdx?_eq_some_iff_getElem, List.getElem?_eq_some_iff]
  constructor
  · rintro ⟨hi, hname, -⟩
    exact ⟨hi, by simpa using hname⟩
  · rintro ⟨hi, rfl⟩
    -- no name comes twice, so no earlier place has it
    refine ⟨hi, by simp, fun j hj => ?_⟩
    have hne : j ≠ i := by omega
    simpa [h.getElem_inj_iff] using hne

/-- A name without a number is not in the table. -/
theorem id?_eq_none_iff : t.id? name = none ↔ name ∉ t.keys := by
  unfold id?
  rw [List.findIdx?_eq_none_iff]
  constructor
  · intro h hmem
    simpa using h name hmem
  · rintro h other hother
    have hne : other ≠ name := fun heq => h (heq ▸ hother)
    simpa using hne

/-- The value in the place of a key is what is stored under the key. -/
theorem getElem?_values (hnodup : t.keys.Nodup) (h : t.keys[i]? = some name) :
    t.values[i]? = t.get? name := by
  unfold Table.keys at h
  rw [List.getElem?_map] at h
  obtain ⟨e, he, rfl⟩ := Option.map_eq_some_iff.1 h
  -- the key is found in some entry, and no other entry has it
  obtain ⟨a, ha⟩ := Table.mem_keys_iff.1 (List.mem_map_of_mem (f := Prod.fst) (List.mem_of_getElem? he))
  have hentry : (e.1, a) = e :=
    List.inj_on_of_nodup_map hnodup (Table.mem_entries_of_get? ha) (List.mem_of_getElem? he) rfl
  rw [Table.values, List.getElem?_map, he, ha, ← hentry]
  rfl

/-- Behind the last key there is no value. -/
theorem getElem?_values_none (h : t.keys[i]? = none) : t.values[i]? = none := by
  unfold Table.keys at h
  unfold Table.values
  simpa using h

/-! ## The same classes in other places -/

/-- The place in the second table of the name that has a place in the first. -/
def translate (t t' : ClassTable) (i : Nat) : Nat :=
  match t.keys[i]? with
  | some name => t'.keys.idxOf name
  | none => i

/-- Two tables with the same classes under the same names. -/
structure SameClasses (t t' : ClassTable) : Prop where
  named : t.Named
  named' : t'.Named
  nodup : t.keys.Nodup
  nodup' : t'.keys.Nodup
  get? : ∀ name, t'.get? name = t.get? name

namespace SameClasses

/-- The names are the same. -/
theorem mem_keys (h : t.SameClasses t') : name ∈ t'.keys ↔ name ∈ t.keys := by
  rw [Table.mem_keys_iff, Table.mem_keys_iff, h.get?]

/-- There are as many. -/
theorem length_keys (h : t.SameClasses t') : t'.keys.length = t.keys.length :=
  ((List.perm_ext_iff_of_nodup h.nodup' h.nodup).2 fun _ => h.mem_keys).length_eq

/-- In the translated place the second table has the same name. -/
theorem getElem?_translate (h : t.SameClasses t') (hkey : t.keys[i]? = some name) :
    t'.keys[t.translate t' i]? = some name := by
  have hmem : name ∈ t'.keys := h.mem_keys.2 (List.mem_of_getElem? hkey)
  unfold translate
  rw [hkey, List.getElem?_eq_getElem (List.idxOf_lt_length_of_mem hmem), List.getElem_idxOf]

/-- Places that neither table has stay. -/
theorem getElem?_translate_none (h : t.SameClasses t') (hkey : t.keys[i]? = none) :
    t.translate t' i = i ∧ t'.keys[i]? = none := by
  refine ⟨by rw [translate, hkey], ?_⟩
  rw [List.getElem?_eq_none_iff] at hkey ⊢
  rw [h.length_keys]
  exact hkey

/-- Different places are translated to different places. -/
theorem injective_translate (h : t.SameClasses t') : (t.translate t').Injective := by
  intro i j hij
  -- both places have a name, one of them has, or none; a place with a name is not translated to one without
  cases hi : t.keys[i]? with
  | none =>
    obtain ⟨hsame, hnone⟩ := h.getElem?_translate_none hi
    cases hj : t.keys[j]? with
    | none =>
      rw [hsame, (h.getElem?_translate_none hj).1] at hij
      exact hij
    | some other =>
      have hother := h.getElem?_translate hj
      rw [← hij, hsame, hnone] at hother
      cases hother
  | some name =>
    have hname := h.getElem?_translate hi
    cases hj : t.keys[j]? with
    | none =>
      obtain ⟨hsame, hnone⟩ := h.getElem?_translate_none hj
      rw [hij, hsame, hnone] at hname
      cases hname
    | some other =>
      have hother := h.getElem?_translate hj
      rw [← hij, hname] at hother
      obtain rfl := Option.some.inj hother
      exact Option.some.inj (((id?_eq_some_iff h.nodup).2 hi).symm.trans
        ((id?_eq_some_iff h.nodup).2 hj))

/-- Numbers are translated. -/
theorem id?_translate (h : t.SameClasses t') (name : String) :
    t'.id? name = (t.id? name).map (t.translate t') := by
  -- with the name in neither table, or in both
  cases hid : t.id? name with
  | none =>
    rw [id?_eq_none_iff] at hid
    exact id?_eq_none_iff.2 fun hmem => hid (h.mem_keys.1 hmem)
  | some i =>
    rw [id?_eq_some_iff h.nodup] at hid
    exact (id?_eq_some_iff h.nodup').2 (h.getElem?_translate hid)

/-- A class that is linked by the names of one table, under the numbers of the other. -/
theorem renumber_link (h : t.SameClasses t') (c : Class) (i : Nat) :
    ({ c with id := i, superId? := c.superName?.bind t.id? } : LoadedClass).renumber (t.translate t') =
      { c with id := t.translate t' i, superId? := c.superName?.bind t'.id? } := by
  have hsuper : (c.superName?.bind t.id?).map (t.translate t') = c.superName?.bind t'.id? := by
    cases c.superName? with
    | none => rfl
    | some name => exact (h.id?_translate name).symm
  unfold LoadedClass.renumber
  dsimp only
  rw [hsuper]

/-- In the translated place the second program has the same class, with its numbers translated. -/
theorem getElem?_classes (h : t.SameClasses t') (i : Nat) :
    t'.freeze.classes[t.translate t' i]? =
      t.freeze.classes[i]?.map (·.renumber (t.translate t')) := by
  rw [getElem?_freeze, getElem?_freeze, Option.map_map]
  -- the place has a class in both programs or in none
  cases hkey : t.keys[i]? with
  | none =>
    obtain ⟨hsame, hnone⟩ := h.getElem?_translate_none hkey
    rw [hsame, getElem?_values_none hnone, getElem?_values_none hkey]
    rfl
  | some name =>
    rw [getElem?_values h.nodup' (h.getElem?_translate hkey), getElem?_values h.nodup hkey, h.get?]
    exact congrArg (Option.map · _) (funext fun c => (h.renumber_link c i).symm)

/-- Tables with the same classes freeze to the same program up to the numbers of the classes. -/
theorem renumbers (h : t.SameClasses t') : t.freeze.Renumbers (t.translate t') t'.freeze where
  injective := h.injective_translate
  size := by
    -- there are as many classes as names
    have hsize (t : ClassTable) (hnamed : t.Named) : t.freeze.classes.size = t.keys.length := by
      rw [← names_freeze hnamed, List.length_map, Array.length_toList]
    rw [hsize t' h.named', hsize t h.named, h.length_keys]
  classes := h.getElem?_classes
  find? name := by
    rw [find?_freeze h.named', find?_freeze h.named, h.id?_translate]
    cases t.id? name with
    | none => rfl
    | some i => exact h.getElem?_classes i

end SameClasses

/-! ## Sources in another order -/

/-- Where only one item gives anything, however often it comes, the last of all is the last it gives. -/
theorem getLast?_flatMap_of_only {l : List α} {f : α → List β} {a : α} (ha : a ∈ l)
    (honly : ∀ b ∈ l, b ≠ a → f b = []) : (l.flatMap f).getLast? = (f a).getLast? := by
  -- the induction is on the items; the last item may give nothing or be `a` itself
  induction l with
  | nil => cases ha
  | cons b rest ih =>
    rw [List.flatMap_cons, List.getLast?_append]
    have hrest : ∀ c ∈ rest, c ≠ a → f c = [] := fun c hc => honly c (List.mem_cons_of_mem b hc)
    by_cases hmem : a ∈ rest
    · rw [ih hmem hrest]
      by_cases hb : b = a
      · rw [hb, Option.or_self]
      · rw [honly b List.mem_cons_self hb, List.getLast?_nil, Option.or_none]
    · obtain rfl : a = b := (List.mem_cons.1 ha).resolve_right hmem
      have hnil : rest.flatMap f = [] :=
        List.flatMap_eq_nil_iff.2 fun c hc => hrest c hc fun heq => hmem (heq ▸ hc)
      rw [hnil, List.getLast?_nil, Option.none_or]

/-- Where at most one item gives anything, the order does not matter. -/
theorem getLast?_flatMap_perm {l l' : List α} {f : α → List β} (hperm : l.Perm l')
    (hone : ∀ a ∈ l, ∀ b ∈ l, a ≠ b → f a = [] ∨ f b = []) :
    (l'.flatMap f).getLast? = (l.flatMap f).getLast? := by
  -- one item gives something, or none does
  by_cases h : ∃ a ∈ l, f a ≠ []
  · obtain ⟨a, ha, hne⟩ := h
    have honly : ∀ b ∈ l, b ≠ a → f b = [] := fun b hb hba =>
      (hone b hb a ha hba).resolve_right hne
    rw [getLast?_flatMap_of_only ha honly,
      getLast?_flatMap_of_only (hperm.mem_iff.1 ha) fun b hb => honly b (hperm.mem_iff.2 hb)]
  · have hnil : ∀ a ∈ l, f a = [] := fun a ha => by
      by_contra hne
      exact h ⟨a, ha, hne⟩
    rw [List.flatMap_eq_nil_iff.2 hnil, List.flatMap_eq_nil_iff.2 fun a ha => hnil a (hperm.mem_iff.2 ha)]

end ClassTable

/-- The names of the classes that a source defines. -/
def definedNames (source : String) : List String :=
  (ClassTable.readSource {} {} source).classes.keys

/-- A source that is written out is read from its characters. -/
theorem definedNames_ofText {source : String} {text : List Char} (h : source = String.ofList text) :
    definedNames source = (ClassTable.readText {} {} text).classes.keys := by
  rw [definedNames, h, readSource_ofList]

/-- The names that a source defines are those of its classes. -/
theorem mem_definedNames {source name : String} (h : (sourceClasses? source).isSome) :
    name ∈ definedNames source ↔ name ∈ (sourceClasses source).map (·.name) := by
  obtain ⟨cs, hcs⟩ := Option.isSome_iff_exists.1 h
  rw [definedNames, (ClassTable.readSource_eq hcs {} {}).2, ClassTable.mem_keys_addAll, sourceClasses, hcs]
  simp [Table.keys]

namespace ClassTable

/-- What a table has under a name when sources are read that define different classes. -/
theorem get?_perm {sources sources' : List String} (hperm : sources.Perm sources')
    (hright : ∀ source ∈ sources, (sourceClasses? source).isSome)
    (hdistinct : ∀ a ∈ sources, ∀ b ∈ sources, a ≠ b → (definedNames a).Disjoint (definedNames b))
    (t : ClassTable) (name : String) :
    (t.addAll (sources'.flatMap sourceClasses)).get? name =
      (t.addAll (sources.flatMap sourceClasses)).get? name := by
  rw [get?_addAll, get?_addAll, List.filter_flatMap, List.filter_flatMap,
    getLast?_flatMap_perm hperm]
  intro a ha b hb hab
  -- a class with the name in both would be a name that both define
  have hdefines : ∀ source ∈ sources, (sourceClasses source).filter (·.name == name) ≠ [] →
      name ∈ definedNames source := by
    intro source hsource hne
    obtain ⟨c, hc⟩ := List.exists_mem_of_ne_nil _ hne
    obtain ⟨hmem, hname⟩ := List.mem_filter.1 hc
    rw [mem_definedNames (hright source hsource)]
    exact List.mem_map.2 ⟨c, hmem, by simpa using hname⟩
  by_contra hboth
  obtain ⟨hne, hne'⟩ := not_or.1 hboth
  exact hdistinct a ha b hb hab (hdefines a ha hne) (hdefines b hb hne')

end ClassTable

namespace Machine

/-- A program is the frozen table of the library and the sources. -/
theorem loadProgram_ok_iff {sources : List String} {p : Program} :
    loadProgram sources = .ok p ↔
      ∃ t, ClassTable.readSources {} {} (standardLibrary :: sources) = .ok t ∧ t.freeze = p := by
  unfold loadProgram
  rw [bind_eq_ok]
  exact exists_congr fun t => and_congr_right fun _ => ⟨Except.ok.inj, congrArg Except.ok⟩

/-- A program is loaded exactly if all its sources can be read. -/
theorem loadProgram_accepted_iff {sources : List String} :
    (∃ p, loadProgram sources = .ok p) ↔
      ∀ source ∈ standardLibrary :: sources, (sourceClasses? source).isSome := by
  constructor
  · rintro ⟨p, hp⟩
    obtain ⟨t, ht, -⟩ := loadProgram_ok_iff.1 hp
    exact (ClassTable.readSources_ok_iff.1 ht).1
  · intro h
    exact ⟨_, loadProgram_ok_iff.2 ⟨_, ClassTable.readSources_ok_iff.2 ⟨h, rfl⟩, rfl⟩⟩

/-- Renumbering keeps the superclass links. -/
theorem above?_renumber {ρ : Nat → Nat} {p q : Program} (h : p.Renumbers ρ q) (c : LoadedClass) :
    q.above? (c.renumber ρ) = (p.above? c).map (·.renumber ρ) := by
  obtain ⟨c, id, superId?⟩ := c
  cases superId? with
  | none => rfl
  | some above => exact h.classes above

/-- Two programs from the same sources in different orders, where no two sources define the same class,
differ by the numbers of the classes only. -/
theorem renumbers_of_perm {sources sources' : List String} {p q : Program}
    (hperm : sources.Perm sources')
    (hdistinct : ∀ a ∈ sources, ∀ b ∈ sources, a ≠ b → (definedNames a).Disjoint (definedNames b))
    (hp : loadProgram sources = .ok p) (hq : loadProgram sources' = .ok q) :
    ∃ ρ, p.Renumbers ρ q := by
  obtain ⟨t, ht, rfl⟩ := loadProgram_ok_iff.1 hp
  obtain ⟨t', ht', rfl⟩ := loadProgram_ok_iff.1 hq
  obtain ⟨hright, heq⟩ := ClassTable.readSources_ok_iff.1 ht
  obtain ⟨-, heq'⟩ := ClassTable.readSources_ok_iff.1 ht'
  rw [heq, heq']
  refine ⟨_, ClassTable.SameClasses.renumbers
    ⟨ClassTable.named_addAll ClassTable.named_empty _, ClassTable.named_addAll ClassTable.named_empty _,
      ClassTable.nodup_keys_addAll (t := {}) List.nodup_nil _,
      ClassTable.nodup_keys_addAll (t := {}) List.nodup_nil _,
      fun name => ?_⟩⟩
  -- the library comes first in both orders
  rw [List.flatMap_cons, List.flatMap_cons, ClassTable.addAll_append, ClassTable.addAll_append]
  exact ClassTable.get?_perm hperm (fun source hsource => hright source (List.mem_cons_of_mem _ hsource))
    hdistinct _ name

/-- Sources of which no two define the same class can come in any order: the program is loaded in both
orders or in neither, and the two programs have the same classes, linked in the same way, under numbers
that `ρ` translates. All lookups give the same method, the same field or the same fault, and a machine
goes through the same states, up to these numbers, with the same values and faults, whether it is fresh
or comes from anywhere. -/
theorem loadProgram_perm {sources sources' : List String} (hperm : sources.Perm sources')
    (hdistinct : ∀ a ∈ sources, ∀ b ∈ sources, a ≠ b → (definedNames a).Disjoint (definedNames b)) :
    ((∃ p, loadProgram sources = .ok p) ↔ ∃ q, loadProgram sources' = .ok q) ∧
    Natives.standard.Blind ∧
    ∀ p q, loadProgram sources = .ok p → loadProgram sources' = .ok q →
      ∃ ρ, p.Renumbers ρ q ∧
        (∀ c, q.above? (c.renumber ρ) = (p.above? c).map (·.renumber ρ)) ∧
        (∀ id, lookupStatic q id = lookupStatic p id) ∧
        (∀ id, lookupDirect q id = lookupDirect p id) ∧
        (∀ runtimeClass id, lookupVirtual q runtimeClass id = lookupVirtual p runtimeClass id) ∧
        (∀ id, lookupInstanceField q id =
          (lookupInstanceField p id).map (Prod.map (·.renumber ρ) fun f => f)) ∧
        (∀ id, lookupStaticField q id =
          Prod.map (·.renumber ρ) (fun f => f) <$> lookupStaticField p id) ∧
        (∀ id, q.findMethod? id = p.findMethod? id) ∧
        (∀ id, lookupMethod q id = lookupMethod p id) ∧
        ∀ natives maxDepth, natives.Blind →
          (∀ steps s method receiver? args,
            invoke ⟨q, natives, maxDepth⟩ steps (s.renumber ρ) method receiver? args =
              (invoke ⟨p, natives, maxDepth⟩ steps s method receiver? args).renumber ρ) ∧
          (∀ journal ops, history ⟨q, natives, maxDepth⟩ { journal } ops =
            (history ⟨p, natives, maxDepth⟩ { journal } ops).map (Outcome.renumber ρ)) := by
  refine ⟨?_, standard_blind, ?_⟩
  -- whether a source can be read does not depend on its place
  · rw [loadProgram_accepted_iff, loadProgram_accepted_iff]
    have hmem (source : String) : source ∈ standardLibrary :: sources ↔
        source ∈ standardLibrary :: sources' := (hperm.cons standardLibrary).mem_iff
    simp only [hmem]
  · intro p q hp hq
    obtain ⟨ρ, h⟩ := renumbers_of_perm hperm hdistinct hp hq
    refine ⟨ρ, h, above?_renumber h, fun id => lookupDeclared_renumber h id true,
      fun id => lookupDeclared_renumber h id false, lookupVirtual_renumber h,
      lookupInstanceField_renumber h, lookupStaticField_renumber h, findMethod?_renumber h,
      lookupMethod_renumber h, fun natives maxDepth hn => ⟨?_, ?_⟩⟩
    · intro steps s method receiver? args
      exact invoke_renumber h hn steps s method receiver? args
    · intro journal ops
      rw [← history_renumber h hn, State.renumber_fresh]

/-- A class that comes before its superclass. -/
def subclassSource : String := "
.class LSub;
.super LBase;
.method static run()I
    .registers 1
    sget v0, LBase;->count:I
    return v0
.end method
"

/-- The superclass. -/
def superclassSource : String := "
.class LBase;
.field static count:I = 0x7
"

/-- The value with which a run returns. -/
def Outcome.value? : Outcome → Option (Option Value)
  | .returned _ value? => some value?
  | _ => none

/-- Renumbering keeps the value. -/
theorem value?_renumber {ρ : Nat → Nat} (o : Outcome) : (o.renumber ρ).value? = o.value? := by
  cases o <;> rfl

/-- The method that reads a field of the superclass. -/
def runSub : MethodId := ⟨"LSub;", "run", [], .int⟩

set_option maxRecDepth 10000 in
/-- The numbers of the subclass in both orders, and what its method returns. -/
theorem subclass_ids : (loadProgram [subclassSource, superclassSource]).toOption.bind
    (fun p => (loadProgram [superclassSource, subclassSource]).toOption.map
      (fun q => ((p.find? "LSub;").map (·.id), (q.find? "LSub;").map (·.id),
        (p.findMethod? runSub).map fun m => (invoke ⟨p, .standard, 128⟩ 10 {} m none []).value?))) =
      some (some 12, some 13, some (some (some (.int 7)))) := by
  rw [loadProgram_ofTexts (show [subclassSource, superclassSource] = List.map String.ofList [_, _] from rfl),
    loadProgram_ofTexts (show [superclassSource, subclassSource] = List.map String.ofList [_, _] from rfl)]
  decide +kernel

/-- The subclass gets another number when the superclass comes first, and the method returns what it
returns. -/
theorem subclass_perm :
    (∀ a ∈ [subclassSource, superclassSource], ∀ b ∈ [subclassSource, superclassSource], a ≠ b →
      (definedNames a).Disjoint (definedNames b)) ∧
    ∃ p q ρ m, loadProgram [subclassSource, superclassSource] = .ok p ∧
      loadProgram [superclassSource, subclassSource] = .ok q ∧ p.Renumbers ρ q ∧
      (p.find? "LSub;").map (·.id) = some 12 ∧ (q.find? "LSub;").map (·.id) = some 13 ∧
      p.findMethod? runSub = some m ∧ q.findMethod? runSub = some m ∧
      (invoke ⟨p, .standard, 128⟩ 10 {} m none []).value? = some (some (.int 7)) ∧
      (invoke ⟨q, .standard, 128⟩ 10 {} m none []).value? = some (some (.int 7)) := by
  have hsub : definedNames subclassSource = ["LSub;"] := by decide +kernel
  have hsuper : definedNames superclassSource = ["LBase;"] := by decide +kernel
  -- each of the two defines one class, under its own name
  have hdistinct : ∀ a ∈ [subclassSource, superclassSource],
      ∀ b ∈ [subclassSource, superclassSource], a ≠ b →
        (definedNames a).Disjoint (definedNames b) := by
    intro a ha b hb hab
    obtain rfl | rfl := List.mem_pair.1 ha
    · obtain rfl | rfl := List.mem_pair.1 hb
      · exact absurd rfl hab
      · simp [hsub, hsuper]
    · obtain rfl | rfl := List.mem_pair.1 hb
      · simp [hsub, hsuper]
      · exact absurd rfl hab
  refine ⟨hdistinct, ?_⟩
  obtain ⟨p, hp, hids⟩ := Option.bind_eq_some_iff.1 subclass_ids
  obtain ⟨q, hq, hids⟩ := Option.map_eq_some_iff.1 hids
  obtain ⟨hidp, hids⟩ := Prod.mk.inj hids
  obtain ⟨hidq, hvalue⟩ := Prod.mk.inj hids
  obtain ⟨m, hm, hvalue⟩ := Option.map_eq_some_iff.1 hvalue
  obtain ⟨-, hblind, hsame⟩ := loadProgram_perm (List.Perm.swap superclassSource subclassSource []) hdistinct
  obtain ⟨ρ, hρ, -, -, -, -, -, -, hmethod, -, hruns⟩ :=
    hsame p q (ok_of_toOption hp) (ok_of_toOption hq)
  -- the run with the other numbers is the same run renumbered
  have hrun := (hruns .standard 128 hblind).1 10 {} m none []
  refine ⟨p, q, ρ, m, ok_of_toOption hp, ok_of_toOption hq, hρ, hidp, hidq, hm,
    (hmethod runSub).trans hm, hvalue, ?_⟩
  rw [State.renumber_fresh] at hrun
  rw [hrun, value?_renumber]
  exact hvalue

end Machine
end Smali
