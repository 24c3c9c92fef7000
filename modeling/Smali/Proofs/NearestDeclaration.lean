import Smali.Proofs.Flow
import Smali.Proofs.Numbering

/-!
# Nearest declarations

The chain of a class follows the names of the superclasses: behind each class comes the class of the
program that has the name of its superclass. It ends at a class without superclass, breaks off at a name
that no class has, or goes round in a circle. A lookup that goes up the superclass links goes up this
chain. It takes the first thing it finds, so a declaration hides those above it, and it fails only if the
chain ends or breaks off before anything is found.

## Key results

- `searchUp_chain`: a walk that finds nothing on the way goes on from where the chain leads
- `searchUp_eq_iff`: what a walk comes to, told by the chain
- `lookups_take_nearest`: what the lookups of methods and of instance fields find, and when they fail how
-/

namespace Smali

/-! ## Chains of classes -/

namespace Program

/-- The chain from `c` to `d`, with the classes passed before `d`: behind each comes the class that has
the name of its superclass. -/
inductive Chain (p : Program) : LoadedClass → List LoadedClass → LoadedClass → Prop where
  | here (c : LoadedClass) : Chain p c [] c
  | up {c above d : LoadedClass} {name : String} {passed : List LoadedClass}
    (hname : c.superName? = some name) (habove : p.find? name = some above)
    (hrest : Chain p above passed d) : Chain p c (c :: passed) d

/-- The chain of a class goes round in a circle. -/
def Loops (p : Program) (c : LoadedClass) : Prop :=
  ∃ d passed circle, p.Chain c passed d ∧ p.Chain d circle d ∧ circle ≠ []

variable {α : Type} (p : Program) (pick : LoadedClass → Option α)

/-- The chain of `c` leads to `d`, and nothing is found in the classes before. -/
def Comes (c d : LoadedClass) : Prop :=
  ∃ passed, p.Chain c passed d ∧ ∀ x ∈ passed, pick x = none

/-- The first class of the chain of `c` in which anything is found is `d`, and there it is `a`. -/
def Meets (c d : LoadedClass) (a : α) : Prop :=
  p.Comes pick c d ∧ pick d = some a

/-- The chain of `c` ends at a class without superclass, and nothing is found in it. -/
def Exhausts (c : LoadedClass) : Prop :=
  ∃ d, p.Comes pick c d ∧ pick d = none ∧ d.superName? = none

/-- The chain of `c` breaks off at a name that no class has, and nothing is found in it. -/
def Breaks (c : LoadedClass) (name : String) : Prop :=
  ∃ d, p.Comes pick c d ∧ pick d = none ∧ d.superName? = some name ∧ p.find? name = none

variable {p pick} {c above d : LoadedClass} {name : String}

/-- The chain of a class of the program stays in the program. -/
theorem mem_of_chain {passed : List LoadedClass} (hc : c ∈ p.classes)
    (hchain : p.Chain c passed d) : d ∈ p.classes := by
  induction hchain with
  | here c => exact hc
  | up hname habove hrest ih => exact ih (Array.mem_of_find?_eq_some habove)

/-- A class is the first of its chain. -/
theorem comes_refl (p : Program) (pick : LoadedClass → Option α) (c : LoadedClass) :
    p.Comes pick c c :=
  ⟨[], .here c, fun _ hx => absurd hx List.not_mem_nil⟩

/-- A class in which nothing is found comes in front of the chain. -/
theorem Comes.up (hnone : pick c = none) (hname : c.superName? = some name)
    (habove : p.find? name = some above) (h : p.Comes pick above d) : p.Comes pick c d := by
  obtain ⟨passed, hchain, hpassed⟩ := h
  exact ⟨c :: passed, .up hname habove hchain, List.forall_mem_cons.2 ⟨hnone, hpassed⟩⟩

end Program

/-! ## Chains and links -/

namespace ClassTable

variable {t : ClassTable} {c d : LoadedClass}

/-- The links of a frozen table follow the names of the superclasses. -/
theorem extends_freeze (h : t.Named) (hc : c ∈ t.freeze.classes) :
    t.freeze.Extends c d ↔ ∃ name, c.superName? = some name ∧ t.freeze.find? name = some d := by
  rw [Program.Extends, above?_freeze h hc, Option.bind_eq_some_iff]

/-- Links lead wherever the chain does. -/
theorem reflTransGen_of_chain (h : t.Named) {passed : List LoadedClass}
    (hc : c ∈ t.freeze.classes) (hchain : t.freeze.Chain c passed d) :
    Relation.ReflTransGen t.freeze.Extends c d := by
  -- the induction is on the chain, whose classes all belong to the program
  induction hchain with
  | here c => exact .refl
  | up hname habove hrest ih =>
    exact .head ((extends_freeze h hc).2 ⟨_, hname, habove⟩) (ih (Array.mem_of_find?_eq_some habove))

/-- The chain leads wherever the links do. -/
theorem chain_of_reflTransGen (h : t.Named) (hc : c ∈ t.freeze.classes)
    (hlinks : Relation.ReflTransGen t.freeze.Extends c d) : ∃ passed, t.freeze.Chain c passed d := by
  -- the links are taken from the front, as the chain is built
  induction hlinks using Relation.ReflTransGen.head_induction_on with
  | refl => exact ⟨[], .here d⟩
  | head hlink hrest ih =>
    obtain ⟨name, hname, habove⟩ := (extends_freeze h hc).1 hlink
    obtain ⟨passed, hchain⟩ := ih (Program.mem_of_extends hlink)
    exact ⟨_, .up hname habove hchain⟩

/-- Chains go round in circles where the links do. -/
theorem loops_freeze (h : t.Named) (hc : c ∈ t.freeze.classes) :
    t.freeze.Loops c ↔ t.freeze.Circular c := by
  constructor
  · rintro ⟨d, passed, circle, hpassed, hcircle, hne⟩
    refine ⟨d, reflTransGen_of_chain h hc hpassed, ?_⟩
    -- a circle has at least one link
    cases hcircle with
    | here => exact absurd rfl hne
    | up hname habove hrest =>
      exact .head' ((extends_freeze h (Program.mem_of_chain hc hpassed)).2 ⟨_, hname, habove⟩)
        (reflTransGen_of_chain h (Array.mem_of_find?_eq_some habove) hrest)
  · rintro ⟨d, hlinks, hround⟩
    obtain ⟨passed, hpassed⟩ := chain_of_reflTransGen h hc hlinks
    -- the first link of the circle goes up, and the last one shows that its class is in the program
    obtain ⟨above, hlink, hback⟩ := Relation.TransGen.head'_iff.1 hround
    obtain ⟨_, _, hlast⟩ := Relation.TransGen.tail'_iff.1 hround
    obtain ⟨name, hname, habove⟩ := (extends_freeze h (Program.mem_of_extends hlast)).1 hlink
    obtain ⟨circle, hcircle⟩ := chain_of_reflTransGen h (Program.mem_of_extends hlink) hback
    exact ⟨d, passed, d :: circle, hpassed, .up hname habove hcircle, List.cons_ne_nil _ _⟩

end ClassTable

namespace Machine

open ClassTable

variable {t : ClassTable} {c d : LoadedClass} {α : Type} {pick : LoadedClass → Option α}

/-! ## Walks along chains -/

/-- The superclass is the class with its name. -/
theorem superclass?_above (h : t.Named) (hc : c ∈ t.freeze.classes) {name : String}
    {above : LoadedClass} (hname : c.superName? = some name)
    (habove : t.freeze.find? name = some above) :
    superclass? t.freeze c = .ok (some above) :=
  superclass?_eq_some_iff.2 ((extends_freeze h hc).2 ⟨name, hname, habove⟩)

/-- A class may have no superclass. -/
theorem superclass?_top (hc : c ∈ t.freeze.classes) (hname : c.superName? = none) :
    superclass? t.freeze c = .ok none := by
  rw [superclass?, superId?_freeze hc, hname]
  rfl

/-- The superclass may be missing. -/
theorem superclass?_missing (h : t.Named) (hc : c ∈ t.freeze.classes) {name : String}
    (hname : c.superName? = some name) (hmissing : t.freeze.find? name = none) :
    superclass? t.freeze c = .error (.classNotFound name) := by
  have hid : t.id? name = none := by
    rw [← id_find? h, hmissing, Option.map_none]
  rw [superclass?, superId?_freeze hc, hname, Option.bind_some, hid]

/-- A walk that finds nothing on the way goes on from where the chain leads. -/
theorem searchUp_chain (h : t.Named) (hc : c ∈ t.freeze.classes) {passed : List LoadedClass}
    (hchain : t.freeze.Chain c passed d) (hpassed : ∀ x ∈ passed, pick x = none) (steps : Nat) :
    searchUp t.freeze pick (steps + passed.length) c = searchUp t.freeze pick steps d := by
  -- the induction is on the chain
  induction hchain with
  | here c => rfl
  | up hname habove hrest ih =>
    obtain ⟨hnone, hpassed⟩ := List.forall_mem_cons.1 hpassed
    -- one class is passed, and the rest of the chain starts at the class above
    rw [List.length_cons, ← Nat.add_assoc, searchUp, hnone, superclass?_above h hc hname habove]
    exact ih (Array.mem_of_find?_eq_some habove) hpassed

/-- What a walk from a class comes to by its chain. -/
def EndsIn (p : Program) (pick : LoadedClass → Option α) (c : LoadedClass) : Search (Option α) → Prop
  | .found (some a) => ∃ d, p.Meets pick c d a
  | .found none => p.Exhausts pick c
  | .failed e => ∃ name, e = .classNotFound name ∧ p.Breaks pick c name
  | .endless => False

/-- A class in which nothing is found does not change what a walk comes to. -/
theorem EndsIn.up {p : Program} {above : LoadedClass} {name : String} {result : Search (Option α)}
    (hnone : pick c = none) (hname : c.superName? = some name) (habove : p.find? name = some above)
    (h : EndsIn p pick above result) : EndsIn p pick c result := by
  -- whatever the walk comes to, it comes to it behind one more class
  cases result with
  | found a? =>
    cases a? with
    | some a =>
      obtain ⟨d, hd, ha⟩ := h
      exact ⟨d, hd.up hnone hname habove, ha⟩
    | none =>
      obtain ⟨d, hd, htop⟩ := h
      exact ⟨d, hd.up hnone hname habove, htop⟩
  | failed e =>
    obtain ⟨missing, he, d, hd, hbroken⟩ := h
    exact ⟨missing, he, d, hd.up hnone hname habove, hbroken⟩
  | endless => exact h

/-- A walk with an end comes to what the chain says. -/
theorem endsIn_of_searchUp (h : t.Named) (hc : c ∈ t.freeze.classes) {steps : Nat}
    (hend : searchUp t.freeze pick steps c ≠ .endless) :
    EndsIn t.freeze pick c (searchUp t.freeze pick steps c) := by
  -- the induction is on the classes that may still be looked at
  induction steps generalizing c with
  | zero => exact absurd rfl hend
  | succ steps ih =>
    have hhere := t.freeze.comes_refl pick c
    unfold searchUp at hend ⊢
    -- something is found here, or the walk goes where the chain goes
    cases hpick : pick c with
    | some a => exact ⟨c, hhere, hpick⟩
    | none =>
      rw [hpick] at hend
      cases hname : c.superName? with
      | none =>
        rw [superclass?_top hc hname]
        exact ⟨c, hhere, hpick, hname⟩
      | some name =>
        cases hfind : t.freeze.find? name with
        | none =>
          rw [superclass?_missing h hc hname hfind]
          exact ⟨name, rfl, c, hhere, hpick, hname, hfind⟩
        | some above =>
          rw [superclass?_above h hc hname hfind] at hend ⊢
          exact (ih (Array.mem_of_find?_eq_some hfind) hend).up hpick hname hfind

/-- A walk gets to the class where the chain leads with nothing found. -/
theorem searchUp_of_comes (h : t.Named) (hc : c ∈ t.freeze.classes) (hd : t.freeze.Comes pick c d) :
    d ∈ t.freeze.classes ∧
      ∃ steps, searchUp t.freeze pick steps c = searchUp t.freeze pick 1 d := by
  obtain ⟨passed, hchain, hpassed⟩ := hd
  exact ⟨Program.mem_of_chain hc hchain, 1 + passed.length, searchUp_chain h hc hchain hpassed 1⟩

/-- What the chain says is what a walk comes to that is long enough. -/
theorem searchUp_of_endsIn (h : t.Named) (hc : c ∈ t.freeze.classes) {result : Search (Option α)}
    (hend : EndsIn t.freeze pick c result) : ∃ steps, searchUp t.freeze pick steps c = result := by
  cases result with
  | found a? =>
    cases a? with
    | some a =>
      obtain ⟨d, hd, ha⟩ := hend
      obtain ⟨-, steps, hsteps⟩ := searchUp_of_comes h hc hd
      exact ⟨steps, by rw [hsteps, searchUp, ha]⟩
    | none =>
      obtain ⟨d, hd, hnone, htop⟩ := hend
      obtain ⟨hmem, steps, hsteps⟩ := searchUp_of_comes h hc hd
      exact ⟨steps, by rw [hsteps, searchUp, hnone, superclass?_top hmem htop]⟩
  | failed e =>
    obtain ⟨name, rfl, d, hd, hnone, hname, hmissing⟩ := hend
    obtain ⟨hmem, steps, hsteps⟩ := searchUp_of_comes h hc hd
    exact ⟨steps, by rw [hsteps, searchUp, hnone, superclass?_missing h hmem hname hmissing]⟩
  | endless => exact absurd hend id

/-- A walk that has come to its end does not change with a larger bound. -/
theorem searchUp_add {p : Program} {steps : Nat} (h : searchUp p pick steps c ≠ .endless) (more : Nat) :
    searchUp p pick (steps + more) c = searchUp p pick steps c := by
  -- the induction is on the smaller bound
  induction steps generalizing c with
  | zero => exact absurd rfl h
  | succ steps ih =>
    rw [Nat.succ_add]
    unfold searchUp at h ⊢
    cases hpick : pick c with
    | some a => rfl
    | none =>
      rw [hpick] at h
      cases hsuper : superclass? p c with
      | error e => rfl
      | ok above? =>
        rw [hsuper] at h
        cases above? with
        | none => rfl
        | some above => exact ih h

/-- The bound of a lookup is as good as any other. -/
theorem searchUp_size {p : Program} (hc : c ∈ p.classes) {steps : Nat}
    (h : searchUp p pick steps c ≠ .endless) :
    searchUp p pick p.classes.size c = searchUp p pick steps c := by
  have hsize : searchUp p pick p.classes.size c ≠ .endless := by
    -- otherwise the links would lead into a circle, and no bound would be enough
    intro hendless
    obtain ⟨hcircular, hnone⟩ := (searchUp_endless_iff pick hc).1 hendless
    exact h (searchUp_of_circular hcircular hnone steps)
  -- both walks agree with one that is longer than either
  rw [← searchUp_add h p.classes.size, ← searchUp_add hsize steps, Nat.add_comm]

/-- What a walk comes to, told by the chain. -/
theorem searchUp_eq_iff (h : t.Named) (hc : c ∈ t.freeze.classes) {result : Search (Option α)}
    (hend : result ≠ .endless) :
    searchUp t.freeze pick t.freeze.classes.size c = result ↔ EndsIn t.freeze pick c result := by
  constructor
  · rintro rfl
    exact endsIn_of_searchUp h hc hend
  · intro hresult
    obtain ⟨steps, rfl⟩ := searchUp_of_endsIn h hc hresult
    exact searchUp_size hc hend

/-! ## Picks -/

/-- The method that is picked is one of those that an identifier may mean, and of several it has the
result type. -/
theorem candidate_of_selectMethod? {c : Class} {id : MethodId} {static : Bool} {m : Method}
    (h : selectMethod? c id static = some m) :
    (m ∈ c.methods ∧ m.isStatic = static ∧ m.name = id.name ∧ m.params = id.params) ∧
      (1 < c.methods.countP (fun m => m.isStatic == static && m.answersTo id.name id.params) →
        m.returnType = id.returnType) := by
  have hcandidate (hmem : m ∈ c.methods.filter fun m =>
      m.isStatic == static && m.answersTo id.name id.params) :
      m ∈ c.methods ∧ m.isStatic = static ∧ m.name = id.name ∧ m.params = id.params := by
    simpa [Method.answersTo] using hmem
  unfold selectMethod? at h
  rw [List.countP_eq_length_filter]
  -- no candidate, a single one, or several among which the result type decides
  split at h
  · cases h
  · next only hfilter =>
    obtain rfl := Option.some.inj h
    refine ⟨hcandidate (hfilter ▸ List.mem_singleton_self only), fun hseveral => ?_⟩
    rw [hfilter] at hseveral
    exact absurd hseveral (Nat.lt_irrefl 1)
  · exact ⟨hcandidate (List.mem_of_find?_eq_some h), fun _ => by simpa using List.find?_some h⟩

/-! ## Virtual methods -/

section Virtual

variable {runtimeClass : String} {id : MethodId}

/-- The class that the identifier names has to be there. -/
theorem lookupVirtual_unnamed {p : Program} (hnamed : p.find? id.className = none) :
    lookupVirtual p runtimeClass id = .failed (.classNotFound id.className) := by
  simp only [lookupVirtual, findClass, hnamed]

/-- The class of the object has to be there. -/
theorem lookupVirtual_unknown {p : Program} {named : LoadedClass}
    (hnamed : p.find? id.className = some named) (hc : p.find? runtimeClass = none) :
    lookupVirtual p runtimeClass id = .failed (.classNotFound runtimeClass) := by
  simp only [lookupVirtual, findClass, hnamed, hc]

/-- With both classes there, a virtual lookup comes to what a walk comes to. -/
theorem lookupVirtual_walk {p : Program} {named : LoadedClass} {walk : Search (Option Method)}
    (hnamed : p.find? id.className = some named) (hc : p.find? runtimeClass = some c)
    (hwalk : searchUp p (fun c => selectMethod? c.toClass id false) p.classes.size c = walk) :
    (∀ m, lookupVirtual p runtimeClass id = .found m ↔ walk = .found (some m)) ∧
    (∀ e, lookupVirtual p runtimeClass id = .failed e ↔
      walk = .failed e ∨ walk = .found none ∧ e = .methodNotFound (.unresolved id)) := by
  simp only [lookupVirtual, findClass, hnamed, hc, hwalk]
  cases walk with
  | found m? => cases m? <;> simp [eq_comm]
  | failed e => simp
  | endless => simp

/-- A virtual lookup finds what is picked in the first class that has anything to pick. -/
theorem lookupVirtual_found_iff (h : t.Named) {m : Method} :
    lookupVirtual t.freeze runtimeClass id = .found m ↔
      ∃ named c d, t.freeze.find? id.className = some named ∧
        t.freeze.find? runtimeClass = some c ∧
        t.freeze.Meets (fun c => selectMethod? c.toClass id false) c d m := by
  -- the two classes are looked for in this order
  cases hnamed : t.freeze.find? id.className with
  | none => simp [lookupVirtual_unnamed hnamed]
  | some named =>
    cases hc : t.freeze.find? runtimeClass with
    | none => simp [lookupVirtual_unknown hnamed hc]
    | some c =>
      rw [(lookupVirtual_walk hnamed hc rfl).1,
        searchUp_eq_iff h (Array.mem_of_find?_eq_some hc) (by simp)]
      simp [EndsIn]

/-- It fails if one of the two classes that it starts with is not there, if the chain breaks off, or if the
chain ends. -/
theorem lookupVirtual_failed_iff (h : t.Named) {e : Fault} :
    lookupVirtual t.freeze runtimeClass id = .failed e ↔
      t.freeze.find? id.className = none ∧ e = .classNotFound id.className ∨
      ∃ named, t.freeze.find? id.className = some named ∧
        (t.freeze.find? runtimeClass = none ∧ e = .classNotFound runtimeClass ∨
        ∃ c, t.freeze.find? runtimeClass = some c ∧
          ((∃ name, e = .classNotFound name ∧
            t.freeze.Breaks (fun c => selectMethod? c.toClass id false) c name) ∨
          e = .methodNotFound (.unresolved id) ∧
            t.freeze.Exhausts (fun c => selectMethod? c.toClass id false) c)) := by
  cases hnamed : t.freeze.find? id.className with
  | none => simp [lookupVirtual_unnamed hnamed, eq_comm]
  | some named =>
    cases hc : t.freeze.find? runtimeClass with
    | none => simp [lookupVirtual_unknown hnamed hc, eq_comm]
    | some c =>
      have hmem := Array.mem_of_find?_eq_some hc
      rw [(lookupVirtual_walk hnamed hc rfl).2, searchUp_eq_iff h hmem (by simp),
        searchUp_eq_iff h hmem (by simp)]
      simp [EndsIn, and_comm]

end Virtual

/-! ## Instance fields -/

section Fields

variable {id : FieldId}

/-- The class that the identifier names has to be there. -/
theorem lookupInstanceField_unnamed {p : Program} (hc : p.find? id.className = none) :
    lookupInstanceField p id = .failed (.classNotFound id.className) := by
  simp only [lookupInstanceField, findClass, hc]

/-- With the class there, a lookup of an instance field comes to what a walk comes to, if that is no
static field. -/
theorem lookupInstanceField_walk {p : Program} {walk : Search (Option (LoadedClass × Field))}
    (hc : p.find? id.className = some c)
    (hwalk : searchUp p (fun c => (c.fields.get? id.name).map (c, ·)) p.classes.size c = walk) :
    (∀ owner f, lookupInstanceField p id = .found (owner, f) ↔
      walk = .found (some (owner, f)) ∧ f.isStatic = false) ∧
    (∀ e, lookupInstanceField p id = .failed e ↔
      walk = .failed e ∨ e = .fieldNotFound id.text ∧
        (walk = .found none ∨ ∃ owner f, walk = .found (some (owner, f)) ∧ f.isStatic = true)) := by
  simp only [lookupInstanceField, findClass, hc, hwalk]
  -- what the walk finds counts only if it is no static field
  cases walk with
  | found place? =>
    cases place? with
    | none => simp [eq_comm (a := Fault.fieldNotFound id.text)]
    | some place =>
      obtain ⟨owner, f⟩ := place
      cases hstatic : f.isStatic with
      | true => simp [hstatic, eq_comm (a := Fault.fieldNotFound id.text)]
      | false => simp_all
  | failed e => simp
  | endless => simp

/-- A walk that keeps the class with its field goes where a walk for the field alone goes. -/
theorem endsIn_field (p : Program) (c : LoadedClass) :
    (∀ owner f, EndsIn p (fun c => (c.fields.get? id.name).map (c, ·)) c (.found (some (owner, f))) ↔
      p.Meets (fun c => c.fields.get? id.name) c owner f) ∧
    (EndsIn p (fun c => (c.fields.get? id.name).map (c, ·)) c (.found none) ↔
      p.Exhausts (fun c => c.fields.get? id.name) c) ∧
    (∀ e, EndsIn p (fun c => (c.fields.get? id.name).map (c, ·)) c (.failed e) ↔
      ∃ name, e = .classNotFound name ∧ p.Breaks (fun c => c.fields.get? id.name) c name) := by
  simp only [EndsIn, Program.Meets, Program.Exhausts, Program.Breaks, Program.Comes,
    Option.map_eq_none_iff, Option.map_eq_some_iff, Prod.mk.injEq, implies_true, and_true]
  -- only where a field is found does the class kept with it matter
  intro owner f
  constructor
  · rintro ⟨d, hd, f', hf, rfl, rfl⟩
    exact ⟨hd, hf⟩
  · rintro ⟨hd, hf⟩
    exact ⟨owner, hd, f, hf, rfl, rfl⟩

/-- The field that is found is that of the first class to declare the name, unless that is static. -/
theorem lookupInstanceField_found_iff (h : t.Named) {owner : LoadedClass} {f : Field} :
    lookupInstanceField t.freeze id = .found (owner, f) ↔
      ∃ c, t.freeze.find? id.className = some c ∧
        t.freeze.Meets (fun c => c.fields.get? id.name) c owner f ∧ f.isStatic = false := by
  cases hc : t.freeze.find? id.className with
  | none => simp [lookupInstanceField_unnamed hc]
  | some c =>
    rw [(lookupInstanceField_walk hc rfl).1,
      searchUp_eq_iff h (Array.mem_of_find?_eq_some hc) (by simp), (endsIn_field _ c).1]
    simp

/-- It is missing if the first class to declare the name has a static field, and if the chain ends before any
class does. -/
theorem lookupInstanceField_failed_iff (h : t.Named) {e : Fault} :
    lookupInstanceField t.freeze id = .failed e ↔
      t.freeze.find? id.className = none ∧ e = .classNotFound id.className ∨
      ∃ c, t.freeze.find? id.className = some c ∧
        ((∃ name, e = .classNotFound name ∧
          t.freeze.Breaks (fun c => c.fields.get? id.name) c name) ∨
        e = .fieldNotFound id.text ∧
          (t.freeze.Exhausts (fun c => c.fields.get? id.name) c ∨
          ∃ owner f, t.freeze.Meets (fun c => c.fields.get? id.name) c owner f ∧
            f.isStatic = true)) := by
  cases hc : t.freeze.find? id.className with
  | none => simp [lookupInstanceField_unnamed hc, eq_comm (a := e)]
  | some c =>
    have hmem := Array.mem_of_find?_eq_some hc
    have hfound (owner : LoadedClass) (f : Field) :
        searchUp t.freeze (fun c => (c.fields.get? id.name).map (c, ·)) t.freeze.classes.size c =
          .found (some (owner, f)) ↔
            t.freeze.Meets (fun c => c.fields.get? id.name) c owner f := by
      rw [searchUp_eq_iff h hmem (by simp), (endsIn_field _ c).1]
    rw [(lookupInstanceField_walk hc rfl).2, searchUp_eq_iff h hmem (by simp),
      searchUp_eq_iff h hmem (by simp), (endsIn_field _ c).2.1, (endsIn_field _ c).2.2]
    simp [hfound]

end Fields

/-! ## Circles -/

/-- The links lead into a circle past classes of one kind exactly if the chain does. -/
theorem circular_iff_loops (h : t.Named) (hc : c ∈ t.freeze.classes) (P : LoadedClass → Prop) :
    (t.freeze.Circular c ∧ ∀ d, Relation.ReflTransGen t.freeze.Extends c d → P d) ↔
      t.freeze.Loops c ∧ ∀ passed d, t.freeze.Chain c passed d → P d := by
  rw [loops_freeze h hc]
  refine and_congr_right fun _ => ⟨fun hall passed d hchain => ?_, fun hall d hlinks => ?_⟩
  · exact hall d (reflTransGen_of_chain h hc hchain)
  · obtain ⟨passed, hchain⟩ := chain_of_reflTransGen h hc hlinks
    exact hall passed d hchain

/-- A class is found by its name. -/
theorem findClass_eq_ok_iff {p : Program} {name : String} :
    findClass p name = .ok c ↔ p.find? name = some c := by
  refine ⟨findClass_ok, fun h => ?_⟩
  rw [findClass, h]

/-- A virtual lookup has no end exactly if the chain goes round with nothing to pick. -/
theorem lookupVirtual_loops_iff (h : t.Named) {runtimeClass : String} {id : MethodId} :
    lookupVirtual t.freeze runtimeClass id = .endless ↔
      ∃ named c, t.freeze.find? id.className = some named ∧
        t.freeze.find? runtimeClass = some c ∧ t.freeze.Loops c ∧
        ∀ passed d, t.freeze.Chain c passed d → selectMethod? d.toClass id false = none := by
  rw [lookupVirtual_endless_iff]
  simp only [findClass_eq_ok_iff]
  constructor
  · rintro ⟨⟨named, hnamed⟩, c, hc, hcircle⟩
    exact ⟨named, c, hnamed, hc,
      (circular_iff_loops h (Array.mem_of_find?_eq_some hc) _).1 hcircle⟩
  · rintro ⟨named, c, hnamed, hc, hcircle⟩
    exact ⟨⟨named, hnamed⟩, c, hc,
      (circular_iff_loops h (Array.mem_of_find?_eq_some hc) _).2 hcircle⟩

/-- A lookup of an instance field has no end exactly if the chain goes round and no class in it declares the
name. -/
theorem lookupInstanceField_loops_iff (h : t.Named) {id : FieldId} :
    lookupInstanceField t.freeze id = .endless ↔
      ∃ c, t.freeze.find? id.className = some c ∧ t.freeze.Loops c ∧
        ∀ passed d, t.freeze.Chain c passed d → d.fields.get? id.name = none := by
  rw [lookupInstanceField_endless_iff]
  simp only [findClass_eq_ok_iff]
  refine exists_congr fun c => and_congr_right fun hc => ?_
  exact circular_iff_loops h (Array.mem_of_find?_eq_some hc) _

/-! ## Lookups -/

/-- The lookups up the superclass chains of a program, which is made of any classes. A virtual lookup
starts at the class of the object, and takes what is picked in the first class of the chain in which
anything is: a method that is not static, has name and parameters of the identifier, and its result type
too if the class has several such methods. It fails only if a class or the method is missing: the class
that the identifier names, that of the object, the superclass at which the chain breaks off before anything
is picked, or else, if the chain ends with nothing picked, the method. An instance field is that of the
first class of the chain to declare its name. It is missing also if that class declares a static field.
There is no other outcome, except in chains that go round in a circle with nothing to be found. -/
theorem lookups_take_nearest (classes : List Class) :
    let p := (ClassTable.addAll {} classes).freeze
    (∀ (runtimeClass : String) (id : MethodId),
      let pick := fun c : LoadedClass => selectMethod? c.toClass id false
      (∀ m, lookupVirtual p runtimeClass id = .found m ↔
        ∃ named c d, p.find? id.className = some named ∧ p.find? runtimeClass = some c ∧
          p.Meets pick c d m) ∧
      (∀ d m, pick d = some m →
        (m ∈ d.methods ∧ m.isStatic = false ∧ m.name = id.name ∧ m.params = id.params) ∧
        (1 < d.methods.countP (fun m => m.isStatic == false && m.answersTo id.name id.params) →
          m.returnType = id.returnType)) ∧
      (∀ name, lookupVirtual p runtimeClass id = .failed (.classNotFound name) ↔
        p.find? id.className = none ∧ name = id.className ∨
        ∃ named, p.find? id.className = some named ∧
          (p.find? runtimeClass = none ∧ name = runtimeClass ∨
          ∃ c, p.find? runtimeClass = some c ∧ p.Breaks pick c name)) ∧
      (∀ cause, lookupVirtual p runtimeClass id = .failed (.methodNotFound cause) ↔
        cause = .unresolved id ∧
        ∃ named c, p.find? id.className = some named ∧ p.find? runtimeClass = some c ∧
          p.Exhausts pick c) ∧
      (∀ e, lookupVirtual p runtimeClass id = .failed e →
        (∃ name, e = .classNotFound name) ∨ ∃ cause, e = .methodNotFound cause) ∧
      (lookupVirtual p runtimeClass id = .endless ↔
        ∃ named c, p.find? id.className = some named ∧ p.find? runtimeClass = some c ∧
          p.Loops c ∧ ∀ passed d, p.Chain c passed d → pick d = none)) ∧
    ∀ id : FieldId,
      let declared := fun c : LoadedClass => c.fields.get? id.name
      (∀ owner f, lookupInstanceField p id = .found (owner, f) ↔
        ∃ c, p.find? id.className = some c ∧ p.Meets declared c owner f ∧ f.isStatic = false) ∧
      (∀ name, lookupInstanceField p id = .failed (.classNotFound name) ↔
        p.find? id.className = none ∧ name = id.className ∨
        ∃ c, p.find? id.className = some c ∧ p.Breaks declared c name) ∧
      (∀ text, lookupInstanceField p id = .failed (.fieldNotFound text) ↔
        text = id.text ∧
        ∃ c, p.find? id.className = some c ∧
          (p.Exhausts declared c ∨ ∃ owner f, p.Meets declared c owner f ∧ f.isStatic = true)) ∧
      (∀ e, lookupInstanceField p id = .failed e →
        (∃ name, e = .classNotFound name) ∨ ∃ text, e = .fieldNotFound text) ∧
      (lookupInstanceField p id = .endless ↔
        ∃ c, p.find? id.className = some c ∧ p.Loops c ∧
          ∀ passed d, p.Chain c passed d → declared d = none) := by
  have hnamed : (ClassTable.addAll {} classes).Named := named_addAll named_empty classes
  constructor
  · intro runtimeClass id
    refine ⟨fun m => lookupVirtual_found_iff hnamed, fun d m => candidate_of_selectMethod?, fun name => ?_,
      fun cause => ?_, fun e he => ?_, lookupVirtual_loops_iff hnamed⟩
    · rw [lookupVirtual_failed_iff hnamed]
      simp
    · rw [lookupVirtual_failed_iff hnamed]
      grind
    · rw [lookupVirtual_failed_iff hnamed] at he
      rcases he with ⟨-, he⟩ | ⟨_, -, ⟨-, he⟩ | ⟨_, -, ⟨name, he, -⟩ | ⟨he, -⟩⟩⟩
      · exact .inl ⟨_, he⟩
      · exact .inl ⟨_, he⟩
      · exact .inl ⟨name, he⟩
      · exact .inr ⟨_, he⟩
  · intro id
    refine ⟨fun owner f => lookupInstanceField_found_iff hnamed, fun name => ?_, fun text => ?_,
      fun e he => ?_, lookupInstanceField_loops_iff hnamed⟩
    · rw [lookupInstanceField_failed_iff hnamed]
      simp
    · rw [lookupInstanceField_failed_iff hnamed]
      grind
    · rw [lookupInstanceField_failed_iff hnamed] at he
      rcases he with ⟨-, he⟩ | ⟨_, -, ⟨name, he, -⟩ | ⟨he, -⟩⟩
      · exact .inl ⟨_, he⟩
      · exact .inl ⟨name, he⟩
      · exact .inr ⟨_, he⟩

end Machine
end Smali
