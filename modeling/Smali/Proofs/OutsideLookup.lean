import Smali.CommandLine
import Smali.Proofs.NearestDeclaration

/-!
# Methods looked up from outside

A method is known by its class, its name and its parameters. From outside, an identifier is resolved by
these alone: the first method that answers to them is taken. A static or direct call knows more. It leaves
out the methods of the other kind, and of several that remain the result type decides. So both come to a
method that answers to the identifier, and to the same one exactly if the two agree in kind and in result
type.

## Key results

- `selectMethod?_eq_first`: a first method of the right kind and result type is the one that is picked
- `exists_selectMethod?`: every method is picked by an identifier, or one of its kind and result type is
- `outside_lookup_takes_first`: what is found from outside, and when it is the target of a call
- `twins_told_apart`: a class with a static method and an instance method that answer to one identifier
-/

namespace Smali.Machine

variable {c : Class} {id : MethodId} {static : Bool} {m first : Method}

/-! ## Picks -/

/-- The methods of one kind that answer to an identifier start with the first that answers at all, if that
is of the kind. -/
theorem candidates_of_first (h : c.methods.find? (·.answersTo id.name id.params) = some first)
    (hkind : first.isStatic = static) :
    ∃ others, (c.methods.filter fun m => m.isStatic == static && m.answersTo id.name id.params) =
      first :: others := by
  obtain ⟨hanswers, before, after, hmethods, hbefore⟩ := List.find?_eq_some_iff_append.1 h
  refine ⟨after.filter fun m => m.isStatic == static && m.answersTo id.name id.params, ?_⟩
  have hnone : (before.filter fun m => m.isStatic == static && m.answersTo id.name id.params) = [] := by
    rw [List.filter_eq_nil_iff]
    intro x hx
    simpa using fun _ => hbefore x hx
  rw [hmethods, List.filter_append, hnone, List.nil_append, List.filter_cons_of_pos]
  simp [hkind, hanswers]

/-- The first method that answers is the one that is picked if it is of the kind and has the result
type. -/
theorem selectMethod?_eq_first (h : c.methods.find? (·.answersTo id.name id.params) = some first)
    (hpick : selectMethod? c id static = some m) (hkind : first.isStatic = m.isStatic)
    (hresult : first.returnType = m.returnType) : first = m := by
  obtain ⟨⟨-, hstatic, -⟩, -⟩ := candidate_of_selectMethod? hpick
  obtain ⟨others, hcandidates⟩ := candidates_of_first h (hkind.trans hstatic)
  rw [selectMethod?, hcandidates] at hpick
  cases others with
  | nil => exact Option.some.inj hpick
  | cons other others =>
    have hpick : (first :: other :: others).find? (·.returnType == id.returnType) = some m := hpick
    -- the picked one has the result type, so the first one has it too
    have hm : m.returnType = id.returnType := by simpa using List.find?_some hpick
    rw [List.find?_cons_of_pos (by rw [hresult, hm, beq_self_eq_true])] at hpick
    exact Option.some.inj hpick

/-- Every method is picked under its own result type, or one of its kind with that result type is. -/
theorem exists_selectMethod? (hmem : m ∈ c.methods) (hanswers : m.answersTo id.name id.params)
    (hresult : m.returnType = id.returnType) :
    ∃ picked, selectMethod? c id m.isStatic = some picked ∧ picked.returnType = m.returnType := by
  have hcandidate : m ∈ c.methods.filter fun x =>
      x.isStatic == m.isStatic && x.answersTo id.name id.params := by
    simp [hmem, hanswers]
  unfold selectMethod?
  split
  · next hnone =>
    rw [hnone] at hcandidate
    exact absurd hcandidate List.not_mem_nil
  · next only honly =>
    rw [honly, List.mem_singleton] at hcandidate
    exact ⟨only, rfl, by rw [hcandidate]⟩
  · have hsome : ((c.methods.filter fun x =>
        x.isStatic == m.isStatic && x.answersTo id.name id.params).find?
          (·.returnType == id.returnType)).isSome := by
      rw [List.find?_isSome]
      exact ⟨m, hcandidate, by rw [hresult, beq_self_eq_true]⟩
    obtain ⟨picked, hpicked⟩ := Option.isSome_iff_exists.1 hsome
    have hsame : picked.returnType = id.returnType := by simpa using List.find?_some hpicked
    exact ⟨picked, hpicked, hsame.trans hresult.symm⟩

/-! ## Calls -/

/-- The target of a static or direct call is picked in the named class. -/
theorem lookupDeclared_ok_iff {p : Program} :
    lookupDeclared p id static = .ok m ↔
      ∃ c, p.find? id.className = some c ∧ selectMethod? c.toClass id static = some m := by
  unfold lookupDeclared
  rw [bind_eq_ok]
  refine exists_congr fun c => and_congr findClass_eq_ok_iff ?_
  cases selectMethod? c.toClass id static <;> simp [pure, Except.pure]

/-- The target of a static call, or that of a direct one. -/
def IsTarget (p : Program) (id : MethodId) (m : Method) : Prop :=
  lookupStatic p id = .ok m ∨ lookupDirect p id = .ok m

theorem isTarget_iff {p : Program} :
    IsTarget p id m ↔
      ∃ c static, p.find? id.className = some c ∧ selectMethod? c.toClass id static = some m := by
  unfold IsTarget lookupStatic lookupDirect
  rw [lookupDeclared_ok_iff, lookupDeclared_ok_iff]
  constructor
  · rintro (⟨c, hc, hpick⟩ | ⟨c, hc, hpick⟩)
    · exact ⟨c, true, hc, hpick⟩
    · exact ⟨c, false, hc, hpick⟩
  · rintro ⟨c, static, hc, hpick⟩
    cases static with
    | true => exact .inl ⟨c, hc, hpick⟩
    | false => exact .inr ⟨c, hc, hpick⟩

theorem findMethod?_eq {p : Program} {c : LoadedClass} (hc : p.find? id.className = some c) :
    p.findMethod? id = c.methods.find? (·.answersTo id.name id.params) := by
  unfold Program.findMethod?
  rw [hc]
  rfl

theorem lookupMethod_of_findMethod? {p : Program} {text : String}
    (htext : MethodId.parse text.toList = .ok id) (h : p.findMethod? id = some m) :
    lookupMethod p text = .ok m := by
  simp only [lookupMethod, htext, h]
  rfl

/-- A method that is the target of a call is found from outside or hidden by one that is. -/
theorem exists_first {p : Program} (h : IsTarget p id m) :
    ∃ c before first after, p.find? id.className = some c ∧ m ∈ c.methods ∧
      m.name = id.name ∧ m.params = id.params ∧
      c.methods = before ++ first :: after ∧
      (∀ x ∈ before, x.answersTo id.name id.params = false) ∧
      first.answersTo id.name id.params ∧ p.findMethod? id = some first ∧
      (first = m ↔ first.isStatic = m.isStatic ∧ first.returnType = m.returnType) := by
  obtain ⟨c, static, hc, hpick⟩ := isTarget_iff.1 h
  obtain ⟨⟨hmem, -, hname, hparams⟩, -⟩ := candidate_of_selectMethod? hpick
  have hsome : (c.methods.find? (·.answersTo id.name id.params)).isSome := by
    rw [List.find?_isSome]
    exact ⟨m, hmem, by simp [Method.answersTo, hname, hparams]⟩
  obtain ⟨first, hfirst⟩ := Option.isSome_iff_exists.1 hsome
  obtain ⟨hanswers, before, after, hmethods, hbefore⟩ := List.find?_eq_some_iff_append.1 hfirst
  refine ⟨c, before, first, after, hc, hmem, hname, hparams, hmethods, ?_, hanswers,
    (findMethod?_eq hc).trans hfirst, ?_, ?_⟩
  · intro x hx
    simpa using hbefore x hx
  · rintro rfl
    exact ⟨rfl, rfl⟩
  · rintro ⟨hkind, hresult⟩
    exact selectMethod?_eq_first hfirst hpick hkind hresult

/-- In a class all targets of calls are found from outside exactly if methods that answer to the same name
and parameters agree in kind and in result type. -/
theorem targets_found_iff {p : Program} {name : String} {c : LoadedClass}
    (hc : p.find? name = some c) :
    (∀ id m, id.className = name → IsTarget p id m → p.findMethod? id = some m) ↔
      ∀ x ∈ c.methods, ∀ y ∈ c.methods, x.name = y.name → x.params = y.params →
        x.isStatic = y.isStatic ∧ x.returnType = y.returnType := by
  constructor
  · intro hfound
    -- every method agrees with the one that is found under its name and parameters
    have hagrees (x : Method) (hx : x ∈ c.methods) (first : Method)
        (hfirst : c.methods.find? (·.answersTo x.name x.params) = some first) :
        x.isStatic = first.isStatic ∧ x.returnType = first.returnType := by
      let id : MethodId := ⟨name, x.name, x.params, x.returnType⟩
      obtain ⟨picked, hpicked, hresult⟩ : ∃ picked,
          selectMethod? c.toClass id x.isStatic = some picked ∧ picked.returnType = x.returnType :=
        exists_selectMethod? hx (by simp [Method.answersTo, id]) rfl
      obtain ⟨⟨-, hkind, -⟩, -⟩ := candidate_of_selectMethod? hpicked
      have hfind : p.findMethod? id = some first := (findMethod?_eq hc).trans hfirst
      rw [hfound id picked rfl (isTarget_iff.2 ⟨c, _, hc, hpicked⟩)] at hfind
      obtain rfl := Option.some.inj hfind
      exact ⟨hkind.symm, hresult.symm⟩
    intro x hx y hy hname hparams
    have hsome : (c.methods.find? (·.answersTo x.name x.params)).isSome := by
      rw [List.find?_isSome]
      exact ⟨x, hx, by simp [Method.answersTo]⟩
    obtain ⟨first, hfirst⟩ := Option.isSome_iff_exists.1 hsome
    obtain ⟨hxkind, hxresult⟩ := hagrees x hx first hfirst
    obtain ⟨hykind, hyresult⟩ := hagrees y hy first (hname ▸ hparams ▸ hfirst)
    exact ⟨hxkind.trans hykind.symm, hxresult.trans hyresult.symm⟩
  · rintro hagree id m rfl htarget
    obtain ⟨c', before, first, after, hc', hm, hname, hparams, hmethods, -, hanswers, hfind, hsame⟩ :=
      exists_first htarget
    obtain rfl := Option.some.inj (hc.symm.trans hc')
    have hmem : first ∈ c.methods := by rw [hmethods]; simp
    have hfirst : first.name = id.name ∧ first.params = id.params := by
      simpa [Method.answersTo] using hanswers
    rw [hfind, hsame.2 (hagree first hmem m hm (hfirst.1.trans hname.symm)
      (hfirst.2.trans hparams.symm))]

theorem execute_of_findMethod? {p : Program} {o : CommandLine.Options} {sources : List String}
    (hload : loadProgram sources = .ok p)
    (hentry : MethodId.parse (o.entry?.getD CommandLine.Options.defaultEntry).toList = .ok id)
    (h : p.findMethod? id = some m) :
    CommandLine.execute o sources = CommandLine.callEntry
      { program := p, maxDepth := o.maxDepth?.getD CommandLine.Options.defaultMaxDepth } m o.args := by
  -- opened as a function and only then applied, so that the library is not read to compare the two
  suffices hopen : ∀ run, run = CommandLine.execute → run o sources = CommandLine.callEntry
      { program := p, maxDepth := o.maxDepth?.getD CommandLine.Options.defaultMaxDepth } m o.args from
    hopen _ rfl
  intro run hrun
  delta CommandLine.execute at hrun
  rw [hrun]
  beta_reduce
  rw [hload]
  dsimp only
  rw [lookupMethod_of_findMethod? hentry h]

/-! ## Agreement -/

/-- What is found from outside, in any program. If a static or direct call has a target, the first method
of the named class that answers to the name and the parameters of the identifier is found; it is looked up
by every text of the identifier, and called if it is the entry of the command line. It is the target of the
call exactly if it agrees with it in kind and in result type. So in a class all targets are found exactly
if methods of the same name and parameters always agree in these. -/
theorem outside_lookup_takes_first (p : Program) :
    (∀ id m, lookupStatic p id = .ok m ∨ lookupDirect p id = .ok m →
      ∃ c before first after, p.find? id.className = some c ∧ m ∈ c.methods ∧
        m.name = id.name ∧ m.params = id.params ∧
        c.methods = before ++ first :: after ∧
        (∀ x ∈ before, x.answersTo id.name id.params = false) ∧
        first.answersTo id.name id.params ∧ p.findMethod? id = some first ∧
        (∀ text : String, MethodId.parse text.toList = .ok id → lookupMethod p text = .ok first) ∧
        (∀ (o : CommandLine.Options) sources, loadProgram sources = .ok p →
          MethodId.parse (o.entry?.getD CommandLine.Options.defaultEntry).toList = .ok id →
          CommandLine.execute o sources = CommandLine.callEntry
            { program := p, maxDepth := o.maxDepth?.getD CommandLine.Options.defaultMaxDepth }
            first o.args) ∧
        (first = m ↔ first.isStatic = m.isStatic ∧ first.returnType = m.returnType)) ∧
    ∀ name c, p.find? name = some c →
      ((∀ id m, id.className = name → lookupStatic p id = .ok m ∨ lookupDirect p id = .ok m →
        p.findMethod? id = some m) ↔
      ∀ x ∈ c.methods, ∀ y ∈ c.methods, x.name = y.name → x.params = y.params →
        x.isStatic = y.isStatic ∧ x.returnType = y.returnType) := by
  constructor
  · intro id m htarget
    obtain ⟨c, before, first, after, hc, hm, hname, hparams, hmethods, hbefore, hanswers, hfind,
      hsame⟩ := exists_first htarget
    exact ⟨c, before, first, after, hc, hm, hname, hparams, hmethods, hbefore, hanswers, hfind,
      fun text htext => lookupMethod_of_findMethod? htext hfind,
      fun o sources hload hentry => execute_of_findMethod? hload hentry hfind, hsame⟩
  · intro name c hc
    exact targets_found_iff hc

/-- A class with a static method and an instance method of the same name, parameters and result. -/
def twinSource : String := "
.class LTwin;
.method f()I
    .registers 1
    const v0, 1
    return v0
.end method
.method static f()I
    .registers 1
    const v0, 2
    return v0
.end method
"

/-- The identifier that both answer to. -/
def twin : MethodId := ⟨"LTwin;", "f", [], .int⟩

set_option maxRecDepth 10000 in
theorem twin_lookups : (loadProgram [twinSource]).toOption.map (fun p =>
    ((lookupStatic p twin).toOption.map (·.isStatic), (lookupDirect p twin).toOption.map (·.isStatic),
      (p.findMethod? twin).map (·.isStatic))) = some (some true, some false, some false) := by
  rw [loadProgram_ofTexts (show [twinSource] = List.map String.ofList [_] from rfl)]
  decide +kernel

/-- Calls tell the two apart, and from outside the static one is not found. -/
theorem twins_told_apart : ∃ p method function, loadProgram [twinSource] = .ok p ∧
    lookupDirect p twin = .ok method ∧ lookupStatic p twin = .ok function ∧ method ≠ function ∧
    p.findMethod? twin ≠ some function := by
  obtain ⟨p, hp, hlookups⟩ := Option.map_eq_some_iff.1 twin_lookups
  simp only [Prod.mk.injEq, Option.map_eq_some_iff] at hlookups
  obtain ⟨⟨function, hfunction, hstatic⟩, ⟨method, hmethod, hdirect⟩, found, hfound, hkind⟩ := hlookups
  refine ⟨p, method, function, ok_of_toOption hp, ok_of_toOption hmethod, ok_of_toOption hfunction,
    ?_, ?_⟩
  · rintro rfl
    rw [hdirect] at hstatic
    cases hstatic
  · rw [hfound]
    intro hsame
    obtain rfl := Option.some.inj hsame
    rw [hkind] at hstatic
    cases hstatic

end Smali.Machine
