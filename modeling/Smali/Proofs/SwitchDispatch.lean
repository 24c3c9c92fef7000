import Smali.Machine.Step
import Smali.Proofs.Loading
import Smali.Proofs.MethodTexts

/-!
# Switches

A switch table has one line for each of some consecutive keys. The switch goes on at the label on the line
of its key, and behind itself if there is no line for the key. Keys are numbers here: a table may run past
the largest of them, and then the lines behind it are for no key at all.

In a program that is loaded the tables that instructions name are there, and so are the labels on their
lines. So a switch on an integer never fails.

## Key results

- `SwitchTable.target?_covered`, `SwitchTable.target?_uncovered`: the line of a key
- `switch_leads`: a switch goes where its table leads
- `step_packedSwitch`: a switch of a program that is loaded goes where its table leads, and never fails
-/

namespace Smali

/-- The table has a line for the key. -/
def SwitchTable.Covers (t : SwitchTable) (key : Int) : Prop :=
  t.start.toInt ≤ key ∧ key < t.start.toInt + t.labels.length

instance (t : SwitchTable) (key : Int) : Decidable (t.Covers key) :=
  inferInstanceAs (Decidable (_ ∧ _))

/-- With the key, a switch at the instruction `here` goes on at the instruction `next`: the one of the label
on the line of the key, or the one behind the switch. -/
structure SwitchTable.Leads (t : SwitchTable) (code : Code) (key : Int) (here next : Nat) : Prop where
  covered : t.Covers key → ∃ label, t.labels[(key - t.start.toInt).toNat]? = some label ∧
    code.labels.get? label = some next
  uncovered : ¬ t.Covers key → next = here + 1

/-- The same, said about the text of the method: the line of the key is counted in the last table with the
name, and the instructions in front of the last line with the label. -/
def Passage.Lead (ps : List Passage) (name : String) (key : Int) (here next : Nat) : Prop :=
  ∃ before first labels start, LastWhere (IsTableOf name) ps before (.switch first labels) ∧
    Literal.parse first = .ok start ∧
    (start.toInt ≤ key ∧ key < start.toInt + labels.length → ∃ label front,
      labels[(key - start.toInt).toNat]? = some label ∧
      LastWhere (fun _ p => p = .label label) ps front (.label label) ∧
      next = (Passage.instructionTexts front).length) ∧
    (¬ (start.toInt ≤ key ∧ key < start.toInt + labels.length) → next = here + 1)

namespace SwitchTable

variable {t : SwitchTable} {key : Int32}

/-- A key that is covered has a line. -/
theorem target?_covered (h : t.Covers key.toInt) :
    ∃ label, t.labels[(key.toInt - t.start.toInt).toNat]? = some label ∧ t.target? key = some label := by
  obtain ⟨hlow, hhigh⟩ := h
  have hline : (key.toInt - t.start.toInt).toNat < t.labels.length := by omega
  refine ⟨_, List.getElem?_eq_getElem hline, ?_⟩
  rw [target?, if_pos hlow, List.getElem?_eq_getElem hline]

/-- A key that is not covered has no line, however far the table goes. -/
theorem target?_uncovered (h : ¬ t.Covers key.toInt) : t.target? key = none := by
  unfold target?
  split
  · next hlow =>
    have hhigh : ¬ key.toInt < t.start.toInt + t.labels.length := fun hhigh => h ⟨hlow, hhigh⟩
    exact List.getElem?_eq_none (by omega)
  · rfl

theorem Leads.lead {code : Code} {ps : List Passage} {name : String} {key : Int} {here next : Nat}
    (h : t.Leads code key here next) (ht : code.switchTables.get? name = some t)
    (hread : code.ReadFrom ps) : Passage.Lead ps name key here next := by
  obtain ⟨before, first, labels, start, hlast, hstart, hvalue, rfl⟩ := (hread.tables name t).1 ht
  refine ⟨before, first, _, start, hlast, hstart, fun hcovers => ?_, fun huncovered => ?_⟩
  · rw [← hvalue] at hcovers ⊢
    obtain ⟨label, hline, hlabel⟩ := h.covered hcovers
    obtain ⟨front, hfront, hnext⟩ := (hread.labels label next).1 hlabel
    exact ⟨label, front, hline, hfront, hnext⟩
  · rw [← hvalue] at huncovered
    exact h.uncovered huncovered

end SwitchTable

namespace Machine

variable {f : Frame} {src : Slot} {name : String} {t : SwitchTable} {key : Int32}

/-- A switch goes where its table leads. -/
theorem switch_leads (hkey : f.read src = .ok (.int key)) (ht : f.code.switchTables.get? name = some t)
    (hlabels : ∀ label ∈ t.labels, f.code.labels.contains label = true) :
    ∃ next, t.Leads f.code key.toInt f.pc next ∧
      (switch f src name = .ok (.jump f next) ∨ switch f src name = .ok (.next f) ∧ next = f.pc + 1) := by
  have hread : f.readInt src = .ok key := bind_eq_ok.2 ⟨.int key, hkey, rfl⟩
  by_cases hcovers : t.Covers key.toInt
  · obtain ⟨label, hline, htarget⟩ := SwitchTable.target?_covered hcovers
    obtain ⟨next, hnext⟩ := Option.isSome_iff_exists.1 (hlabels label (List.mem_of_getElem? hline))
    refine ⟨next, ⟨fun _ => ⟨label, hline, hnext⟩, fun h => absurd hcovers h⟩, .inl ?_⟩
    have hjump : f.target label = .ok next := by rw [Frame.target, hnext]
    simp only [switch, hread, bind, Except.bind, ht, htarget, hjump]
    rfl
  · refine ⟨f.pc + 1, ⟨fun h => absurd h hcovers, fun _ => rfl⟩, .inr ⟨?_, rfl⟩⟩
    simp only [switch, hread, bind, Except.bind, ht, SwitchTable.target?_uncovered hcovers]
    rfl

/-- A switch of a program that is loaded does one step, whatever integer it is on. Its table is there, and the
step leads to the label on the line of the key, which is counted from the first key on without wrapping
around, or to the instruction behind the switch if the key has no line. -/
theorem step_packedSwitch {sources : List String} (setup : Setup)
    (hload : loadProgram sources = .ok setup.program) {m : Method} (hm : setup.program.HasMethod m)
    {f : Frame} (hcode : m.body = .code f.code) {src : Slot} {name : String}
    (hat : f.code.instructions[f.pc]? = some (.packedSwitch src name)) {key : Int32}
    (hkey : f.read src = .ok (.int key)) (s : State) (waiting : List Waiting) :
    ∃ t next journal, f.code.switchTables.get? name = some t ∧
      t.Leads f.code key.toInt f.pc next ∧ next ≤ f.code.instructions.size ∧
      (∀ ps, f.code.ReadFrom ps → Passage.Lead ps name key.toInt f.pc next) ∧
      step setup ⟨s, .run f, waiting⟩ = .more ⟨{ s with journal }, .run { f with pc := next }, waiting⟩ := by
  have hchecked := loadProgram_checked hload hm f.code hcode
  obtain ⟨hpc, hinstruction⟩ := Array.getElem?_eq_some_iff.1 hat
  obtain ⟨hnamed, hlabels⟩ := hchecked.defines (hinstruction ▸ Array.getElem_mem hpc)
  -- nothing is missing, so the table is there
  have htable : (f.code.switchTables.get? name).isSome = true := by
    replace hnamed : (if f.code.switchTables.contains name then none else some name) = none := hnamed
    split at hnamed
    · assumption
    · cases hnamed
  obtain ⟨t, ht⟩ := Option.isSome_iff_exists.1 htable
  obtain ⟨next, hleads, hswitch⟩ := switch_leads hkey ht (hlabels name t ht)
  have hwithin : next ≤ f.code.instructions.size := by
    by_cases hcovers : t.Covers key.toInt
    · obtain ⟨label, -, hlabel⟩ := hleads.covered hcovers
      exact hchecked.within label next hlabel
    · rw [hleads.uncovered hcovers]
      exact hpc
  obtain ⟨journal, hstep⟩ : ∃ journal, step setup ⟨s, .run f, waiting⟩ =
      carryOn { s with journal } (switch f src name) (.packedSwitch src name) waiting := by
    refine ⟨s.journal.write .trace fun _ =>
      "".pushn '\t' s.depth ++ "exec " ++ (Instruction.packedSwitch src name).dump, ?_⟩
    simp only [step, runNext, hat]
    rfl
  refine ⟨t, next, journal, ht, hleads, hwithin, fun ps hread => hleads.lead ht hread, ?_⟩
  rw [hstep]
  obtain hjump | ⟨hnext, rfl⟩ := hswitch
  · rw [hjump]
    rfl
  · rw [hnext]
    rfl

/-- A method with a switch table that runs past the largest integer. -/
def edgeSource : String := "
.class LEdge;
.method static pick(I)I
    .registers 1
    packed-switch p0, :table
    const v0, 0
    return v0
    :last
    const v0, 1
    return v0
    :beyond
    const v0, 2
    return v0
    :table
    .packed-switch 0x7ffffffe
        :beyond
        :last # for the largest integer
        :beyond
    .end packed-switch
.end method
"

/-- Its code. -/
def edgeCode : Code where
  instructions := #[.packedSwitch (.parameter 0) "table", .const (.register 0) ⟨0, 32⟩,
    .returnValue .single (.register 0), .const (.register 0) ⟨1, 32⟩, .returnValue .single (.register 0),
    .const (.register 0) ⟨2, 32⟩, .returnValue .single (.register 0)]
  labels := ⟨[("last", 3), ("beyond", 5), ("table", 7)]⟩
  switchTables := ⟨[("table", ⟨0x7ffffffe, ["beyond", "last", "beyond"]⟩)]⟩

/-- A call of it. -/
def edgeFrame (m : Method) (key : Int32) : Frame where
  method := m
  code := edgeCode
  registers := .registers 1
  parameters := ⟨#[some (.int key)]⟩

set_option maxRecDepth 10000 in
/-- The largest integer is on the second line, and the smallest is not on the third. -/
theorem edgeFrame_steps : ∃ p m, loadProgram [edgeSource] = .ok p ∧ p.HasMethod m ∧
    m.body = .code edgeCode ∧
    (∃ journal, step { program := p } ⟨{}, .run (edgeFrame m Int32.maxValue), []⟩ =
      .more ⟨{ journal }, .run { edgeFrame m Int32.maxValue with pc := 3 }, []⟩) ∧
    ∃ journal, step { program := p } ⟨{}, .run (edgeFrame m Int32.minValue), []⟩ =
      .more ⟨{ journal }, .run { edgeFrame m Int32.minValue with pc := 1 }, []⟩ := by
  have hfound : (((loadClass? [edgeSource] "LEdge;").bind (·.methods.head?)).map (·.body)) =
      some (.code edgeCode) := by
    rw [loadClass?, loadProgram_ofTexts (show [edgeSource] = List.map String.ofList [_] from rfl)]
    decide +kernel
  obtain ⟨m, hfound, hbody⟩ := Option.map_eq_some_iff.1 hfound
  obtain ⟨c, hc, hm⟩ := Option.bind_eq_some_iff.1 hfound
  obtain ⟨p, hp, hc⟩ := loadClass?_eq_some hc
  have hm : p.HasMethod m := ⟨c, Array.mem_of_find?_eq_some hc, List.mem_of_head? hm⟩
  -- where the table leads, for each of the two keys
  have hsteps (key : Int32) (next : Nat)
      (hnext : ∀ pc, SwitchTable.Leads ⟨0x7ffffffe, ["beyond", "last", "beyond"]⟩ edgeCode key.toInt 0 pc →
        pc = next) :
      ∃ journal, step { program := p } ⟨{}, .run (edgeFrame m key), []⟩ =
        .more ⟨{ journal }, .run { edgeFrame m key with pc := next }, []⟩ := by
    obtain ⟨t, pc, journal, ht, hleads, -, -, hstep⟩ := step_packedSwitch { program := p } hp hm
      (f := edgeFrame m key) hbody rfl rfl {} []
    obtain rfl := Option.some.inj ht
    obtain rfl := hnext pc hleads
    exact ⟨journal, hstep⟩
  refine ⟨p, m, hp, hm, hbody, hsteps _ 3 fun pc hleads => ?_, hsteps _ 1 fun pc hleads => ?_⟩
  · obtain ⟨label, hline, hlabel⟩ := hleads.covered (by decide)
    obtain rfl := Option.some.inj hline
    exact (Option.some.inj hlabel).symm
  · exact hleads.uncovered (by decide)

end Machine

end Smali
