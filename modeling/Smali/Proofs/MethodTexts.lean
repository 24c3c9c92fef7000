import Smali.Proofs.StringLiterals
import Smali.Proofs.Unseen

/-!
# Texts of methods

Between its first and its last line a method has instructions, labels, register counts, switch tables and
lines that are skipped, in any order. The reader goes through them once and keeps them apart: what it makes
of them is the code of the method. A label stands for the instruction behind it, wherever tables and skipped
lines are; a switch table goes by the label in front of it.

## Key results

- `Opened.readLines_passage`: what the lines of one passage add to the method that is open
- `Draft.Keeps.add`: the code keeps what has been read, one passage after the other
- `ClassTable.readSource_method`: the code that is stored says what the lines of the method say
-/

namespace Smali

/-! ## The form of method texts -/

/-- A part of the text of a method, without blanks and comments. -/
inductive Passage where
  | instruction (text : List Char)
  | label (name : String)
  /-- `.registers <count>` or `.locals <count>` -/
  | registers (count : List Char)
  /-- `.packed-switch <key>`, the labels below it and the line that ends it. -/
  | switch (key : List Char) (labels : List String)
  /-- Lines that say nothing about the method. -/
  | skipped
  deriving DecidableEq

/-- The label on a line of a switch table. -/
def tableLabel? (line : List Char) : Option String :=
  match bare line with
  | ':' :: name => some (String.ofList name)
  | _ => none

namespace Passage

/-- The lines in which a passage can be written. -/
inductive Written : Passage → List (List Char) → Prop
  | instruction (line text : List Char) (hline : bare line = text) (hfull : text ≠ [])
    (hdot : text.head? ≠ some '.') (hcolon : text.head? ≠ some ':') : Written (.instruction text) [line]
  | label (line : List Char) (name : String) (hline : bare line = ':' :: name.toList) :
    Written (.label name) [line]
  | registers (line directive count : List Char) (hline : bare line = '.' :: directive)
    (hname : splitMnemonic directive = ("registers".toList, count) ∨
      splitMnemonic directive = ("locals".toList, count)) : Written (.registers count) [line]
  | switch (first last directive key : List Char) (contents : List (List Char)) (labels : List String)
    (hfirst : bare first = '.' :: directive)
    (hname : splitMnemonic directive = ("packed-switch".toList, key))
    (hcontents : ∀ line ∈ contents, bare line = [] ∨ (bare line).head? = some ':')
    (hlabels : contents.filterMap tableLabel? = labels)
    (hlast : bare last = ".end packed-switch".toList) :
    Written (.switch key labels) (first :: contents ++ [last])
  | skipped (lines : List (List Char)) (h : Cover.none.unseen lines) : Written .skipped lines

/-- Lines that are the passages, one after the other. -/
inductive AllWritten : List Passage → List (List Char) → Prop
  | nil : AllWritten [] []
  | cons (p : Passage) (ps : List Passage) (xs ys : List (List Char)) (hp : p.Written xs)
    (hps : AllWritten ps ys) : AllWritten (p :: ps) (xs ++ ys)

/-- The text of an instruction. -/
def instruction? : Passage → Option (List Char)
  | instruction text => some text
  | _ => none

/-- The name of a label. -/
def label? : Passage → Option String
  | label name => some name
  | _ => none

/-- A register count as it is written. -/
def count? : Passage → Option (List Char)
  | registers count => some count
  | _ => none

/-- The instructions among passages. -/
def instructionTexts (ps : List Passage) : List (List Char) :=
  ps.filterMap instruction?

/-- The last label among passages. -/
def lastLabel? (ps : List Passage) : Option String :=
  (ps.filterMap label?).getLast?

/-- The last register count among passages. -/
def lastCount? (ps : List Passage) : Option (List Char) :=
  (ps.filterMap count?).getLast?

end Passage

/-- The last passage with a property, which may hang on the passages in front of it. -/
def LastWhere (P : List Passage → Passage → Prop) (ps before : List Passage) (p : Passage) : Prop :=
  ∃ after, ps = before ++ p :: after ∧ P before p ∧
    ∀ between q rest, after = between ++ q :: rest → ¬ P (before ++ p :: between) q

/-- The passage is a switch table that goes by the name. -/
def IsTableOf (name : String) (before : List Passage) (p : Passage) : Prop :=
  (∃ key labels, p = .switch key labels) ∧ Passage.lastLabel? before = some name

/-- The code says what the passages say. -/
structure Code.ReadFrom (code : Code) (ps : List Passage) : Prop where
  /-- The instructions are those of the text, in order. -/
  instructions : (Passage.instructionTexts ps).map Instruction.ofLine = code.instructions.toList.map .ok
  /-- A label stands for the number of instructions in front of the last line with it. -/
  labels : ∀ name pc, code.labels.get? name = some pc ↔
    ∃ before, LastWhere (fun _ p => p = .label name) ps before (.label name) ∧
      pc = (Passage.instructionTexts before).length
  /-- A switch table goes by the last label in front of it, and the last one with that label stays. -/
  tables : ∀ name table, code.switchTables.get? name = some table ↔
    ∃ before key labels start, LastWhere (IsTableOf name) ps before (.switch key labels) ∧
      Literal.parse key = .ok start ∧ table.start.toInt = start.toInt ∧ table.labels = labels
  /-- The last register count holds, but there is always one register. -/
  registers : match Passage.lastCount? ps with
    | some count => ∃ n, Literal.parse count = .ok n ∧ (code.registerCount : Int) = max n.toInt 1
    | none => code.registerCount = 1

/-! ## The last passage with a property -/

/-- A list that ends with `p` splits at `p`, or at something in front of it. -/
theorem append_singleton_eq_append_cons {ps before after : List Passage} {p q : Passage} :
    ps ++ [p] = before ++ q :: after ↔
      (after = [] ∧ before = ps ∧ q = p) ∨ ∃ rest, after = rest ++ [p] ∧ ps = before ++ q :: rest := by
  -- what stands behind `q` is empty, or it ends with `p`
  cases List.eq_nil_or_concat after with
  | inl hnil =>
    subst hnil
    rw [List.append_singleton_inj]
    simp [eq_comm (a := ps), eq_comm (a := p)]
  | inr hlast =>
    obtain ⟨rest, last, rfl⟩ := hlast
    have hassoc : before ++ q :: rest.concat last = (before ++ q :: rest) ++ [last] := by simp
    rw [hassoc, List.append_singleton_inj, List.concat_eq_append]
    simp only [List.append_eq_nil_iff, List.cons_ne_nil, and_false, false_and, false_or,
      List.append_singleton_inj]
    constructor
    · rintro ⟨rfl, rfl⟩
      exact ⟨rest, ⟨rfl, rfl⟩, rfl⟩
    · rintro ⟨rest', ⟨rfl, rfl⟩, rfl⟩
      exact ⟨rfl, rfl⟩

/-- Behind one more passage the last one with the property is the new one, if that has it, and otherwise the
same as before. -/
theorem lastWhere_concat {P : List Passage → Passage → Prop} {ps before : List Passage} {p q : Passage} :
    LastWhere P (ps ++ [p]) before q ↔
      (P ps p ∧ before = ps ∧ q = p) ∨ (¬ P ps p ∧ LastWhere P ps before q) := by
  -- the new passage is the last one with the property, or the one from before still is
  constructor
  · rintro ⟨after, hsplit, hq, hlast⟩
    obtain ⟨rfl, rfl, rfl⟩ | ⟨rest, rfl, rfl⟩ := append_singleton_eq_append_cons.1 hsplit
    · exact .inl ⟨hq, rfl, rfl⟩
    · refine .inr ⟨hlast rest p [] rfl, rest, rfl, hq, ?_⟩
      rintro between q' rest' rfl
      exact hlast between q' (rest' ++ [p]) (by simp)
  · rintro (⟨hp, rfl, rfl⟩ | ⟨hp, rest, rfl, hq, hlast⟩)
    · exact ⟨[], rfl, hp, fun between q' rest' h => absurd h.symm (by simp)⟩
    · refine ⟨rest ++ [p], by simp, hq, ?_⟩
      intro between q' rest' hsplit
      obtain ⟨-, rfl, rfl⟩ | ⟨rest'', -, hrest⟩ := append_singleton_eq_append_cons.1 hsplit
      · exact hp
      · exact hlast between q' rest'' hrest

/-- Without passages there is no last one. -/
theorem not_lastWhere_nil {P : List Passage → Passage → Prop} {before : List Passage} {p : Passage} :
    ¬ LastWhere P [] before p := by
  rintro ⟨after, hsplit, -⟩
  exact absurd hsplit.symm (by simp)

/-! ## What a passage adds -/

/-- What a passage makes of the method that is open. -/
def Passage.Adds : Passage → Draft → Draft → Prop
  | .instruction text, d, d' => ∃ i, Instruction.ofLine text = .ok i ∧
    d' = { d with code := { d.code with instructions := d.code.instructions.push i } }
  | .label name, d, d' => d' = { d with
    code := { d.code with labels := d.code.labels.insert name d.code.instructions.size }
    lastLabel? := some name }
  | .registers count, d, d' => ∃ n, Literal.parse count = .ok n ∧ 0 ≤ n.toInt ∧
    d' = { d with code := { d.code with registerCount := max n.toInt.toNat 1 } }
  | .switch key labels, d, d' => ∃ name start, d.lastLabel? = some name ∧ Literal.parse key = .ok start ∧
    (Int32.ofInt start.toInt).toInt = start.toInt ∧
    d' = { d with code := { d.code with
      switchTables := d.code.switchTables.insert name ⟨Int32.ofInt start.toInt, labels⟩ } }
  | .skipped, d, d' => d' = d

/-- A passage says nothing about the first line of the method. -/
theorem Passage.Adds.method {p : Passage} {d d' : Draft} (h : p.Adds d d') : d'.method = d.method := by
  cases p with
  | instruction text =>
    obtain ⟨i, -, rfl⟩ := h
    rfl
  | registers count =>
    obtain ⟨n, -, -, rfl⟩ := h
    rfl
  | switch key labels =>
    obtain ⟨name, start, -, -, -, rfl⟩ := h
    rfl
  | label name | skipped =>
    obtain rfl := h
    rfl

/-- The method that is open has in it what the passages say. -/
structure Draft.Keeps (d : Draft) (ps : List Passage) : Prop where
  code : d.code.ReadFrom ps
  lastLabel : d.lastLabel? = Passage.lastLabel? ps

/-- A method that has just been opened keeps what no passage says. -/
theorem Draft.keeps_begin (m : Method) : Draft.Keeps { method := m } [] where
  code := {
    instructions := rfl
    -- there is no label and no table, on either side
    labels := fun name pc => by
      refine ⟨fun h => (by cases h), ?_⟩
      rintro ⟨before, hlast, -⟩
      exact absurd hlast not_lastWhere_nil
    tables := fun name table => by
      refine ⟨fun h => (by cases h), ?_⟩
      rintro ⟨before, key, labels, start, hlast, -⟩
      exact absurd hlast not_lastWhere_nil
    registers := rfl }
  lastLabel := rfl

namespace Code.ReadFrom

variable {code : Code} {ps : List Passage}

/-- There are as many instructions as lines with one. -/
theorem size_instructions (h : code.ReadFrom ps) :
    code.instructions.size = (Passage.instructionTexts ps).length := by
  have hlength := congrArg List.length h.instructions
  simpa using hlength.symm

/-- A passage that is no label leaves the labels alone. -/
theorem labels_concat (h : code.ReadFrom ps) {p : Passage} (hp : p.label? = none) (name : String)
    (pc : Nat) : code.labels.get? name = some pc ↔
      ∃ before, LastWhere (fun _ p => p = .label name) (ps ++ [p]) before (.label name) ∧
        pc = (Passage.instructionTexts before).length := by
  -- so the new passage is not the last one with the label
  have hother : p ≠ .label name := by
    rintro rfl
    cases hp
  simp only [h.labels, lastWhere_concat, hother, not_false_eq_true, false_and, true_and, false_or]

/-- A passage that is no switch table leaves the tables alone. -/
theorem tables_concat (h : code.ReadFrom ps) {p : Passage} (hp : ∀ key labels, p ≠ .switch key labels)
    (name : String) (table : SwitchTable) : code.switchTables.get? name = some table ↔
      ∃ before key labels start, LastWhere (IsTableOf name) (ps ++ [p]) before (.switch key labels) ∧
        Literal.parse key = .ok start ∧ table.start.toInt = start.toInt ∧ table.labels = labels := by
  have hother : ¬ IsTableOf name ps p := by
    rintro ⟨⟨key, labels, rfl⟩, -⟩
    exact hp key labels rfl
  simp only [h.tables, lastWhere_concat, hother, not_false_eq_true, false_and, true_and, false_or]

end Code.ReadFrom

/-- The instructions with one more passage. -/
theorem Passage.instructionTexts_concat (ps : List Passage) (p : Passage) :
    Passage.instructionTexts (ps ++ [p]) = Passage.instructionTexts ps ++ p.instruction?.toList := by
  unfold instructionTexts
  cases h : p.instruction? <;> simp [h]

/-- The last label with one more passage. -/
theorem Passage.lastLabel?_concat (ps : List Passage) (p : Passage) :
    Passage.lastLabel? (ps ++ [p]) = p.label?.or (Passage.lastLabel? ps) := by
  unfold lastLabel?
  cases h : p.label? <;> simp [h]

/-- The last register count with one more passage. -/
theorem Passage.lastCount?_concat (ps : List Passage) (p : Passage) :
    Passage.lastCount? (ps ++ [p]) = p.count?.or (Passage.lastCount? ps) := by
  unfold lastCount?
  cases h : p.count? <;> simp [h]

namespace Draft.Keeps

variable {d : Draft} {ps : List Passage}

/-- An instruction comes behind those of the method. -/
theorem addInstruction (h : d.Keeps ps) {text : List Char} {i : Instruction}
    (hi : Instruction.ofLine text = .ok i) :
    Draft.Keeps { d with code := { d.code with instructions := d.code.instructions.push i } }
      (ps ++ [.instruction text]) where
  code := {
    instructions := by
      rw [Passage.instructionTexts_concat]
      simp [Passage.instruction?, h.code.instructions, hi]
    labels := h.code.labels_concat rfl
    tables := h.code.tables_concat nofun
    registers := by
      rw [Passage.lastCount?_concat]
      exact h.code.registers }
  lastLabel := by
    rw [Passage.lastLabel?_concat]
    exact h.lastLabel

/-- A label stands for the number of instructions so far, also if it was set before. -/
theorem addLabel (h : d.Keeps ps) (name : String) :
    Draft.Keeps { d with
      code := { d.code with labels := d.code.labels.insert name d.code.instructions.size }
      lastLabel? := some name } (ps ++ [.label name]) where
  code := {
    instructions := by
      rw [Passage.instructionTexts_concat]
      simp [Passage.instruction?, h.code.instructions]
    labels := fun name' pc => by
      simp only [lastWhere_concat, Table.get?_insert, Passage.label.injEq]
      -- the name that is set, and every other name
      by_cases hname : name' = name
      · subst hname
        simp [h.code.size_instructions, eq_comm]
      · simp [hname, Ne.symm hname, h.code.labels]
    tables := h.code.tables_concat nofun
    registers := by
      rw [Passage.lastCount?_concat]
      exact h.code.registers }
  lastLabel := by
    rw [Passage.lastLabel?_concat]
    rfl

/-- A register count takes the place of the one before. -/
theorem setRegisters (h : d.Keeps ps) {count : List Char} {n : Int64} (hn : Literal.parse count = .ok n)
    (hpos : 0 ≤ n.toInt) :
    Draft.Keeps { d with code := { d.code with registerCount := max n.toInt.toNat 1 } }
      (ps ++ [.registers count]) where
  code := {
    instructions := by
      rw [Passage.instructionTexts_concat]
      simp [Passage.instruction?, h.code.instructions]
    labels := h.code.labels_concat rfl
    tables := h.code.tables_concat nofun
    registers := by
      rw [Passage.lastCount?_concat]
      refine ⟨n, hn, ?_⟩
      show ((max n.toInt.toNat 1 : Nat) : Int) = max n.toInt 1
      omega }
  lastLabel := by
    rw [Passage.lastLabel?_concat]
    exact h.lastLabel

/-- A switch table takes the place of the one with the same label. -/
theorem addTable (h : d.Keeps ps) {key : List Char} {labels : List String} {name : String} {start : Int64}
    (hname : d.lastLabel? = some name) (hstart : Literal.parse key = .ok start)
    (hint : (Int32.ofInt start.toInt).toInt = start.toInt) :
    Draft.Keeps { d with code := { d.code with
      switchTables := d.code.switchTables.insert name ⟨Int32.ofInt start.toInt, labels⟩ } }
      (ps ++ [.switch key labels]) where
  code := {
    instructions := by
      rw [Passage.instructionTexts_concat]
      simp [Passage.instruction?, h.code.instructions]
    labels := h.code.labels_concat rfl
    tables := fun name' table => by
      -- the new passage is the table of just the last label
      have htable : IsTableOf name' ps (.switch key labels) ↔ name' = name := by
        rw [IsTableOf, ← h.lastLabel, hname, Option.some.injEq, eq_comm (a := name)]
        exact and_iff_right ⟨key, labels, rfl⟩
      simp only [lastWhere_concat, Table.get?_insert, htable]
      by_cases hsame : name' = name
      · subst hsame
        simp only [↓reduceIte, Option.some.injEq, true_and, not_true_eq_false, false_and, or_false,
          Passage.switch.injEq]
        constructor
        · rintro rfl
          exact ⟨ps, key, labels, start, ⟨rfl, rfl, rfl⟩, hstart, hint, rfl⟩
        · rintro ⟨before, key', labels', start', ⟨-, rfl, rfl⟩, hstart', hint', hlabels⟩
          obtain rfl : start = start' := Except.ok.inj (hstart.symm.trans hstart')
          -- start and labels decide what the table is
          obtain ⟨first, all⟩ := table
          obtain rfl : first = Int32.ofInt start.toInt := Int32.toInt_inj.1 (hint'.trans hint.symm)
          obtain rfl : all = labels' := hlabels
          rfl
      · simp [hsame, h.code.tables]
    registers := by
      rw [Passage.lastCount?_concat]
      exact h.code.registers }
  lastLabel := by
    rw [Passage.lastLabel?_concat]
    exact h.lastLabel

/-- What is skipped says nothing. -/
theorem skip (h : d.Keeps ps) : d.Keeps (ps ++ [.skipped]) where
  code := {
    instructions := by
      rw [Passage.instructionTexts_concat]
      simp [Passage.instruction?, h.code.instructions]
    labels := h.code.labels_concat rfl
    tables := h.code.tables_concat nofun
    registers := by
      rw [Passage.lastCount?_concat]
      exact h.code.registers }
  lastLabel := by
    rw [Passage.lastLabel?_concat]
    exact h.lastLabel

/-- One more passage comes behind those that are kept. -/
theorem add (h : d.Keeps ps) {p : Passage} {d' : Draft} (hp : p.Adds d d') : d'.Keeps (ps ++ [p]) := by
  cases p with
  | instruction text =>
    obtain ⟨i, hi, rfl⟩ := hp
    exact h.addInstruction hi
  | label name =>
    obtain rfl := hp
    exact h.addLabel name
  | registers count =>
    obtain ⟨n, hn, hpos, rfl⟩ := hp
    exact h.setRegisters hn hpos
  | switch key labels =>
    obtain ⟨name, start, hname, hstart, hint, rfl⟩ := hp
    exact h.addTable hname hstart hint
  | skipped =>
    obtain rfl := hp
    exact h.skip

end Draft.Keeps

/-! ## Reading passages -/

namespace Reader

variable {r r' : Reader}

/-- A line with a label, outside of blocks. -/
theorem accept_label (hblock : r.block = .none) {name : String}
    (h : r.accept (':' :: name.toList) = .ok r') :
    ∃ d d', r.draft? = some d ∧ (Passage.label name).Adds d d' ∧ r' = { r with draft? := some d' } := by
  rw [accept, hblock] at h
  dsimp only at h
  rw [readLabel, String.ofList_toList] at h
  obtain ⟨-, d, d', -, hd, hd', rfl⟩ := withDraft_ok h
  exact ⟨d, d', hd, (Except.ok.inj hd').symm, rfl⟩

/-- A line with an instruction, outside of blocks. -/
theorem accept_instructionLine (hblock : r.block = .none) {text : List Char}
    (hdot : text.head? ≠ some '.') (hcolon : text.head? ≠ some ':') (h : r.accept text = .ok r') :
    ∃ d d', r.draft? = some d ∧ (Passage.instruction text).Adds d d' ∧
      r' = { r with draft? := some d' } := by
  rw [accept_instruction hblock hdot hcolon] at h
  obtain ⟨i, hi, h⟩ := Machine.bind_eq_ok.1 h
  obtain ⟨-, d, -, hd, rfl⟩ := withCode_ok h
  exact ⟨d, _, hd, ⟨i, hi, rfl⟩, rfl⟩

/-- Both directives for registers are read in the same way. -/
theorem readDirective_registers {directive count : List Char}
    (hname : splitMnemonic directive = ("registers".toList, count) ∨
      splitMnemonic directive = ("locals".toList, count)) :
    r.readDirective directive = r.readRegisters count := by
  obtain hname | hname := hname
  · rw [readDirective, hname]
    rfl
  · rw [readDirective, hname]
    rfl

/-- A register count that is accepted. -/
theorem readRegisters_adds {count : List Char} (h : r.readRegisters count = .ok r') :
    ∃ d d', r.draft? = some d ∧ (Passage.registers count).Adds d d' ∧
      r' = { r with draft? := some d' } := by
  obtain ⟨n, hn, h⟩ := Machine.bind_eq_ok.1 h
  dsimp only at h
  split at h
  · next hbounds =>
    obtain ⟨-, d, -, hd, rfl⟩ := withCode_ok h
    have hpos : 0 ≤ n.toInt := of_decide_eq_true (Bool.and_eq_true_iff.1 hbounds).1
    exact ⟨d, _, hd, ⟨n, hn, hpos, rfl⟩, rfl⟩
  · cases h

/-! ### Switch tables -/

/-- The directive that starts a switch table. -/
theorem readDirective_switch {directive key : List Char}
    (hname : splitMnemonic directive = ("packed-switch".toList, key)) :
    r.readDirective directive = r.beginSwitch key := by
  rw [readDirective, hname]
  rfl

/-- A switch table that is accepted goes by the last label, and its first key is a 32-bit integer. -/
theorem beginSwitch_ok {key : List Char} (h : r.beginSwitch key = .ok r') :
    ∃ d name start, r.draft? = some d ∧ d.lastLabel? = some name ∧ Literal.parse key = .ok start ∧
      (Int32.ofInt start.toInt).toInt = start.toInt ∧
      r' = { r with block := .switch name { start := Int32.ofInt start.toInt } } := by
  obtain ⟨start, hstart, h⟩ := Machine.bind_eq_ok.1 h
  dsimp only at h
  split at h
  · next hbounds =>
    obtain ⟨hlow, hhigh⟩ := Bool.and_eq_true_iff.1 hbounds
    -- the key was checked to be in range, so it is not cut down
    have hint : (Int32.ofInt start.toInt).toInt = start.toInt :=
      Int32.toInt_ofInt_of_le (of_decide_eq_true hlow) (by
        have hle := of_decide_eq_true hhigh
        have hmax : Int32.maxValue.toInt = 2 ^ 31 - 1 := by decide
        omega)
    split at h
    · cases h
    · cases h
    · next d _ hd =>
      split at h
      · cases h
      · next name hname =>
        exact ⟨d, name, start, hd, hname, hstart, hint, (Except.ok.inj h).symm⟩
  · cases h

/-- A label in a switch table. -/
theorem accept_tableLabel {name : String} {start : Int32} {labels : List String}
    (hblock : r.block = .switch name ⟨start, labels⟩) (label : List Char) :
    r.accept (':' :: label) =
      .ok { r with block := .switch name ⟨start, labels ++ [String.ofList label]⟩ } := by
  have hother : ':' :: label ≠ ".end packed-switch".toList := by simp
  rw [accept, hblock]
  exact if_neg hother

/-- The end of a switch table. -/
theorem accept_tableEnd {name : String} {table : SwitchTable} (hblock : r.block = .switch name table) :
    r.accept ".end packed-switch".toList = { r with block := .none }.withCode fun code =>
      { code with switchTables := code.switchTables.insert name table } := by
  unfold accept
  rw [hblock]
  exact if_pos rfl

end Reader

namespace Opened

variable {o o' : Opened} {c : Class} {d : Draft} {line : List Char} {cs : List Class}

/-- A line that is neither empty nor the start of a class is accepted as it stands. -/
theorem readLine_accept (hstart : o.startsClass (bare line) = false) (hfull : bare line ≠ [])
    (h : o.readLine line = some (cs, o')) :
    cs = [] ∧ ∃ r', (Reader.ofOpened o).accept (bare line) = .ok r' ∧ r'.opened = o' := by
  have hsettle : o.settle (bare line) = ([], o) := if_neg (by simp [hstart])
  obtain ⟨hempty, -⟩ | ⟨-, hcs, haccept⟩ := readLine_cases h
  · exact absurd hempty hfull
  · rw [hsettle] at hcs haccept
    exact ⟨hcs, accept_ok haccept⟩

/-- No class starts inside of a method. -/
theorem readLine_inside (hdraft : o.draft? = some d) (hfull : bare line ≠ [])
    (h : o.readLine line = some (cs, o')) :
    cs = [] ∧ ∃ r', (Reader.ofOpened o).accept (bare line) = .ok r' ∧ r'.opened = o' := by
  have hopen : (Reader.ofOpened o).draft? = some d := hdraft
  -- a class starts only where no method is open
  have hstart : o.startsClass (bare line) = false := by
    unfold startsClass Reader.startsClass
    rw [hopen]
    cases (Reader.ofOpened o).block <;> rfl
  exact readLine_accept hstart hfull h

/-- Reading one line. -/
theorem readLines_singleton (o : Opened) (line : List Char) : o.readLines [line] = o.readLine line := by
  simp [readLines]

/-- A passage of one line. -/
theorem readLines_single {p : Passage} (hdraft : o.draft? = some d) (hfull : bare line ≠ [])
    (haccept : ∀ r', (Reader.ofOpened o).accept (bare line) = .ok r' →
      ∃ d d', (Reader.ofOpened o).draft? = some d ∧ p.Adds d d' ∧
        r' = { Reader.ofOpened o with draft? := some d' })
    (h : o.readLines [line] = some (cs, o')) :
    cs = [] ∧ ∃ d', p.Adds d d' ∧ o' = { o with draft? := some d' } := by
  rw [readLines_singleton] at h
  obtain ⟨hcs, r', hr', rfl⟩ := readLine_inside hdraft hfull h
  obtain ⟨d₁, d', hd₁, hadds, rfl⟩ := haccept r' hr'
  obtain rfl : d = d₁ := Option.some.inj (hdraft.symm.trans hd₁)
  exact ⟨hcs, d', hadds, rfl⟩

/-- Right lines: the first one, and then the rest from what it leaves open. -/
theorem readLines_cons_eq_some {rest : List (List Char)} (h : o.readLines (line :: rest) = some (cs, o')) :
    ∃ cs₁ o₁ cs₂, o.readLine line = some (cs₁, o₁) ∧ o₁.readLines rest = some (cs₂, o') ∧
      cs = cs₁ ++ cs₂ := by
  obtain ⟨⟨cs₁, o₁⟩, hline, h⟩ := Option.bind_eq_some_iff.1 h
  obtain ⟨⟨cs₂, o₂⟩, hrest, heq⟩ := Option.map_eq_some_iff.1 h
  obtain ⟨rfl, rfl⟩ := Prod.mk.inj heq
  exact ⟨cs₁, o₁, cs₂, hline, hrest, rfl⟩

/-- Right lines in two parts: the second from what the first leaves open. -/
theorem readLines_append_eq_some {xs ys : List (List Char)} (h : o.readLines (xs ++ ys) = some (cs, o')) :
    ∃ cs₁ o₁ cs₂, o.readLines xs = some (cs₁, o₁) ∧ o₁.readLines ys = some (cs₂, o') ∧
      cs = cs₁ ++ cs₂ := by
  rw [readLines_append] at h
  obtain ⟨⟨cs₁, o₁⟩, hxs, h⟩ := Option.bind_eq_some_iff.1 h
  obtain ⟨⟨cs₂, o₂⟩, hys, heq⟩ := Option.map_eq_some_iff.1 h
  obtain ⟨rfl, rfl⟩ := Prod.mk.inj heq
  exact ⟨cs₁, o₁, cs₂, hxs, hys, rfl⟩

/-- The first line of a switch table opens it under the last label. -/
theorem readLine_beginSwitch {directive key : List Char} (hdraft : o.draft? = some d)
    (hblock : o.block = .none) (hline : bare line = '.' :: directive)
    (hname : splitMnemonic directive = ("packed-switch".toList, key))
    (h : o.readLine line = some (cs, o')) :
    cs = [] ∧ ∃ name start, d.lastLabel? = some name ∧ Literal.parse key = .ok start ∧
      (Int32.ofInt start.toInt).toInt = start.toInt ∧
      o' = { o with block := .switch name ⟨Int32.ofInt start.toInt, []⟩ } := by
  obtain ⟨hcs, r', hr', rfl⟩ := readLine_inside hdraft (by simp [hline]) h
  have hclosed : (Reader.ofOpened o).block = .none := hblock
  rw [hline, Reader.accept_directive hclosed, Reader.readDirective_switch hname] at hr'
  obtain ⟨d', name, start, hd', hlabel, hstart, hint, rfl⟩ := Reader.beginSwitch_ok hr'
  obtain rfl : d = d' := Option.some.inj (hdraft.symm.trans hd')
  exact ⟨hcs, name, start, hlabel, hstart, hint, rfl⟩

/-- One line of a switch table: it is empty, or its label comes behind the labels above. -/
theorem readLine_table {name : String} {start : Int32} {labels : List String} (hdraft : o.draft? = some d)
    (hblock : o.block = .switch name ⟨start, labels⟩)
    (hline : bare line = [] ∨ (bare line).head? = some ':') (h : o.readLine line = some (cs, o')) :
    cs = [] ∧ o' = { o with block := .switch name ⟨start, labels ++ (tableLabel? line).toList⟩ } := by
  -- an empty line adds no label, another one its own
  obtain hempty | hcolon := hline
  · have hread : o.readLine line = some ([], o) := if_pos (List.isEmpty_iff.2 hempty)
    obtain ⟨rfl, rfl⟩ := Prod.mk.inj (Option.some.inj (hread.symm.trans h))
    simp [tableLabel?, hempty, ← hblock]
  · obtain ⟨label, hlabel⟩ := List.head?_eq_some_iff.1 hcolon
    obtain ⟨hcs, r', hr', rfl⟩ := readLine_inside hdraft (by simp [hlabel]) h
    have hopen : (Reader.ofOpened o).block = .switch name ⟨start, labels⟩ := hblock
    rw [hlabel, Reader.accept_tableLabel hopen] at hr'
    obtain rfl := Except.ok.inj hr'
    rw [tableLabel?, hlabel]
    exact ⟨hcs, rfl⟩

/-- The last line of a switch table puts it into the code. -/
theorem readLine_endSwitch {name : String} {table : SwitchTable} (hdraft : o.draft? = some d)
    (hblock : o.block = .switch name table) (hline : bare line = ".end packed-switch".toList)
    (h : o.readLine line = some (cs, o')) :
    cs = [] ∧ o' = { o with
      draft? := some { d with code := { d.code with
        switchTables := d.code.switchTables.insert name table } }
      block := .none } := by
  obtain ⟨hcs, r', hr', rfl⟩ := readLine_inside hdraft (by simp [hline]) h
  have hopen : (Reader.ofOpened o).block = .switch name table := hblock
  rw [hline, Reader.accept_tableEnd hopen] at hr'
  obtain ⟨-, d', -, hd', rfl⟩ := Reader.withCode_ok hr'
  obtain rfl : d = d' := Option.some.inj (hdraft.symm.trans hd')
  exact ⟨hcs, rfl⟩

/-- The lines inside of a switch table: their labels come behind those above. -/
theorem readLines_table {name : String} {start : Int32} {labels : List String}
    {contents : List (List Char)} (hdraft : o.draft? = some d)
    (hblock : o.block = .switch name ⟨start, labels⟩)
    (hcontents : ∀ line ∈ contents, bare line = [] ∨ (bare line).head? = some ':')
    (h : o.readLines contents = some (cs, o')) :
    cs = [] ∧
      o' = { o with block := .switch name ⟨start, labels ++ contents.filterMap tableLabel?⟩ } := by
  -- the induction is on the lines, with the labels read so far in the block
  induction contents generalizing o labels cs with
  | nil =>
    obtain ⟨rfl, rfl⟩ := Prod.mk.inj (Option.some.inj h)
    simp [← hblock]
  | cons line rest ih =>
    obtain ⟨hline, hrest⟩ := List.forall_mem_cons.1 hcontents
    obtain ⟨cs₁, o₁, cs₂, hread, h, rfl⟩ := readLines_cons_eq_some h
    obtain ⟨rfl, rfl⟩ := readLine_table hdraft hblock hline hread
    obtain ⟨rfl, rfl⟩ := ih (o := { o with block := .switch name ⟨start, _⟩ }) hdraft rfl hrest h
    refine ⟨rfl, ?_⟩
    cases hlabel : tableLabel? line <;> simp [hlabel]

/-- A switch table with its first and its last line. -/
theorem readLines_switch {first last directive key : List Char} {contents : List (List Char)}
    (hdraft : o.draft? = some d) (hblock : o.block = .none) (hfirst : bare first = '.' :: directive)
    (hname : splitMnemonic directive = ("packed-switch".toList, key))
    (hcontents : ∀ line ∈ contents, bare line = [] ∨ (bare line).head? = some ':')
    (hlast : bare last = ".end packed-switch".toList)
    (h : o.readLines (first :: contents ++ [last]) = some (cs, o')) :
    cs = [] ∧ ∃ d', (Passage.switch key (contents.filterMap tableLabel?)).Adds d d' ∧
      o' = { o with draft? := some d' } := by
  rw [List.cons_append] at h
  -- first line, contents and last line, each from what the one before leaves open
  obtain ⟨cs₁, o₁, cs₂, hbegin, hbehind, rfl⟩ := readLines_cons_eq_some h
  obtain ⟨cs₃, o₂, cs₄, hmiddle, hend, rfl⟩ := readLines_append_eq_some hbehind
  obtain ⟨rfl, name, start, hlabel, hstart, hint, rfl⟩ :=
    readLine_beginSwitch hdraft hblock hfirst hname hbegin
  obtain ⟨rfl, rfl⟩ :=
    readLines_table (o := { o with block := .switch name ⟨_, []⟩ }) hdraft rfl hcontents hmiddle
  rw [readLines_singleton] at hend
  obtain ⟨rfl, rfl⟩ :=
    readLine_endSwitch (o := { o with block := .switch name ⟨_, _⟩ }) hdraft rfl hlast hend
  exact ⟨rfl, _, ⟨name, start, hlabel, hstart, hint, rfl⟩, by rw [hblock, List.nil_append]⟩

/-- What the lines of a passage add to the method that is open. -/
theorem readLines_passage {p : Passage} {lines : List (List Char)} (hp : p.Written lines)
    (hdraft : o.draft? = some d) (hblock : o.block = .none) (h : o.readLines lines = some (cs, o')) :
    cs = [] ∧ ∃ d', p.Adds d d' ∧ o' = { o with draft? := some d' } := by
  have hclosed : (Reader.ofOpened o).block = .none := hblock
  cases hp with
  | instruction line text hline hfull hdot hcolon =>
    refine readLines_single hdraft (by simpa [hline] using hfull) (fun r' hr' => ?_) h
    rw [hline] at hr'
    exact Reader.accept_instructionLine hclosed hdot hcolon hr'
  | label line name hline =>
    refine readLines_single hdraft (by simp [hline]) (fun r' hr' => ?_) h
    rw [hline] at hr'
    exact Reader.accept_label hclosed hr'
  | registers line directive count hline hname =>
    refine readLines_single hdraft (by simp [hline]) (fun r' hr' => ?_) h
    rw [hline, Reader.accept_directive hclosed, Reader.readDirective_registers hname] at hr'
    exact Reader.readRegisters_adds hr'
  | switch first last directive key contents labels hfirst hname hcontents hlabels hlast =>
    obtain rfl := hlabels
    exact readLines_switch hdraft hblock hfirst hname hcontents hlast h
  | skipped lines hunseen =>
    have hread := readLines_unseen (show o.block = Cover.none.block from hblock) hunseen
    obtain ⟨rfl, rfl⟩ := Prod.mk.inj (Option.some.inj (hread.symm.trans h))
    exact ⟨rfl, d, rfl, by simp [← hdraft, ← hblock]⟩

/-- Passages are kept, one behind the other. -/
theorem readLines_passages {ps done : List Passage} {lines : List (List Char)}
    (hps : Passage.AllWritten ps lines) (hdraft : o.draft? = some d) (hblock : o.block = .none)
    (hdone : d.Keeps done) (h : o.readLines lines = some (cs, o')) :
    cs = [] ∧ ∃ d', d'.Keeps (done ++ ps) ∧ d'.method = d.method ∧
      o' = { o with draft? := some d' } := by
  -- the induction is on the passages still to come; `done` are those that the method already keeps
  induction hps generalizing o d done cs with
  | nil =>
    obtain ⟨rfl, rfl⟩ := Prod.mk.inj (Option.some.inj h)
    exact ⟨rfl, d, by simpa using hdone, rfl, by simp [← hdraft]⟩
  | cons p ps xs ys hp _ ih =>
    obtain ⟨cs₁, o₁, cs₂, hxs, hys, rfl⟩ := readLines_append_eq_some h
    obtain ⟨rfl, d₁, hadds, rfl⟩ := readLines_passage hp hdraft hblock hxs
    obtain ⟨rfl, d', hkeeps, hmethod, rfl⟩ :=
      ih (o := { o with draft? := some d₁ }) rfl hblock (hdone.add hadds) hys
    exact ⟨rfl, d', by simpa using hkeeps, hmethod.trans hadds.method, rfl⟩

end Opened

/-! ## The class of a method -/

/-- Methods have come behind those of the class, and its name is the same. -/
structure Class.Grows (c c' : Class) : Prop where
  name : c'.name = c.name
  methods : c.methods <+: c'.methods

/-- A class that nothing was done to. -/
theorem Class.Grows.refl (c : Class) : c.Grows c :=
  ⟨rfl, List.prefix_rfl⟩

/-- A class that has grown twice. -/
theorem Class.Grows.trans {c₁ c₂ c₃ : Class} (h : c₁.Grows c₂) (h' : c₂.Grows c₃) : c₁.Grows c₃ :=
  ⟨h'.name.trans h.name, h.methods.trans h'.methods⟩

namespace Reader

variable {r r' : Reader} {c : Class} {line directive : List Char}

/-- A change that lets the open class grow. -/
theorem withClass_grows {change : Class → Class} (hclass : r.class? = some c)
    (hchange : c.Grows (change c)) (h : r.withClass change = .ok r') :
    ∃ c', r'.class? = some c' ∧ c.Grows c' := by
  obtain ⟨c', hc', rfl⟩ := withClass_ok h
  obtain rfl : c = c' := Option.some.inj (hclass.symm.trans hc')
  exact ⟨change c, rfl, hchange⟩

/-- A change of the open method leaves the class alone. -/
theorem withDraft_class {change : Draft → Except ReadError Draft} (h : r.withDraft change = .ok r') :
    r'.class? = r.class? := by
  obtain ⟨-, -, -, -, -, -, rfl⟩ := withDraft_ok h
  rfl

/-- A field leaves the methods of the class alone. -/
theorem readField_grows {rest : List Char} (hclass : r.class? = some c) (h : r.readField rest = .ok r') :
    ∃ c', r'.class? = some c' ∧ c.Grows c' := by
  unfold readField at h
  dsimp only at h
  split at h
  · cases h
  · split at h
    · cases h
    · obtain ⟨_, _, h⟩ := Machine.bind_eq_ok.1 h
      obtain ⟨_, _, h⟩ := Machine.bind_eq_ok.1 h
      exact withClass_grows hclass ⟨rfl, List.prefix_rfl⟩ h

/-- The start of a method leaves the class alone. -/
theorem beginMethod_class {rest : List Char} (h : r.beginMethod rest = .ok r') : r'.class? = r.class? := by
  unfold beginMethod at h
  split at h
  · cases h
  · split at h
    · cases h
    · cases h
    · obtain ⟨_, _, h⟩ := Machine.bind_eq_ok.1 h
      obtain rfl := Except.ok.inj h
      rfl

/-- The end of a method puts the method behind the others. -/
theorem endMethod_grows (hclass : r.class? = some c) (h : r.endMethod = .ok r') :
    ∃ c', r'.class? = some c' ∧ c.Grows c' := by
  unfold endMethod at h
  split at h
  · cases h
  · obtain ⟨m, -, h⟩ := Machine.bind_eq_ok.1 h
    have hclosed : { r with draft? := none }.class? = some c := hclass
    exact withClass_grows hclosed ⟨rfl, List.prefix_append _ _⟩ h

/-- A register count leaves the class alone. -/
theorem readRegisters_class {rest : List Char} (h : r.readRegisters rest = .ok r') :
    r'.class? = r.class? := by
  obtain ⟨-, -, -, -, rfl⟩ := readRegisters_adds h
  rfl

/-- The start of a switch table leaves the class alone. -/
theorem beginSwitch_class {rest : List Char} (h : r.beginSwitch rest = .ok r') :
    r'.class? = r.class? := by
  obtain ⟨-, -, -, -, -, -, -, rfl⟩ := beginSwitch_ok h
  rfl

/-- All directives but the one that starts a class let the open class grow or leave it as it is. -/
theorem readDirective_grows (hname : (splitMnemonic directive).1 ≠ "class".toList)
    (hclass : r.class? = some c) (h : r.readDirective directive = .ok r') :
    ∃ c', r'.class? = some c' ∧ c.Grows c' := by
  have hsame {r' : Reader} (hr' : r'.class? = r.class?) : ∃ c', r'.class? = some c' ∧ c.Grows c' :=
    ⟨c, hr'.trans hclass, .refl c⟩
  unfold readDirective at h
  dsimp only at h
  split at h
  -- the directive for classes is ruled out
  · next hclassLine =>
    exact absurd (String.toList_ofList.symm.trans (congrArg String.toList hclassLine)) hname
  · obtain ⟨_, _, h⟩ := Machine.bind_eq_ok.1 h
    exact withClass_grows hclass ⟨rfl, List.prefix_rfl⟩ h
  · exact readField_grows hclass h
  · exact hsame (beginMethod_class h)
  · exact hsame (readRegisters_class h)
  · exact hsame (readRegisters_class h)
  · exact hsame (beginSwitch_class h)
  -- annotations and the data that no program keeps only open a block
  iterate 4
    · obtain rfl := Except.ok.inj h
      exact hsame rfl
  · split at h
    · exact endMethod_grows hclass h
    · obtain rfl := Except.ok.inj h
      exact hsame rfl

/-- A line of a switch table leaves the class alone. -/
theorem readSwitchLine_class {name : String} {table : SwitchTable}
    (h : r.readSwitchLine name table line = .ok r') : r'.class? = r.class? := by
  unfold readSwitchLine at h
  split at h
  · exact (withDraft_class h).trans rfl
  · split at h
    · obtain rfl := Except.ok.inj h
      rfl
    · cases h

/-- A line of metadata leaves the class alone. -/
theorem readMetadataLine_class (r : Reader) (depth : Nat) (line : List Char) :
    (r.readMetadataLine depth line).class? = r.class? := by
  unfold readMetadataLine
  split
  · rfl
  · split <;> rfl

/-- A line that starts no class lets the open class grow or leaves it as it is. -/
theorem accept_grows (hstart : r.startsClass line = false) (hclass : r.class? = some c)
    (h : r.accept line = .ok r') : ∃ c', r'.class? = some c' ∧ c.Grows c' := by
  have hsame {r' : Reader} (hr' : r'.class? = r.class?) : ∃ c', r'.class? = some c' ∧ c.Grows c' :=
    ⟨c, hr'.trans hclass, .refl c⟩
  -- a line that starts a class outside of blocks would start one here
  by_cases hline : isClassLine line ∧ r.block.cover = .none
  · have hstart' := (accept_classLine hline.2 hline.1 h).1
    rw [hstart] at hstart'
    cases hstart'
  unfold accept at h
  split at h
  · exact hsame (readSwitchLine_class h)
  · obtain rfl := Except.ok.inj h
    exact hsame (readMetadataLine_class r _ line)
  · obtain rfl := Except.ok.inj h
    split
    · exact hsame rfl
    · exact hsame rfl
  · next hblock =>
    split at h
    · next directive =>
      refine readDirective_grows (fun hname => hline ⟨decide_eq_true ?_, by rw [hblock]; rfl⟩) hclass h
      rw [directiveName?, hname, String.ofList_toList]
    · exact hsame (withDraft_class h)
    · obtain ⟨_, _, h⟩ := Machine.bind_eq_ok.1 h
      exact hsame (withDraft_class h)

end Reader

namespace Opened

variable {o o' : Opened} {c : Class} {line : List Char} {cs : List Class}

/-- A class that is open at the end of a method is defined by the source: it is the next class that is
finished, and all its methods so far are in it. -/
theorem classes?_grows {lines : List (List Char)} (hclass : o.class? = some c)
    (h : o.classes? lines = some cs) : ∃ c' later, cs = c' :: later ∧ c.Grows c' := by
  -- the induction is on the lines behind the method, up to the next class or the end
  induction lines generalizing o c cs with
  | nil =>
    rw [classes?_nil] at h
    obtain rfl := finish_eq_some h
    exact ⟨c, [], by rw [hclass]; rfl, .refl c⟩
  | cons line rest ih =>
    cases hline : o.readLine line with
    | none =>
      rw [classes?_cons_refused hline] at h
      cases h
    | some x =>
      obtain ⟨cs₁, o₁⟩ := x
      rw [classes?_cons hline] at h
      obtain ⟨cs₂, hrest, rfl⟩ := Option.map_eq_some_iff.1 h
      cases hstart : o.startsClass (bare line) with
      | true =>
        -- the next class starts here, and the open one is finished
        obtain ⟨rfl, -⟩ := readLine_start hline hstart
        exact ⟨c, cs₂, by rw [hclass]; rfl, .refl c⟩
      | false =>
        have hsettle : o.settle (bare line) = ([], o) := if_neg (by simp [hstart])
        obtain rfl : cs₁ = [] := by rw [finished_of_readLine hline, hsettle]
        obtain ⟨c₁, hclass₁, hgrows₁⟩ : ∃ c₁, o₁.class? = some c₁ ∧ c.Grows c₁ := by
          obtain ⟨-, -, rfl⟩ | ⟨-, -, haccept⟩ := readLine_cases hline
          · exact ⟨c, hclass, .refl c⟩
          · rw [hsettle] at haccept
            obtain ⟨r', hr', rfl⟩ := accept_ok haccept
            exact Reader.accept_grows hstart hclass hr'
        obtain ⟨c', later, rfl, hgrows⟩ := ih hclass₁ hrest
        exact ⟨c', later, rfl, hgrows₁.trans hgrows⟩

end Opened

/-- Behind a method the open class is finished first, then come the classes whose texts follow. -/
theorem Opened.classes?_behind_method {o : Opened} {c : Class} {lines : List (List Char)}
    {cs : List Class} (hclass : o.class? = some c) (hblock : o.block = .none)
    (h : o.classes? lines = some cs) :
    ∃ c' later, cs = c' :: later ∧ c.Grows c' ∧
      (Cover.none.cut lines).2.map definition? = later.map some := by
  obtain ⟨c', later, rfl, hgrows⟩ := classes?_grows hclass h
  obtain ⟨c?, ds, -, htexts, hall, hsome, -⟩ := classes?_cut h
  obtain ⟨d, rfl⟩ := Option.isSome_iff_exists.1 (hsome (by rw [hclass]; rfl))
  obtain ⟨rfl, rfl⟩ := List.cons.inj hall
  rw [hblock] at htexts
  exact ⟨c', later, rfl, hgrows, htexts⟩

/-! ## Methods in sources -/

/-- The lines of a method, with what its first line says and the passages between the first line and the
last. -/
inductive MethodText (flags : Flags) (signature : List Char) (ps : List Passage) :
    List (List Char) → Prop
  | lines (first last directive closing rest : List Char) (body : List (List Char))
    (hfirst : bare first = '.' :: directive) (hname : splitMnemonic directive = ("method".toList, rest))
    (hrest : Reader.lastWord? rest = some (flags, signature)) (hbody : Passage.AllWritten ps body)
    (hlast : bare last = '.' :: closing)
    (hclosing : splitMnemonic closing = ("end".toList, "method".toList)) :
    MethodText flags signature ps (first :: body ++ [last])

namespace Reader

variable {r r' : Reader} {c : Class} {directive : List Char}

/-- Only the directive for classes starts a class. -/
theorem startsClass_directive {name rest : List Char} (h : splitMnemonic directive = (name, rest))
    (hname : name ≠ "class".toList) : r.startsClass ('.' :: directive) = false := by
  unfold startsClass
  split
  · next heq =>
    obtain ⟨-, rfl⟩ := List.cons.inj heq
    rw [h]
    exact decide_eq_false hname
  · rfl

/-- The directive that starts a method. -/
theorem readDirective_method {rest : List Char} (h : splitMnemonic directive = ("method".toList, rest)) :
    r.readDirective directive = r.beginMethod rest := by
  rw [readDirective, h]
  rfl

/-- The directive that ends a method. -/
theorem readDirective_endMethod (h : splitMnemonic directive = ("end".toList, "method".toList)) :
    r.readDirective directive = r.endMethod := by
  rw [readDirective, h]
  rfl

/-- A method that is opened belongs to the open class and has the parts of its signature. -/
theorem beginMethod_ok {rest signature : List Char} {flags : Flags}
    (hrest : lastWord? rest = some (flags, signature)) (h : r.beginMethod rest = .ok r') :
    ∃ c id, r.class? = some c ∧ MethodId.parse (c.name.toList ++ '-' :: '>' :: signature) = .ok id ∧
      r' = { r with draft? := some { method := ⟨c.name, id.name, flags, id.params, id.returnType,
        if flags.contains .isNative then .native else .code {}⟩ } } := by
  unfold beginMethod at h
  split at h
  · cases h
  · split at h
    · cases h
    · cases h
    · next c flags' signature' hc hrest' =>
      obtain ⟨rfl, rfl⟩ := Prod.mk.inj (Option.some.inj (hrest.symm.trans hrest'))
      obtain ⟨id, hid, h⟩ := Machine.bind_eq_ok.1 h
      exact ⟨c, id, hc, hid, (Except.ok.inj h).symm⟩

/-- A method that is not native ends with its code. -/
theorem finishDraft_code {d : Draft} {m : Method} (hcode : d.method.isNative = false)
    (h : finishDraft d = .ok m) : m = { d.method with body := .code d.code } := by
  unfold finishDraft at h
  rw [hcode, if_neg Bool.false_ne_true] at h
  split at h
  · cases h
  · exact (Except.ok.inj h).symm

/-- At its end a method that is not native comes behind the methods of the open class. -/
theorem endMethod_ok {d : Draft} (hclass : r.class? = some c) (hdraft : r.draft? = some d)
    (hcode : d.method.isNative = false) (h : r.endMethod = .ok r') :
    r' = { r with
      draft? := none
      class? := some { c with methods := c.methods ++ [{ d.method with body := .code d.code }] } } := by
  unfold endMethod at h
  rw [hdraft] at h
  obtain ⟨m, hm, h⟩ := Machine.bind_eq_ok.1 h
  obtain rfl := finishDraft_code hcode hm
  obtain ⟨c', hc', rfl⟩ := withClass_ok h
  obtain rfl : c = c' := Option.some.inj (hclass.symm.trans hc')
  rfl

end Reader

namespace Opened

variable {o o' : Opened} {c : Class} {cs : List Class} {line : List Char} {flags : Flags}
  {signature : List Char}

/-- The first line of a method opens it. -/
theorem readLine_beginMethod {directive rest : List Char} (hblock : o.block = .none)
    (hline : bare line = '.' :: directive) (hname : splitMnemonic directive = ("method".toList, rest))
    (hrest : Reader.lastWord? rest = some (flags, signature)) (hnative : flags.contains .isNative = false)
    (h : o.readLine line = some (cs, o')) :
    cs = [] ∧ ∃ c id, o.class? = some c ∧
      MethodId.parse (c.name.toList ++ '-' :: '>' :: signature) = .ok id ∧
      o' = { o with draft? := some { method :=
        ⟨c.name, id.name, flags, id.params, id.returnType, .code {}⟩ } } := by
  have hstart : o.startsClass (bare line) = false := by
    rw [hline]
    exact Reader.startsClass_directive hname (by decide)
  have hclosed : (Reader.ofOpened o).block = .none := hblock
  obtain ⟨hcs, r', hr', rfl⟩ := readLine_accept hstart (by simp [hline]) h
  rw [hline, Reader.accept_directive hclosed, Reader.readDirective_method hname] at hr'
  obtain ⟨c, id, hclass, hid, rfl⟩ := Reader.beginMethod_ok hrest hr'
  refine ⟨hcs, c, id, hclass, hid, ?_⟩
  rw [hnative]
  rfl

/-- The last line of a method puts it into the open class. -/
theorem readLine_endMethod {closing : List Char} {d : Draft} (hblock : o.block = .none)
    (hclass : o.class? = some c) (hdraft : o.draft? = some d) (hcode : d.method.isNative = false)
    (hline : bare line = '.' :: closing)
    (hclosing : splitMnemonic closing = ("end".toList, "method".toList))
    (h : o.readLine line = some (cs, o')) :
    cs = [] ∧ o' = { o with
      class? := some { c with methods := c.methods ++ [{ d.method with body := .code d.code }] }
      draft? := none } := by
  have hclosed : (Reader.ofOpened o).block = .none := hblock
  obtain ⟨hcs, r', hr', rfl⟩ := readLine_inside hdraft (by simp [hline]) h
  rw [hline, Reader.accept_directive hclosed, Reader.readDirective_endMethod hclosing] at hr'
  obtain rfl := Reader.endMethod_ok (r := Reader.ofOpened o) hclass hdraft hcode hr'
  exact ⟨hcs, rfl⟩

/-- The lines of a method add one method to the open class, with code that says what the passages say. -/
theorem readLines_methodText {ps : List Passage} {text : List (List Char)}
    (htext : MethodText flags signature ps text) (hnative : flags.contains .isNative = false)
    (hblock : o.block = .none) (h : o.readLines text = some (cs, o')) :
    cs = [] ∧ ∃ c id code, o.class? = some c ∧
      MethodId.parse (c.name.toList ++ '-' :: '>' :: signature) = .ok id ∧ code.ReadFrom ps ∧
      o' = { o with
        class? := some { c with methods := c.methods ++
          [⟨c.name, id.name, flags, id.params, id.returnType, .code code⟩] }
        draft? := none } := by
  obtain ⟨first, last, directive, closing, rest, body, hfirst, hname, hrest, hbody, hlast, hclosing⟩ :=
    htext
  rw [List.cons_append] at h
  obtain ⟨cs₁, o₁, cs₂, hbegin, hbehind, rfl⟩ := readLines_cons_eq_some h
  obtain ⟨cs₃, o₂, cs₄, hmiddle, hend, rfl⟩ := readLines_append_eq_some hbehind
  obtain ⟨rfl, c, id, hclass, hid, rfl⟩ := readLine_beginMethod hblock hfirst hname hrest hnative hbegin
  obtain ⟨rfl, d, hkeeps, hmethod, rfl⟩ :=
    readLines_passages (o := { o with draft? := some _ }) hbody rfl hblock (Draft.keeps_begin _) hmiddle
  -- the passages have left the first line of the method alone
  have hcode : d.method.isNative = false := by
    rw [hmethod]
    rfl
  rw [readLines_singleton] at hend
  obtain ⟨rfl, rfl⟩ :=
    readLine_endMethod (o := { o with draft? := some d }) hblock hclass rfl hcode hlast hclosing hend
  refine ⟨rfl, c, id, d.code, hclass, hid, hkeeps.code, ?_⟩
  rw [hmethod]

end Opened

/-- A method text in a source that is right becomes a method of the class in which it stands, behind the
methods above it. Its code has the instructions of the text in order, each label with the number of
instructions in front of its last line, each switch table under the label in front of it, and the last
register count. The class goes into the table, and it stays there unless a text below defines one with its
name. -/
theorem ClassTable.readSource_method {t : ClassTable} {journal : Journal} {source : String}
    {before text after : List (List Char)} {flags : Flags} {signature : List Char} {ps : List Passage}
    (hlines : Text.lines source.toList = before ++ text ++ after)
    (htext : MethodText flags signature ps text) (hnative : flags.contains .isNative = false)
    (hblock : (({ classes := t, journal } : Reader).readLines before).1.block = .none)
    (haccepted : (t.readSource journal source).error? = none) :
    ∃ c id code earlier c' later,
      (({ classes := t, journal } : Reader).readLines before).1.class? = some c ∧
      MethodId.parse (c.name.toList ++ '-' :: '>' :: signature) = .ok id ∧
      code.ReadFrom ps ∧
      c'.name = c.name ∧
      c.methods ++ [⟨c.name, id.name, flags, id.params, id.returnType, .code code⟩] <+: c'.methods ∧
      (Cover.none.cut after).2.map definition? = later.map some ∧
      (t.readSource journal source).classes = t.addAll (earlier ++ c' :: later) ∧
      ((∀ d ∈ later, d.name ≠ c.name) →
        (t.readSource journal source).classes.get? c.name = some c') := by
  obtain ⟨cs, hcs⟩ := readSource_accepted_iff.1 haccepted
  -- the table gets the classes of the source, so it is enough to find the class among them
  have htable := (readSource_eq hcs t journal).2
  rw [sourceClasses?, hlines, List.append_assoc] at hcs
  obtain ⟨earlier, o, hbefore⟩ := Opened.exists_readLines_of_classes? hcs
  obtain ⟨r, hr, rfl, -⟩ := Reader.readLines_eq (r := { classes := t, journal }) hbefore
  rw [hr] at hblock ⊢
  rw [Opened.classes?_append hbefore] at hcs
  obtain ⟨cs₁, htextAfter, rfl⟩ := Option.map_eq_some_iff.1 hcs
  obtain ⟨cs₂, o', hread⟩ := Opened.exists_readLines_of_classes? htextAfter
  obtain ⟨rfl, c, id, code, hclass, hid, hcode, rfl⟩ :=
    Opened.readLines_methodText htext hnative hblock hread
  rw [Opened.classes?_append hread] at htextAfter
  obtain ⟨cs₃, hafter, rfl⟩ := Option.map_eq_some_iff.1 htextAfter
  obtain ⟨c', later, rfl, hgrows, hlater⟩ := Opened.classes?_behind_method rfl hblock hafter
  refine ⟨c, id, code, earlier, c', later, hclass, hid, hcode, hgrows.name, hgrows.methods, hlater,
    htable, ?_⟩
  -- of the classes with the name the last one stays, and none comes behind
  intro hother
  have hnone : later.filter (·.name == c.name) = [] := by
    rw [List.filter_eq_nil_iff]
    exact fun d hd hname => hother d hd (beq_iff_eq.1 hname)
  have hname : c'.name = c.name := hgrows.name
  rw [htable, get?_addAll]
  simp [hname, hnone]

/-- The inside of a method with a label set twice, two tables under it, an annotation with a label in it and
two register counts. -/
def windingBody : List (List Char) :=
  [".registers 0".toList, "const v0, 1 # one".toList, " :again".toList, ".line 3".toList,
    "packed-switch p0, :again".toList, ":again".toList, ".packed-switch 9".toList, ":again".toList,
    ".end packed-switch".toList, "return v0".toList, ".annotation runtime LNote;".toList,
    ":hidden".toList, ".end annotation".toList, ".locals 0x2".toList, ".packed-switch -2".toList,
    ":again".toList, "# two".toList, ":out".toList, ".end packed-switch".toList, ":out".toList,
    "return v0".toList]

/-- What the lines are. -/
def windingPassages : List Passage :=
  [.registers "0".toList, .instruction "const v0, 1".toList, .label "again", .skipped,
    .instruction "packed-switch p0, :again".toList, .label "again", .switch "9".toList ["again"],
    .instruction "return v0".toList, .skipped, .registers "0x2".toList,
    .switch "-2".toList ["again", "out"], .label "out", .instruction "return v0".toList]

/-- The lines are the passages. -/
theorem allWritten_windingBody : Passage.AllWritten windingPassages windingBody := by
  have hinstruction (line text : List Char) (h : bare line = text ∧ text ≠ [] ∧
      text.head? ≠ some '.' ∧ text.head? ≠ some ':') : (Passage.instruction text).Written [line] :=
    .instruction line text h.1 h.2.1 h.2.2.1 h.2.2.2
  refine .cons _ _ [_] _ (.registers _ "registers 0".toList _ (by decide +kernel)
    (.inl (by decide +kernel))) ?_
  refine .cons _ _ [_] _ (hinstruction _ _ (by decide +kernel)) ?_
  refine .cons _ _ [_] _ (.label _ _ (by decide +kernel)) ?_
  -- a directive without meaning and a whole annotation are both skipped
  refine .cons _ _ [_] _ (.skipped _ (by decide +kernel)) ?_
  refine .cons _ _ [_] _ (hinstruction _ _ (by decide +kernel)) ?_
  refine .cons _ _ [_] _ (.label _ _ (by decide +kernel)) ?_
  refine .cons _ _ [_, _, _] _ (.switch _ _ "packed-switch 9".toList _ [_] _ (by decide +kernel)
    (by decide +kernel) (by decide +kernel) (by decide +kernel) (by decide +kernel)) ?_
  refine .cons _ _ [_] _ (hinstruction _ _ (by decide +kernel)) ?_
  refine .cons _ _ [_, _, _] _ (.skipped _ (by decide +kernel)) ?_
  refine .cons _ _ [_] _ (.registers _ "locals 0x2".toList _ (by decide +kernel)
    (.inr (by decide +kernel))) ?_
  refine .cons _ _ [_, _, _, _, _] _ (.switch _ _ "packed-switch -2".toList _ [_, _, _] _
    (by decide +kernel) (by decide +kernel) (by decide +kernel) (by decide +kernel) (by decide +kernel)) ?_
  refine .cons _ _ [_] _ (.label _ _ (by decide +kernel)) ?_
  exact .cons _ _ [_] _ (hinstruction _ _ (by decide +kernel)) .nil

/-- With a first and a last line around them they are the text of a method. -/
theorem windingText_eq : MethodText (.ofWords ["public", "static"]) "pick(I)I".toList windingPassages
    (".method public static pick(I)I".toList :: windingBody ++ [".end  method".toList]) :=
  .lines _ _ "method public static pick(I)I".toList "end  method".toList "public static pick(I)I".toList _
    (by decide +kernel) (by decide +kernel) (by decide +kernel) allWritten_windingBody (by decide +kernel)
    (by decide +kernel)

/-- Its code: the label counts the instructions in front of its second line, and of the tables the second one
has stayed. -/
def windingCode : Code where
  registerCount := 2
  instructions := #[.const (.register 0) ⟨1, 32⟩, .packedSwitch (.parameter 0) "again",
    .returnValue .single (.register 0), .returnValue .single (.register 0)]
  labels := ⟨[("again", 2), ("out", 3)]⟩
  switchTables := ⟨[("again", ⟨-2, ["again", "out"]⟩)]⟩

/-- The lines of a class with this method in it. -/
def windingLines : List (List Char) :=
  [".class LWinding;".toList, ".method f()V".toList, ".end method".toList] ++
    (".method public static pick(I)I".toList :: windingBody ++ [".end  method".toList]) ++ []

/-- The source is read, its second method has the code, and the code says what the passages say. -/
theorem windingCode_read :
    windingCode.ReadFrom windingPassages ∧
    ((ClassTable.readSource {} {} (String.ofList (Text.ofLines windingLines))).classes.get?
      "LWinding;").map (·.methods.map fun m => (m.name, m.body)) =
        some [("f", .code {}), ("pick", .code windingCode)] := by
  have hlines : Text.lines (String.ofList (Text.ofLines windingLines)).toList = windingLines := by
    rw [String.toList_ofList, Text.lines_ofLines (by decide +kernel)]
  have haccepted :
      (ClassTable.readSource {} {} (String.ofList (Text.ofLines windingLines))).error? = none := by
    rw [ClassTable.readSource_eq_readAll, hlines]
    decide +kernel
  have hmethods : ((ClassTable.readSource {} {} (String.ofList (Text.ofLines windingLines))).classes.get?
      "LWinding;").map (·.methods.map fun m => (m.name, m.body)) =
        some [("f", .code {}), ("pick", .code windingCode)] := by
    rw [ClassTable.readSource_eq_readAll, hlines]
    decide +kernel
  refine ⟨?_, hmethods⟩
  obtain ⟨c, id, code, earlier, c', later, hclass, -, hcode, -, hprefix, hlater, -, hstored⟩ :=
    ClassTable.readSource_method hlines windingText_eq (by decide +kernel) (by decide +kernel) haccepted
  obtain rfl : later = [] := (List.map_eq_nil_iff.1 hlater.symm)
  have hname : c.name = "LWinding;" := by
    have hopen : (({ classes := {}, journal := {} } : Reader).readLines
        [".class LWinding;".toList, ".method f()V".toList, ".end method".toList]).1.class?.map (·.name) =
          some "LWinding;" := by decide +kernel
    rw [hclass] at hopen
    exact Option.some.inj hopen
  rw [← hname, hstored fun d hd => absurd hd List.not_mem_nil] at hmethods
  -- the method that the theorem gives is one of the two that were read
  have hmem : (id.name, Body.code code) ∈ [("f", .code {}), ("pick", .code windingCode)] := by
    rw [← Option.some.inj hmethods]
    exact List.mem_map.2 ⟨_, hprefix.subset (List.mem_append_right _ List.mem_cons_self), rfl⟩
  -- the other method has no instructions
  have hsize : code.instructions.size = 4 := hcode.size_instructions
  obtain hempty | hwinding : code = {} ∨ code = windingCode := by
    simp only [List.mem_cons, Prod.mk.injEq, Body.code.injEq, List.not_mem_nil, or_false] at hmem
    exact hmem.imp And.right And.right
  · rw [hempty] at hsize
    cases hsize
  · exact hwinding ▸ hcode

end Smali
