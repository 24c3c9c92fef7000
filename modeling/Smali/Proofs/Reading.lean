import Smali.Proofs.Lines

/-!
# What lines define

What a line does depends on what is open when it is read, the class, the method and the block, and on
nothing else: not on the classes in the table, not on the journal, and of the line number only the errors
tell. So reading falls into two parts. Lines turn into the classes that they define, one after the other
(`Opened.readLines`), and each class that is finished goes into the table (`ClassTable.addAll`).

## Key results

- `Reader.accept_congr`: two readers with the same open things do the same with a line
- `Reader.readLines_eq`, `Reader.readLines_refused`: readers do with lines what `Opened.readLines` says
- `Reader.readAll_eq`, `Reader.readAll_refused`: so does reading into a table
-/

namespace Smali

/-- What is open while a source is read. -/
structure Opened where
  class? : Option Class := none
  draft? : Option Draft := none
  block : Block := .none
  deriving Repr, DecidableEq

namespace Reader

/-- What is open at a moment of reading. -/
def opened (r : Reader) : Opened := ⟨r.class?, r.draft?, r.block⟩

/-- A reader that knows nothing but what is open. -/
def ofOpened (o : Opened) : Reader :=
  { classes := {}, journal := {}, class? := o.class?, draft? := o.draft?, block := o.block }

/-- What is open behind a line, none if the line is refused. -/
def result (x : Except ReadError Reader) : Option Opened :=
  x.toOption.map opened

/-! ## One line -/

/-- What is open behind a sequence, if its first part is computed without the reader. -/
theorem result_bind (x : Except ReadError α) (k : α → Except ReadError Reader) :
    result (x >>= k) = x.toOption.bind fun a => result (k a) := by
  cases x with
  | error e => rfl
  | ok a => rfl

/-- What is computed without the reader comes to the same on both sides. -/
theorem result_bind_congr {x : Except ReadError α} {k k' : α → Except ReadError Reader}
    (h : ∀ a, result (k a) = result (k' a)) : result (x >>= k) = result (x >>= k') := by
  rw [result_bind, result_bind]
  exact congrArg _ (funext h)

variable {r r' : Reader}

/-- Changing the open class depends on the open things only. -/
theorem withClass_congr (h : r.opened = r'.opened) (change : Class → Class) :
    result (r.withClass change) = result (r'.withClass change) := by
  obtain ⟨hclass, hdraft, hblock⟩ := Opened.mk.inj h
  unfold withClass
  rw [hclass]
  split
  · simp [result, Except.toOption, opened, hdraft, hblock]
  · rfl

/-- Changing the open method depends on the open things only. -/
theorem withDraft_congr (h : r.opened = r'.opened) (change : Draft → Except ReadError Draft) :
    result (r.withDraft change) = result (r'.withDraft change) := by
  obtain ⟨hclass, hdraft, hblock⟩ := Opened.mk.inj h
  unfold withDraft
  rw [hclass, hdraft]
  split
  · rfl
  · rfl
  -- the changed method takes the place of the open one
  · refine result_bind_congr fun d' => ?_
    simp [result, pure, Except.pure, Except.toOption, opened, hblock]

/-- So does the start of a class. -/
theorem beginClass_congr (h : r.opened = r'.opened) (rest : List Char) :
    result (r.beginClass rest) = result (r'.beginClass rest) := by
  obtain ⟨_, hdraft, hblock⟩ := Opened.mk.inj h
  unfold beginClass
  rw [hdraft]
  -- an open method, a missing name and a name that is no class are refused by both
  split
  · rfl
  · split
    · rfl
    · refine result_bind_congr fun type => ?_
      split
      · simp [result, pure, Except.pure, Except.toOption, opened, hblock]
      · rfl

/-- So does a field. -/
theorem readField_congr (h : r.opened = r'.opened) (rest : List Char) :
    result (r.readField rest) = result (r'.readField rest) := by
  unfold readField
  dsimp only
  split
  · rfl
  · split
    · rfl
    · refine result_bind_congr fun type => result_bind_congr fun initial? => ?_
      exact withClass_congr h _

/-- So does the start of a method. -/
theorem beginMethod_congr (h : r.opened = r'.opened) (rest : List Char) :
    result (r.beginMethod rest) = result (r'.beginMethod rest) := by
  obtain ⟨hclass, hdraft, hblock⟩ := Opened.mk.inj h
  unfold beginMethod
  rw [hdraft, hclass]
  split
  · rfl
  · split
    · rfl
    · rfl
    · refine result_bind_congr fun id => ?_
      simp [result, pure, Except.pure, Except.toOption, opened, hblock]

/-- So does the end of a method. -/
theorem endMethod_congr (h : r.opened = r'.opened) :
    result r.endMethod = result r'.endMethod := by
  obtain ⟨hclass, hdraft, hblock⟩ := Opened.mk.inj h
  unfold endMethod
  rw [hdraft]
  split
  · rfl
  -- the method is closed before the class is changed
  · have hended : { r with draft? := none }.opened = { r' with draft? := none }.opened := by
      simp [opened, hclass, hblock]
    exact result_bind_congr fun m => withClass_congr hended _

/-- So does a number of registers. -/
theorem readRegisters_congr (h : r.opened = r'.opened) (rest : List Char) :
    result (r.readRegisters rest) = result (r'.readRegisters rest) := by
  refine result_bind_congr fun count => ?_
  dsimp only
  split
  · exact withDraft_congr h _
  · rfl

/-- So does the start of a switch table. -/
theorem beginSwitch_congr (h : r.opened = r'.opened) (rest : List Char) :
    result (r.beginSwitch rest) = result (r'.beginSwitch rest) := by
  obtain ⟨hclass, hdraft, _⟩ := Opened.mk.inj h
  refine result_bind_congr fun start => ?_
  dsimp only
  rw [hclass, hdraft]
  -- the bounds of the key do not depend on the reader, the open label does
  split
  · split
    · rfl
    · rfl
    · split
      · rfl
      · simp [result, pure, Except.pure, Except.toOption, opened]
  · rfl

/-- Two readers with the same open things do the same with a directive. -/
theorem readDirective_congr (h : r.opened = r'.opened) (directive : List Char) :
    result (r.readDirective directive) = result (r'.readDirective directive) := by
  obtain ⟨hclass, hdraft, hblock⟩ := Opened.mk.inj h
  unfold readDirective
  dsimp only
  split
  · exact beginClass_congr h _
  · exact result_bind_congr fun type => withClass_congr h _
  · exact readField_congr h _
  · exact beginMethod_congr h _
  · exact readRegisters_congr h _
  · exact readRegisters_congr h _
  · exact beginSwitch_congr h _
  -- a block that starts takes the place of the one before
  iterate 4
    · simp [result, Except.toOption, opened, hclass, hdraft]
  · split
    · exact endMethod_congr h
    · simp [result, Except.toOption, opened, hclass, hdraft, hblock]

/-- They do the same with a line of a switch table. -/
theorem readSwitchLine_congr (h : r.opened = r'.opened) (name : String) (table : SwitchTable)
    (line : List Char) :
    result (r.readSwitchLine name table line) = result (r'.readSwitchLine name table line) := by
  obtain ⟨hclass, hdraft, _⟩ := Opened.mk.inj h
  unfold readSwitchLine
  split
  -- the block is closed before the table goes into the code
  · have hclosed : { r with block := .none }.opened = { r' with block := .none }.opened := by
      simp [opened, hclass, hdraft]
    exact withDraft_congr hclosed _
  · split
    · simp [result, Except.toOption, opened, hclass, hdraft]
    · rfl

/-- They do the same with a line of metadata. -/
theorem readMetadataLine_congr (h : r.opened = r'.opened) (depth : Nat) (line : List Char) :
    (r.readMetadataLine depth line).opened = (r'.readMetadataLine depth line).opened := by
  obtain ⟨hclass, hdraft, _⟩ := Opened.mk.inj h
  unfold readMetadataLine
  split
  · simp [opened, hclass, hdraft]
  · split
    · simp [opened, hclass, hdraft]
    · exact h

/-- Two readers with the same open things do the same with a line. -/
theorem accept_congr (h : r.opened = r'.opened) (line : List Char) :
    result (r.accept line) = result (r'.accept line) := by
  obtain ⟨hclass, hdraft, hblock⟩ := Opened.mk.inj h
  unfold accept
  rw [hblock]
  -- the cases are those of the open block, then those of the first character
  split
  · exact readSwitchLine_congr h _ _ line
  · next depth _ => exact congrArg some (readMetadataLine_congr h depth line)
  · split
    · simp [result, Except.toOption, opened, hclass, hdraft]
    · exact congrArg some h
  · split
    · exact readDirective_congr h _
    · exact withDraft_congr h _
    · exact result_bind_congr fun i => withDraft_congr h _

/-- They agree on whether a line starts a class. -/
theorem startsClass_congr (h : r.opened = r'.opened) (line : List Char) :
    r.startsClass line = r'.startsClass line := by
  obtain ⟨_, hdraft, hblock⟩ := Opened.mk.inj h
  unfold startsClass
  rw [hdraft, hblock]

end Reader

/-! ## Lines -/

/-- A line without its comment and without the blanks around it. -/
def bare (line : List Char) : List Char :=
  Text.trim (stripComment line)

namespace Opened

/-- What is open behind a line that is not empty, none if the line is refused. -/
def accept (o : Opened) (line : List Char) : Option Opened :=
  Reader.result ((Reader.ofOpened o).accept line)

/-- Whether the line starts a class where a class may start. -/
def startsClass (o : Opened) (line : List Char) : Bool :=
  (Reader.ofOpened o).startsClass line

/-- The class that a line finishes by starting the next one, and what is then open. -/
def settle (o : Opened) (line : List Char) : List Class × Opened :=
  if o.startsClass line then (o.class?.toList, { o with class? := none }) else ([], o)

/-- What a line of a source does: the class that it finishes, if any, and what is open behind it. -/
def readLine (o : Opened) (line : List Char) : Option (List Class × Opened) :=
  if (bare line).isEmpty then some ([], o)
  else ((o.settle (bare line)).2.accept (bare line)).map fun o' => ((o.settle (bare line)).1, o')

/-- What lines do: the classes that they finish, in order, and what is open behind them. -/
def readLines (o : Opened) : List (List Char) → Option (List Class × Opened)
  | [] => some ([], o)
  | line :: rest =>
    (o.readLine line).bind fun x => (x.2.readLines rest).map fun y => (x.1 ++ y.1, y.2)

/-- The class that is finished by the end of a source, where no method and no block may be open. -/
def finish (o : Opened) : Option (List Class) :=
  if o.draft? = none ∧ o.block = .none then some o.class?.toList else none

/-- The classes that lines define up to the end of a source, in order; none if the lines are refused. -/
def classes? (o : Opened) (lines : List (List Char)) : Option (List Class) :=
  (o.readLines lines).bind fun x => x.2.finish.map (x.1 ++ ·)

/-- Reading lines in two parts. -/
theorem readLines_append (o : Opened) (xs ys : List (List Char)) :
    o.readLines (xs ++ ys) =
      (o.readLines xs).bind fun x => (x.2.readLines ys).map fun y => (x.1 ++ y.1, y.2) := by
  induction xs generalizing o with
  | nil => simp [readLines]
  | cons line rest ih =>
    simp only [List.cons_append, readLines, ih, Option.bind_assoc, Option.bind_map, Option.map_bind]
    -- both sides run through the same three parts, so only the results are joined differently
    refine congrArg _ (funext fun x => congrArg _ (funext fun y => ?_))
    simp [Function.comp_def]

/-- Without lines there is only the end of the source. -/
@[simp] theorem classes?_nil (o : Opened) : o.classes? [] = o.finish := by
  simp [classes?, readLines]

/-- What right lines finish comes first, and the rest goes on from what they leave open. -/
theorem classes?_append {o o' : Opened} {xs : List (List Char)} {cs : List Class}
    (h : o.readLines xs = some (cs, o')) (ys : List (List Char)) :
    o.classes? (xs ++ ys) = (o'.classes? ys).map (cs ++ ·) := by
  rw [classes?, classes?, readLines_append, h, Option.bind_some]
  simp [Option.bind_map, Option.map_bind, Function.comp_def]

/-- What a right line finishes comes first, and the rest goes on from what it leaves open. -/
theorem classes?_cons {o o' : Opened} {line : List Char} {cs : List Class}
    (h : o.readLine line = some (cs, o')) (rest : List (List Char)) :
    o.classes? (line :: rest) = (o'.classes? rest).map (cs ++ ·) := by
  have hsingle : o.readLines [line] = some (cs, o') := by simp [readLines, h]
  exact classes?_append hsingle rest

/-- A refused line leaves no classes. -/
theorem classes?_cons_refused {o : Opened} {line : List Char} (h : o.readLine line = none)
    (rest : List (List Char)) : o.classes? (line :: rest) = none := by
  simp [classes?, readLines, h]

/-! ### Where a class starts -/

variable {o o' : Opened} {line : List Char} {cs : List Class}

/-- A class starts where neither a method nor a block is open. -/
theorem closed_of_startsClass (h : o.startsClass line) : { o with class? := none } = {} := by
  obtain ⟨class?, draft?, block⟩ := o
  unfold startsClass Reader.startsClass at h
  split at h
  · next hblock hdraft =>
    obtain rfl : block = .none := hblock
    obtain rfl : draft? = none := hdraft
    rfl
  · cases h

/-- What can be finished there is the open class. -/
theorem finish_of_startsClass (h : o.startsClass line) : o.finish = some o.class?.toList := by
  obtain ⟨class?, draft?, block⟩ := o
  cases closed_of_startsClass h
  rfl

/-- A line that starts a class settles the open one, and nothing is open then. -/
theorem settle_of_startsClass (h : o.startsClass line) : o.settle line = (o.class?.toList, {}) := by
  rw [settle, if_pos h, closed_of_startsClass h]

/-- An empty line settles nothing. -/
theorem settle_nil (o : Opened) : o.settle [] = ([], o) := by
  obtain ⟨class?, draft?, block⟩ := o
  cases block <;> cases draft? <;> rfl

/-- Where nothing is open there is nothing to settle. -/
theorem settle_empty (line : List Char) : ({} : Opened).settle line = ([], {}) := by
  unfold settle
  split <;> rfl

/-- A line that is right is empty, or it is accepted behind what it settles. -/
theorem readLine_cases (h : o.readLine line = some (cs, o')) :
    (bare line = [] ∧ cs = [] ∧ o' = o) ∨
      (bare line ≠ [] ∧ cs = (o.settle (bare line)).1 ∧
        (o.settle (bare line)).2.accept (bare line) = some o') := by
  unfold readLine at h
  split at h
  · next hempty =>
    obtain ⟨rfl, rfl⟩ := Prod.mk.inj (Option.some.inj h)
    exact .inl ⟨List.isEmpty_iff.1 hempty, rfl, rfl⟩
  · next hfull =>
    obtain ⟨o'', ho'', heq⟩ := Option.map_eq_some_iff.1 h
    obtain ⟨rfl, rfl⟩ := Prod.mk.inj heq
    exact .inr ⟨fun hempty => hfull (List.isEmpty_iff.2 hempty), rfl, ho''⟩

/-- What a line finishes is the class that it settles. -/
theorem finished_of_readLine (h : o.readLine line = some (cs, o')) :
    cs = (o.settle (bare line)).1 := by
  obtain ⟨hempty, hcs, _⟩ | ⟨_, hcs, _⟩ := readLine_cases h
  · rw [hcs, hempty, settle_nil]
  · exact hcs

/-- A line that starts a class finishes the one before, and does otherwise what it does at the start of a
source. -/
theorem readLine_of_startsClass (h : o.startsClass (bare line)) :
    o.readLine line = (({} : Opened).readLine line).map fun x => (o.class?.toList ++ x.1, x.2) := by
  -- an empty line starts no class
  have hfull : ¬ (bare line).isEmpty := by
    intro hempty
    rw [List.isEmpty_iff.1 hempty] at h
    obtain ⟨class?, draft?, block⟩ := o
    cases block <;> cases draft? <;> cases h
  unfold readLine
  rw [if_neg hfull, if_neg hfull, settle_of_startsClass h, settle_empty, Option.map_map]
  simp [Function.comp_def]

/-- A right line that starts a class finishes just the open one, and is right at the start of a source. -/
theorem readLine_start (h : o.readLine line = some (cs, o')) (hstart : o.startsClass (bare line)) :
    cs = o.class?.toList ∧ ({} : Opened).readLine line = some ([], o') := by
  rw [readLine_of_startsClass hstart] at h
  obtain ⟨⟨cs₀, o₀⟩, hempty, heq⟩ := Option.map_eq_some_iff.1 h
  obtain ⟨rfl, rfl⟩ := Prod.mk.inj heq
  obtain rfl : cs₀ = [] := by rw [finished_of_readLine hempty, settle_empty]
  exact ⟨List.append_nil _, hempty⟩

/-- Lines that start with a class define, behind the open class, what they define on their own. -/
theorem classes?_of_startsClass (h : o.startsClass (bare line)) (rest : List (List Char)) :
    o.classes? (line :: rest) = (({} : Opened).classes? (line :: rest)).map (o.class?.toList ++ ·) := by
  have hline := readLine_of_startsClass h
  -- the first line is right at the start of a source or it is wrong in both places
  cases hempty : ({} : Opened).readLine line with
  | none =>
    rw [hempty] at hline
    rw [classes?_cons_refused hline, classes?_cons_refused hempty, Option.map_none]
  | some x =>
    rw [hempty] at hline
    rw [classes?_cons hline, classes?_cons hempty]
    simp [Function.comp_def]

end Opened

/-- Puts classes into the table, one after the other. -/
def ClassTable.addAll (t : ClassTable) (cs : List Class) : ClassTable :=
  cs.foldl (fun t c => t.insert c.name c) t

namespace ClassTable

/-- Putting classes into the table in two parts. -/
theorem addAll_append (t : ClassTable) (cs cs' : List Class) :
    t.addAll (cs ++ cs') = addAll (t.addAll cs) cs' :=
  List.foldl_append

/-- The class that goes into the table last. -/
theorem addAll_concat (t : ClassTable) (cs : List Class) (c : Class) :
    t.addAll (cs ++ [c]) = (t.addAll cs).insert c.name c :=
  addAll_append t cs [c]

/-- Of the classes with a name, the last one stays. -/
theorem get?_addAll (t : ClassTable) (cs : List Class) (name : String) :
    (t.addAll cs).get? name = (cs.filter (·.name == name)).getLast?.or (t.get? name) := by
  -- the induction takes the class that goes in last, which decides over its name
  induction cs using List.reverseRecOn with
  | nil => rfl
  | append_singleton cs c ih =>
    rw [addAll_concat, Table.get?_insert, ih, List.filter_append]
    by_cases hname : name = c.name
    · simp [hname]
    · simp [hname, Ne.symm hname]

/-- Other names are not touched. -/
theorem get?_addAll_of_not_mem {cs : List Class} {name : String} (t : ClassTable)
    (h : name ∉ cs.map (·.name)) : (t.addAll cs).get? name = t.get? name := by
  have hnone : cs.filter (·.name == name) = [] := by
    rw [List.filter_eq_nil_iff]
    intro c hc hname
    exact h (List.mem_map.2 ⟨c, hc, beq_iff_eq.1 hname⟩)
  rw [get?_addAll, hnone, List.getLast?_nil, Option.none_or]

/-- The names in the table are those from before and those of the classes. -/
theorem mem_keys_addAll {t : ClassTable} {cs : List Class} {name : String} :
    name ∈ (t.addAll cs).keys ↔ name ∈ t.keys ∨ name ∈ cs.map (·.name) := by
  induction cs using List.reverseRecOn with
  | nil => simp [addAll]
  | append_singleton cs c ih =>
    rw [addAll_concat, Table.mem_keys_insert, ih]
    simp [or_assoc]

/-- Classes that are there keep their places. -/
theorem keys_isPrefix_addAll (t : ClassTable) (cs : List Class) : t.keys <+: (t.addAll cs).keys := by
  induction cs using List.reverseRecOn with
  | nil => exact List.prefix_rfl
  | append_singleton cs c ih =>
    rw [addAll_concat, Table.keys_insert]
    -- a known name keeps its place, a new one goes to the end
    split
    · exact ih
    · exact ih.trans (List.prefix_append _ _)

end ClassTable

namespace Reader

variable {r : Reader} {line : List Char}

/-- What is open for a reader made of open things. -/
@[simp] theorem opened_ofOpened (o : Opened) : (ofOpened o).opened = o := rfl

/-- What a line does to a reader is what it does to the open things. -/
theorem accept_opened (r : Reader) (line : List Char) :
    result (r.accept line) = r.opened.accept line :=
  accept_congr (opened_ofOpened r.opened).symm line

/-- Whether a line starts a class is seen from the open things. -/
theorem startsClass_opened (r : Reader) (line : List Char) :
    r.startsClass line = r.opened.startsClass line :=
  startsClass_congr (opened_ofOpened r.opened).symm line

/-- Committing closes the class. -/
theorem opened_commit (r : Reader) : r.commit.opened = { r.opened with class? := none } := by
  unfold commit
  split
  · rfl
  · next hclass => simp [opened, hclass]

/-- Committing puts the open class into the table. -/
theorem classes_commit (r : Reader) : r.commit.classes = r.classes.addAll r.class?.toList := by
  unfold commit
  split
  · next c hclass => simp [hclass, ClassTable.add, ClassTable.addAll]
  · next hclass => simp [hclass, ClassTable.addAll]

/-- An accepted line leaves the table alone. -/
theorem accept_eq {o : Opened} (h : r.opened.accept line = some o) :
    ∃ r', r.accept line = .ok r' ∧ r'.opened = o ∧ r'.classes = r.classes := by
  rw [← accept_opened] at h
  obtain ⟨r', hr', ho⟩ := Option.map_eq_some_iff.1 h
  -- the reader accepts, since the open things do
  cases haccept : r.accept line with
  | error e =>
    rw [haccept] at hr'
    cases hr'
  | ok r'' =>
    rw [haccept] at hr'
    obtain rfl : r'' = r' := Option.some.inj hr'
    exact ⟨r'', rfl, ho, (accept_edit haccept).1⟩

/-- A line that the open things refuse is refused with some error. -/
theorem accept_refused (h : r.opened.accept line = none) : ∃ e, r.accept line = .error e := by
  rw [← accept_opened] at h
  cases haccept : r.accept line with
  | error e => exact ⟨e, rfl⟩
  | ok r' =>
    rw [haccept] at h
    cases h

/-- What is open once a line has settled. -/
theorem opened_settle (r : Reader) (line : List Char) :
    (r.settle line).opened = (r.opened.settle line).2 := by
  unfold settle Opened.settle
  rw [startsClass_opened]
  split
  · exact opened_commit r
  · rfl

/-- What the table holds once a line has settled. -/
theorem classes_settle (r : Reader) (line : List Char) :
    (r.settle line).classes = r.classes.addAll (r.opened.settle line).1 := by
  unfold settle Opened.settle
  rw [startsClass_opened]
  split
  · exact classes_commit r
  · rfl

/-- The reader when the next line is to be accepted: the line is counted, and if it starts a class, the one
before is put into the table. -/
def reach (r : Reader) (line : List Char) : Reader :=
  { r with line := r.line + 1 }.settle (bare line)

/-- What is open when the line is to be accepted. -/
theorem opened_reach (r : Reader) (line : List Char) :
    (r.reach line).opened = (r.opened.settle (bare line)).2 :=
  opened_settle { r with line := r.line + 1 } (bare line)

/-- What the table holds when the line is to be accepted. -/
theorem classes_reach (r : Reader) (line : List Char) :
    (r.reach line).classes = r.classes.addAll (r.opened.settle (bare line)).1 :=
  classes_settle { r with line := r.line + 1 } (bare line)

/-- An empty line is counted and does nothing else. -/
theorem readLine_of_empty (h : (bare line).isEmpty) :
    r.readLine line = ({ r with line := r.line + 1 }, none) :=
  if_pos h

/-- A line that is accepted where it is reached. -/
theorem readLine_of_accept {r' : Reader} (h : ¬ (bare line).isEmpty)
    (haccept : (r.reach line).accept (bare line) = .ok r') : r.readLine line = (r', none) := by
  unfold reach at haccept
  unfold bare at h haccept
  simp only [readLine, if_neg h, haccept]

/-- A line that is refused where it is reached leaves what it has settled. -/
theorem readLine_of_refuse {e : ReadError} (h : ¬ (bare line).isEmpty)
    (haccept : (r.reach line).accept (bare line) = .error e) :
    r.readLine line = (r.reach line, some e) := by
  unfold reach at haccept ⊢
  unfold bare at h haccept ⊢
  simp only [readLine, if_neg h, haccept]

/-- A line that is right does what it does to the open things, and what it finishes goes into the table. -/
theorem readLine_eq {cs : List Class} {o : Opened} (h : r.opened.readLine line = some (cs, o)) :
    ∃ r', r.readLine line = (r', none) ∧ r'.opened = o ∧ r'.classes = r.classes.addAll cs := by
  unfold Opened.readLine at h
  split at h
  · next hempty =>
    obtain ⟨rfl, rfl⟩ := Prod.mk.inj (Option.some.inj h)
    exact ⟨_, readLine_of_empty hempty, rfl, rfl⟩
  · next hfull =>
    obtain ⟨o', ho', heq⟩ := Option.map_eq_some_iff.1 h
    obtain ⟨rfl, rfl⟩ := Prod.mk.inj heq
    -- what the line settles is open for the reader that accepts it
    rw [← opened_reach] at ho'
    obtain ⟨r', hr', hopened, hclasses⟩ := accept_eq ho'
    exact ⟨r', readLine_of_accept hfull hr', hopened, hclasses.trans (classes_reach r line)⟩

/-- A line that is wrong leaves what it has settled, and an error. -/
theorem readLine_refused (h : r.opened.readLine line = none) :
    ∃ e, r.readLine line = (r.reach line, some e) := by
  unfold Opened.readLine at h
  split at h
  · cases h
  · next hfull =>
    rw [Option.map_eq_none_iff, ← opened_reach] at h
    obtain ⟨e, he⟩ := accept_refused h
    exact ⟨e, readLine_of_refuse hfull he⟩

/-- Lines that are right do what they do to the open things, and what they finish goes into the table. -/
theorem readLines_eq {lines : List (List Char)} {cs : List Class} {o : Opened}
    (h : r.opened.readLines lines = some (cs, o)) :
    ∃ r', r.readLines lines = (r', none) ∧ r'.opened = o ∧ r'.classes = r.classes.addAll cs := by
  -- the induction is on the lines; the classes of the first and of the rest are put in one after the other
  induction lines generalizing r cs with
  | nil =>
    obtain ⟨rfl, rfl⟩ := Prod.mk.inj (Option.some.inj h)
    exact ⟨r, rfl, rfl, rfl⟩
  | cons line rest ih =>
    obtain ⟨⟨cs₁, o₁⟩, hline, h⟩ := Option.bind_eq_some_iff.1 h
    obtain ⟨⟨cs₂, o₂⟩, hrest, heq⟩ := Option.map_eq_some_iff.1 h
    obtain ⟨rfl, rfl⟩ := Prod.mk.inj heq
    obtain ⟨r₁, hr₁, rfl, hclasses₁⟩ := readLine_eq hline
    obtain ⟨r₂, hr₂, hopened, hclasses₂⟩ := ih hrest
    refine ⟨r₂, ?_, hopened, ?_⟩
    · rw [readLines, hr₁]
      exact hr₂
    · rw [hclasses₂, hclasses₁, ← ClassTable.addAll_append]

/-- Lines that are wrong are refused. -/
theorem readLines_refused {lines : List (List Char)} (h : r.opened.readLines lines = none) :
    ∃ r' e, r.readLines lines = (r', some e) := by
  induction lines generalizing r with
  | nil => cases h
  | cons line rest ih =>
    rw [readLines]
    -- the first line is wrong, or the lines behind it are
    cases hline : r.opened.readLine line with
    | none =>
      obtain ⟨e, he⟩ := readLine_refused hline
      rw [he]
      exact ⟨_, e, rfl⟩
    | some x =>
      obtain ⟨r₁, hr₁, hopened, _⟩ := readLine_eq hline
      rw [Opened.readLines, hline, Option.bind_some, Option.map_eq_none_iff, ← hopened] at h
      rw [hr₁]
      exact ih h

/-! ## Whole sources -/

/-- Reads lines up to the end of a source. -/
def readAll (r : Reader) (lines : List (List Char)) : Reader × Option ReadError :=
  match r.readLines lines with
  | (r, none) => r.finish
  | (r, some e) => (r, some e)

/-- The end of a source where nothing but a class is open puts the class into the table. -/
theorem finish_eq {cs : List Class} (h : r.opened.finish = some cs) :
    r.finish.2 = none ∧ r.finish.1.classes = r.classes.addAll cs := by
  unfold Opened.finish at h
  split at h
  · next hclosed =>
    obtain ⟨hdraft, hblock⟩ := hclosed
    obtain rfl := Option.some.inj h
    have hdraft : r.draft? = none := hdraft
    have hblock : r.block = .none := hblock
    have hfinish : r.finish = (r.commit, none) := by simp [finish, hdraft, hblock]
    rw [hfinish]
    exact ⟨rfl, classes_commit r⟩
  · cases h

/-- Where a method or a block is open, the end of a source is refused. -/
theorem finish_refused (h : r.opened.finish = none) : ∃ e, r.finish = (r, some e) := by
  unfold finish
  split
  · exact ⟨_, rfl⟩
  · next hdraft =>
    split
    · exact ⟨_, rfl⟩
    · next hblock =>
      -- neither is open, so the end would have been accepted
      have hdraft : r.draft? = none := by simpa using hdraft
      have hblock : r.block = .none := by simpa using hblock
      simp [Opened.finish, opened, hdraft, hblock] at h

/-- A source that is right puts the classes that its lines define into the table, in order. -/
theorem readAll_eq {lines : List (List Char)} {cs : List Class}
    (h : r.opened.classes? lines = some cs) :
    (r.readAll lines).2 = none ∧ (r.readAll lines).1.classes = r.classes.addAll cs := by
  obtain ⟨⟨cs₁, o⟩, hlines, h⟩ := Option.bind_eq_some_iff.1 h
  obtain ⟨cs₂, hfinish, rfl⟩ := Option.map_eq_some_iff.1 h
  obtain ⟨r₁, hr₁, rfl, hclasses₁⟩ := readLines_eq hlines
  obtain ⟨hnone, hclasses₂⟩ := finish_eq hfinish
  rw [readAll, hr₁]
  exact ⟨hnone, by rw [hclasses₂, hclasses₁, ← ClassTable.addAll_append]⟩

/-- A source whose lines are wrong is refused. -/
theorem readAll_refused {lines : List (List Char)} (h : r.opened.classes? lines = none) :
    ∃ e, (r.readAll lines).2 = some e := by
  unfold readAll
  -- a line is wrong, or all are right and the end is refused
  cases hlines : r.opened.readLines lines with
  | none =>
    obtain ⟨r', e, hr'⟩ := readLines_refused hlines
    rw [hr']
    exact ⟨e, rfl⟩
  | some x =>
    obtain ⟨r', hr', hopened, _⟩ := readLines_eq hlines
    rw [Opened.classes?, hlines, Option.bind_some, Option.map_eq_none_iff, ← hopened] at h
    obtain ⟨e, he⟩ := finish_refused h
    rw [hr']
    exact ⟨e, congrArg Prod.snd he⟩

end Reader

/-- The classes that a source defines, in order; none if it is refused. -/
def sourceClasses? (source : String) : Option (List Class) :=
  ({} : Opened).classes? (Text.lines source.toList)

/-- The classes that a source defines, in order, if it is right. -/
def sourceClasses (source : String) : List Class :=
  (sourceClasses? source).getD []

namespace ClassTable

variable {source : String}

/-- Reading a source is reading all of its lines. -/
theorem readSource_eq_readAll (t : ClassTable) (journal : Journal) (source : String) :
    t.readSource journal source =
      ⟨(({ classes := t, journal } : Reader).readAll (Text.lines source.toList)).1.classes,
        (({ classes := t, journal } : Reader).readAll (Text.lines source.toList)).1.journal,
        (({ classes := t, journal } : Reader).readAll (Text.lines source.toList)).2⟩ :=
  rfl

/-- A source is accepted or not whatever the table, and what it then adds are the classes it defines. -/
theorem readSource_eq {cs : List Class} (h : sourceClasses? source = some cs) (t : ClassTable)
    (journal : Journal) :
    (t.readSource journal source).error? = none ∧
      (t.readSource journal source).classes = t.addAll cs := by
  have hopened : ({ classes := t, journal } : Reader).opened.classes? (Text.lines source.toList) =
      some cs := h
  rw [readSource_eq_readAll]
  exact Reader.readAll_eq hopened

/-- A source that is wrong is refused, whatever the table. -/
theorem readSource_refused (h : sourceClasses? source = none) (t : ClassTable) (journal : Journal) :
    ∃ e, (t.readSource journal source).error? = some e := by
  have hopened : ({ classes := t, journal } : Reader).opened.classes? (Text.lines source.toList) =
      none := h
  rw [readSource_eq_readAll]
  exact Reader.readAll_refused hopened

/-- A source is accepted exactly if it defines classes at all, be it none. -/
theorem readSource_accepted_iff {t : ClassTable} {journal : Journal} :
    (t.readSource journal source).error? = none ↔ ∃ cs, sourceClasses? source = some cs := by
  cases h : sourceClasses? source with
  | none =>
    obtain ⟨e, he⟩ := readSource_refused h t journal
    simp [he]
  | some cs => simp [(readSource_eq h t journal).1]

end ClassTable

end Smali
