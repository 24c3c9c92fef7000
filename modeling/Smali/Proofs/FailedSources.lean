import Smali.Proofs.SourceText

/-!
# Sources that fail

A class goes into the table when the next one starts or at the end of its source, never before. So a
source that fails somewhere has put the classes into the table that it has finished, and no more: it
leaves the table that its lines in front of the last class leave, and what follows, up to the line that is
refused, would leave any table as it is.

## Key results

- `Opened.stop_cut`: the lines up to the last class that was started are right by themselves
- `ClassTable.readSource_failed`: what a source that fails leaves behind
-/

namespace Smali

/-! ## Where reading stops -/

namespace Opened

/-- Where reading stops, at the line that is refused or at the end: the classes that are finished up to
there, and what is open there. -/
def stop (o : Opened) : List (List Char) → List Class × Opened
  | [] => ([], o)
  | line :: rest =>
    match o.readLine line with
    | some x => (x.1 ++ (x.2.stop rest).1, (x.2.stop rest).2)
    | none => o.settle (bare line)

variable {o o' : Opened} {line : List Char} {cs : List Class}

theorem stop_cons (h : o.readLine line = some (cs, o')) (rest : List (List Char)) :
    o.stop (line :: rest) = (cs ++ (o'.stop rest).1, (o'.stop rest).2) := by
  rw [stop, h]

theorem stop_cons_refused (h : o.readLine line = none) (rest : List (List Char)) :
    o.stop (line :: rest) = o.settle (bare line) := by
  rw [stop, h]

/-- Where a class starts, the one before is finished, and the rest is read as from the start of a source. -/
theorem stop_of_startsClass (h : o.startsClass (bare line)) (rest : List (List Char)) :
    o.stop (line :: rest) =
      (o.class?.toList ++ (({} : Opened).stop (line :: rest)).1, (({} : Opened).stop (line :: rest)).2) := by
  have hline := readLine_of_startsClass h
  cases hempty : ({} : Opened).readLine line with
  | none =>
    rw [hempty] at hline
    rw [stop_cons_refused hline, stop_cons_refused hempty, settle_of_startsClass h, settle_empty,
      List.append_nil]
  | some x =>
    rw [hempty] at hline
    rw [stop_cons hline, stop_cons hempty, List.append_assoc]

/-- The lines `before` are right by themselves and define what `lines` finish before reading stops, and
the lines `after` finish nothing before it stops there. -/
def CutAt (o : Opened) (lines before after : List (List Char)) : Prop :=
  lines = before ++ after ∧ o.classes? before = some (o.stop lines).1 ∧
    ({} : Opened).stop after = ([], (o.stop lines).2) ∧
    o.classes? lines = (({} : Opened).classes? after).map ((o.stop lines).1 ++ ·)

/-- Lines that start a class and none after it can be cut right here. -/
theorem cutAt_start {rest : List (List Char)} (h : o.startsClass (bare line))
    (hlast : (({} : Opened).stop (line :: rest)).1 = []) : o.CutAt (line :: rest) [] (line :: rest) := by
  have hstop := stop_of_startsClass h rest
  rw [hlast, List.append_nil] at hstop
  refine ⟨rfl, ?_, ?_, ?_⟩
  · rw [classes?_nil, finish_of_startsClass h, hstop]
  · rw [hstop, ← hlast]
  · rw [hstop, classes?_of_startsClass h]

/-- A cut further down is a cut of the longer lines. -/
theorem CutAt.cons {rest before after : List (List Char)} (h : o.readLine line = some (cs, o'))
    (hcut : o'.CutAt rest before after) : o.CutAt (line :: rest) (line :: before) after := by
  obtain ⟨rfl, hbefore, hafter, hall⟩ := hcut
  refine ⟨rfl, ?_, ?_, ?_⟩
  · rw [classes?_cons h, stop_cons h, hbefore, Option.map_some]
  · rw [stop_cons h, hafter]
  · rw [classes?_cons h, stop_cons h, hall, Option.map_map]
    simp [Function.comp_def]

/-- Lines that finish a class before reading stops can be cut in front of the last class that they
start. -/
theorem stop_cut (o : Opened) (lines : List (List Char)) :
    (o.stop lines).1 = [] ∨ ∃ before after, o.CutAt lines before after := by
  -- the induction is on the lines; a cut in the rest is preferred, as it is behind a later class
  induction lines generalizing o with
  | nil => exact .inl rfl
  | cons line rest ih =>
    by_cases hstart : o.startsClass (bare line)
    · refine .inr ?_
      cases hempty : ({} : Opened).readLine line with
      | none => exact ⟨_, _, cutAt_start hstart (by rw [stop_cons_refused hempty, settle_empty])⟩
      | some x =>
        obtain ⟨cs, o'⟩ := x
        obtain rfl : cs = [] := by simpa [settle_empty] using finished_of_readLine hempty
        obtain hrest | ⟨before, after, hcut⟩ := ih o'
        · exact ⟨_, _, cutAt_start hstart (by rw [stop_cons hempty, hrest]; rfl)⟩
        · have hline := readLine_of_startsClass hstart
          rw [hempty] at hline
          exact ⟨_, _, hcut.cons hline⟩
    -- the line starts no class, so it finishes none
    · have hsettle : o.settle (bare line) = ([], o) := if_neg hstart
      cases hline : o.readLine line with
      | none => exact .inl (by rw [stop_cons_refused hline, hsettle])
      | some x =>
        obtain ⟨cs, o'⟩ := x
        obtain rfl : cs = [] := by simpa [hsettle] using finished_of_readLine hline
        obtain hrest | ⟨before, after, hcut⟩ := ih o'
        · exact .inl (by rw [stop_cons hline, hrest]; rfl)
        · exact .inr ⟨_, _, hcut.cons hline⟩

/-- From the start of a source there is always a cut. -/
theorem exists_cutAt (lines : List (List Char)) :
    ∃ before after, ({} : Opened).CutAt lines before after := by
  obtain hnone | hcut := stop_cut {} lines
  · refine ⟨[], lines, rfl, ?_, ?_, ?_⟩
    · rw [classes?_nil, hnone]
      rfl
    · rw [← hnone]
    · simp [hnone]
  · exact hcut

end Opened

/-! ## What the reader leaves -/

namespace Reader

/-- Where reading stops, the table has what was finished, and the rest is open. -/
theorem readLines_stop (r : Reader) (lines : List (List Char)) :
    (r.readLines lines).1.classes = r.classes.addAll (r.opened.stop lines).1 ∧
      (r.readLines lines).1.opened = (r.opened.stop lines).2 := by
  -- the induction is on the lines
  induction lines generalizing r with
  | nil => exact ⟨rfl, rfl⟩
  | cons line rest ih =>
    rw [readLines]
    cases hline : r.opened.readLine line with
    | none =>
      obtain ⟨e, he⟩ := readLine_refused hline
      rw [he, Opened.stop_cons_refused hline]
      exact ⟨classes_reach r line, opened_reach r line⟩
    | some x =>
      obtain ⟨r', hr', hopened, hclasses⟩ := readLine_eq hline
      obtain ⟨hclasses', hopened'⟩ := ih r'
      rw [hr', Opened.stop_cons hline]
      rw [hclasses, hopened, ← ClassTable.addAll_append] at hclasses'
      exact ⟨hclasses', hopened ▸ hopened'⟩

/-- The end of a source where something is open leaves the table as the last line has left it. -/
theorem readAll_stop {r : Reader} {lines : List (List Char)} (h : r.opened.classes? lines = none) :
    (r.readAll lines).1.classes = r.classes.addAll (r.opened.stop lines).1 := by
  rw [← (readLines_stop r lines).1]
  unfold readAll
  cases hlines : r.opened.readLines lines with
  | none =>
    obtain ⟨r', e, hr'⟩ := readLines_refused hlines
    rw [hr']
  | some x =>
    obtain ⟨r', hr', hopened, _⟩ := readLines_eq hlines
    rw [Opened.classes?, hlines, Option.bind_some, Option.map_eq_none_iff, ← hopened] at h
    obtain ⟨e, he⟩ := finish_refused h
    rw [hr']
    exact congrArg (·.1.classes) he

end Reader

namespace ClassTable

/-- A source that fails adds the classes that are finished where reading stops. -/
theorem readSource_stop {source : String} (h : sourceClasses? source = none) (t : ClassTable)
    (journal : Journal) :
    (t.readSource journal source).classes =
      t.addAll (({} : Opened).stop (Text.lines source.toList)).1 := by
  have hopened : ({ classes := t, journal } : Reader).opened.classes? (Text.lines source.toList) =
      none := h
  rw [readSource_eq_readAll]
  exact Reader.readAll_stop hopened

/-- The class that is open where the reading of a source stops. -/
def openClass? (t : ClassTable) (journal : Journal) (source : String) : Option Class :=
  (({ classes := t, journal } : Reader).readLines (Text.lines source.toList)).1.class?

theorem openClass?_eq (t : ClassTable) (journal : Journal) (source : String) :
    t.openClass? journal source = (({} : Opened).stop (Text.lines source.toList)).2.class? :=
  congrArg Opened.class? (Reader.readLines_stop { classes := t, journal } _).2

/-- A cut of the lines is a cut of the source. -/
theorem exists_cutAt_source (source : String) :
    ∃ before after : String, source = before ++ after ∧
      ({} : Opened).CutAt (Text.lines source.toList) (Text.lines before.toList)
        (Text.lines after.toList) := by
  obtain ⟨xs, ys, hcut⟩ := Opened.exists_cutAt (Text.lines source.toList)
  obtain ⟨before, after, hsource, hbefore, hafter⟩ :=
    Text.exists_cut_lines source.toList xs.length
  refine ⟨String.ofList before, String.ofList after, ?_, ?_⟩
  · rw [← String.ofList_append, ← hsource, String.ofList_toList]
  -- the parts of the text have the lines of the parts
  · rw [hcut.1, List.take_left] at hbefore
    rw [hcut.1, List.drop_left] at hafter
    rw [String.toList_ofList, String.toList_ofList, hbefore, hafter]
    exact hcut

/-- A source that fails leaves the table that one part of it, up to the end of some line, leaves when it is
read by itself. The other part, where the failing line is and the class that was open there, would leave
any table as it is. So no part of that class is in the table, and the classes of the table that the
first part does not define are what they were and where they were. -/
theorem readSource_failed {t : ClassTable} {journal : Journal} {source : String} {e : ReadError}
    (h : (t.readSource journal source).error? = some e) :
    ∃ before after : String,
      source = before ++ after ∧
      Text.lines source.toList = Text.lines before.toList ++ Text.lines after.toList ∧
      (t.readSource journal before).error? = none ∧
      (t.readSource journal before).classes = (t.readSource journal source).classes ∧
      (∀ name, name ∉ (readSource {} journal before).classes.keys →
        (t.readSource journal source).classes.get? name = t.get? name) ∧
      t.keys <+: (t.readSource journal source).classes.keys ∧
      ∀ (t' : ClassTable) (journal' : Journal),
        (∃ e', (t'.readSource journal' after).error? = some e') ∧
        (t'.readSource journal' after).classes = t' ∧
        t'.openClass? journal' after = t.openClass? journal source := by
  obtain ⟨before, after, hsource, hlines, hbefore, hafter, hall⟩ := exists_cutAt_source source
  -- a source that defines its classes would not fail
  have hfail : sourceClasses? source = none := by
    cases hclasses : sourceClasses? source with
    | none => rfl
    | some cs =>
      rw [(readSource_eq hclasses t journal).1] at h
      cases h
  have hfail' : sourceClasses? after = none := by
    have hmap := hall.symm.trans hfail
    exact Option.map_eq_none_iff.1 hmap
  obtain ⟨hok, hclasses⟩ := readSource_eq hbefore t journal
  -- the table has what was finished, which the first part defines
  have hstop := readSource_stop hfail t journal
  refine ⟨before, after, hsource, hlines, hok, hclasses.trans hstop.symm, ?_, ?_, ?_⟩
  · intro name hname
    rw [(readSource_eq hbefore {} journal).2, mem_keys_addAll] at hname
    rw [hstop]
    exact get?_addAll_of_not_mem t fun hmem => hname (.inr hmem)
  · rw [hstop]
    exact keys_isPrefix_addAll t _
  · intro t' journal'
    refine ⟨readSource_refused hfail' t' journal', ?_, ?_⟩
    · rw [readSource_stop hfail', hafter]
      rfl
    · rw [openClass?_eq, openClass?_eq, hafter]

end ClassTable

/-- A table with one class. -/
def oneClass : ClassTable := (ClassTable.readSource {} {} ".class LC;\n.field x:I").classes

/-- A class, one that takes its place, and one that breaks off in the middle of a method. -/
def brokenOff : String :=
  ".class LA;\n.field x:I\n.class LA;\n.field y:I\n.class LB;\n.super LA;\n.method f()V\n.registers x\n"

/-- The class that breaks off is not in the table, and the one that was there before is what it was. -/
theorem brokenOff_failed :
    (oneClass.readSource {} brokenOff).error?.isSome = true ∧
      (oneClass.openClass? {} brokenOff).map (·.name) = some "LB;" ∧
      (oneClass.readSource {} brokenOff).classes.values.map (fun c => (c.name, c.fields.keys)) =
        [("LC;", ["x"]), ("LA;", ["y"])] ∧
      ∃ before after : String, brokenOff = before ++ after ∧
        (oneClass.readSource {} before).error? = none ∧
        (oneClass.readSource {} before).classes = (oneClass.readSource {} brokenOff).classes ∧
        (oneClass.readSource {} after).classes = oneClass ∧
        (oneClass.openClass? {} after).map (·.name) = some "LB;" := by
  have hopen : (oneClass.openClass? {} brokenOff).map (·.name) = some "LB;" := by decide +kernel
  have hclasses : (oneClass.readSource {} brokenOff).classes.values.map
      (fun c => (c.name, c.fields.keys)) = [("LC;", ["x"]), ("LA;", ["y"])] := by decide +kernel
  have herror : (oneClass.readSource {} brokenOff).error?.isSome = true := by decide +kernel
  obtain ⟨e, he⟩ := Option.isSome_iff_exists.1 herror
  obtain ⟨before, after, hsource, -, hok, hsame, -, -, hafter⟩ := ClassTable.readSource_failed he
  obtain ⟨-, hunchanged, hstill⟩ := hafter oneClass {}
  refine ⟨herror, hopen, hclasses, before, after, hsource, hok, hsame, hunchanged, ?_⟩
  rw [hstill, hopen]

end Smali
