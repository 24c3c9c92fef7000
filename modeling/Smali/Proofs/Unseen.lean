import Smali.Proofs.Definitions

/-!
# Lines that are not seen

Some lines leave class and method as they are, whatever is open: blank lines, comments, directives that say
nothing about a class or a method, and all lines that a block of metadata or of data hides. Lines of which
each is one of these, and behind which nothing is hidden any more, can stand wherever no block is open. No
other lines can: read by themselves they are refused, or they define a class.

## Key results

- `Opened.readLines_unseen`: lines that are not seen leave everything as it is
- `Opened.unseen_of_readLines`: lines that do so where nothing is open are not seen
- `invisible_iff`: lines can be put into sources wherever no block is open if and only if they are not seen
-/

namespace Smali

/-- Whether the directive says something about a class or a method. -/
def isDeclaration (directive : List Char) : Bool :=
  ["class", "super", "field", "method", "registers", "locals", "packed-switch"].contains
      (String.ofList (splitMnemonic directive).1) ||
    (String.ofList (splitMnemonic directive).1 == "end" && (splitMnemonic directive).2 = "method".toList)

/-- Whether the line is a directive that says nothing about a class or a method. -/
def isIdle : List Char → Bool
  | '.' :: directive => !isDeclaration directive
  | _ => false

namespace Cover

/-- The block that hides lines. -/
def block : Cover → Block
  | .none => .none
  | .metadata depth => .metadata depth
  | .data closing => .skipped closing

/-- Whether the line, which is not empty, leaves class and method as they are: it is hidden or idle. -/
def passes (cover : Cover) (line : List Char) : Bool :=
  cover ≠ .none || isIdle line

/-- Whether lines leave class and method as they are, and nothing is hidden behind them. -/
def unseen (cover : Cover) : List (List Char) → Bool
  | [] => cover = .none
  | line :: rest => ((bare line).isEmpty || cover.passes (bare line)) && (cover.behind line).unseen rest

/-- Behind lines that are not seen nothing is hidden. -/
theorem unseen_append {cover : Cover} {xs : List (List Char)} (h : cover.unseen xs)
    (ys : List (List Char)) : cover.unseen (xs ++ ys) = Cover.none.unseen ys := by
  -- the induction is on the lines, with what covers them
  induction xs generalizing cover with
  | nil =>
    obtain rfl : cover = .none := of_decide_eq_true h
    rfl
  | cons line rest ih =>
    obtain ⟨hline, hrest⟩ := Bool.and_eq_true_iff.1 h
    rw [List.cons_append, unseen, hline, Bool.true_and, ih hrest]

end Cover

/-! ## Reading lines that are not seen -/

namespace Reader

variable {r r' : Reader} {line directive : List Char}

/-- An idle directive changes nothing but what hides the lines behind it. -/
theorem readDirective_idle (h : isDeclaration directive = false) (hblock : r.block = .none) :
    ∃ journal, r.readDirective directive = .ok { r with
      block := (Cover.ofDirective (some (String.ofList (splitMnemonic directive).1))).block, journal } := by
  unfold isDeclaration at h
  unfold readDirective
  dsimp only
  split
  -- the directives that say something
  iterate 7
    · next hname =>
      rw [hname] at h
      cases h
  -- those that hide the lines behind them
  iterate 4
    · next hname =>
      rw [hname]
      exact ⟨r.journal, rfl⟩
  · next hmetadata hnested hsparse harray =>
    rw [Cover.ofDirective_other hmetadata hnested hsparse harray, Cover.block, ← hblock, if_neg]
    · exact ⟨_, rfl⟩
    · intro hend
      rw [hend, Bool.or_true] at h
      cases h

/-- Outside of classes no directive is right that says something about a class or a method, apart from one
that starts a class. -/
theorem not_isDeclaration_of_readDirective (hclass : r.class? = none) (hdraft : r.draft? = none)
    (hname : (splitMnemonic directive).1 ≠ "class".toList) (h : r.readDirective directive = .ok r') :
    isDeclaration directive = false := by
  unfold readDirective at h
  unfold isDeclaration
  dsimp only at h
  -- one case for each directive; those of a class or a method need one that is open
  split at h
  · next hclassLine =>
    exact absurd (String.toList_ofList.symm.trans (congrArg String.toList hclassLine)) hname
  · obtain ⟨_, _, h⟩ := Machine.bind_eq_ok.1 h
    exact absurd h (not_withClass hclass _)
  · exact absurd h (not_readField hclass _)
  · exact absurd h (not_beginMethod hclass _)
  · exact absurd h (not_readRegisters hclass _)
  · exact absurd h (not_readRegisters hclass _)
  · exact absurd h (not_beginSwitch hclass _)
  iterate 4
    · next hname =>
      rw [hname]
      rfl
  · next hclassName hsuper hfield hmethod hregisters hlocals hswitch _ _ _ _ =>
    split at h
    · exact absurd h (not_endMethod hdraft)
    · next hend =>
      rw [Bool.not_eq_true] at hend
      rw [hend, Bool.or_false, List.contains_eq_mem, decide_eq_false_iff_not]
      simp only [List.mem_cons, List.not_mem_nil, or_false, not_or]
      exact ⟨hclassName, hsuper, hfield, hmethod, hregisters, hlocals, hswitch⟩

/-- A line that is hidden or idle changes nothing but what hides the lines behind it. -/
theorem accept_passes {cover : Cover} (hblock : r.block = cover.block) (h : cover.passes line) :
    ∃ journal, r.accept line = .ok { r with block := (cover.after line).block, journal } := by
  obtain ⟨classes, journal, class?, draft?, block, number⟩ := r
  obtain rfl : block = cover.block := hblock
  -- outside of blocks the line is idle, in a block it is hidden
  cases cover with
  | none =>
    have hidle : isIdle line := by simpa [Cover.passes] using h
    unfold isIdle at hidle
    split at hidle
    · exact readDirective_idle (by simpa using hidle) rfl
    · cases hidle
  | metadata depth =>
    refine ⟨journal, congrArg Except.ok ?_⟩
    unfold readMetadataLine Cover.after
    dsimp only
    split
    · rfl
    · split
      · split <;> rfl
      · rfl
  | data closing =>
    refine ⟨journal, congrArg Except.ok ?_⟩
    unfold Cover.after
    dsimp only
    split <;> rfl

/-- Where neither a class nor a method is open, a line that starts no class is refused, or it is hidden or
idle. -/
theorem passes_of_accept {cover : Cover} (hblock : r.block = cover.block) (hclass : r.class? = none)
    (hdraft : r.draft? = none) (hstart : r.startsClass line = false) (h : r.accept line = .ok r') :
    cover.passes line := by
  cases cover with
  | metadata depth => rfl
  | data closing => rfl
  | none =>
    have hblock : r.block = .none := hblock
    suffices hidle : isIdle line by simpa [Cover.passes] using hidle
    unfold accept at h
    rw [hblock] at h
    dsimp only at h
    split at h
    · next directive =>
      have hname : (splitMnemonic directive).1 ≠ "class".toList := by
        unfold startsClass at hstart
        rw [hblock, hdraft] at hstart
        exact of_decide_eq_false hstart
      have hidle := not_isDeclaration_of_readDirective hclass hdraft hname h
      rw [isIdle, hidle, Bool.not_false]
    · exact absurd h (not_withDraft hclass _)
    · obtain ⟨_, _, h⟩ := Machine.bind_eq_ok.1 h
      exact absurd h (not_withDraft hclass _)

end Reader

namespace Opened

variable {o o' : Opened} {cover : Cover} {line : List Char} {cs : List Class}

/-- A line that is hidden or idle changes nothing but what hides the lines behind it. -/
theorem accept_passes (hblock : o.block = cover.block) (h : cover.passes line) :
    o.accept line = some { o with block := (cover.after line).block } := by
  obtain ⟨journal, haccept⟩ := Reader.accept_passes (r := Reader.ofOpened o) hblock h
  exact congrArg Reader.result haccept

/-- What is hidden or idle starts no class. -/
theorem not_startsClass_of_passes (hblock : o.block = cover.block) (h : cover.passes line) :
    o.startsClass line = false := by
  by_contra hstart
  rw [Bool.not_eq_false] at hstart
  obtain ⟨hcover, hline⟩ := Reader.cover_of_startsClass hstart
  obtain ⟨directive, rfl, hname⟩ := exists_of_isClassLine hline
  cases cover with
  | none =>
    rw [Cover.passes, isIdle, isDeclaration, hname] at h
    cases h
  | metadata depth | data closing =>
    have hblock : (Reader.ofOpened o).block = _ := hblock
    rw [hblock] at hcover
    cases hcover

/-- A line that is not seen changes nothing but what hides the lines behind it. -/
theorem readLine_passes (hblock : o.block = cover.block)
    (h : (bare line).isEmpty || cover.passes (bare line)) :
    o.readLine line = some ([], { o with block := (cover.behind line).block }) := by
  unfold readLine Cover.behind
  split
  · rw [← hblock]
  · next hfull =>
    rw [Bool.not_eq_true] at hfull
    rw [hfull, Bool.false_or] at h
    rw [settle, if_neg (by simp [not_startsClass_of_passes hblock h]), accept_passes hblock h,
      Option.map_some]

/-- Lines that are not seen leave everything as it is. -/
theorem readLines_unseen {lines : List (List Char)} (hblock : o.block = cover.block)
    (h : cover.unseen lines) : o.readLines lines = some ([], { o with block := .none }) := by
  -- the induction is on the lines, with what covers them
  induction lines generalizing o cover with
  | nil =>
    obtain rfl : cover = .none := of_decide_eq_true h
    obtain ⟨class?, draft?, block⟩ := o
    obtain rfl : block = .none := hblock
    rfl
  | cons line rest ih =>
    obtain ⟨hline, hrest⟩ := Bool.and_eq_true_iff.1 h
    have hbehind := ih (o := { o with block := (cover.behind line).block }) rfl hrest
    rw [readLines, readLine_passes hblock hline, Option.bind_some, hbehind]
    rfl

/-- Behind a class that is open there is always one open. -/
theorem isSome_of_readLines {lines : List (List Char)} (h : o.readLines lines = some (cs, o'))
    (hclass : o.class?.isSome) : o'.class?.isSome := by
  induction lines generalizing o cs with
  | nil =>
    obtain ⟨-, rfl⟩ := Prod.mk.inj (Option.some.inj h)
    exact hclass
  | cons line rest ih =>
    obtain ⟨⟨cs₁, o₁⟩, hline, h⟩ := Option.bind_eq_some_iff.1 h
    obtain ⟨⟨cs₂, o₂⟩, hrest, heq⟩ := Option.map_eq_some_iff.1 h
    obtain ⟨-, rfl⟩ := Prod.mk.inj heq
    exact ih hrest (isSome_of_readLine hline (.inl hclass))

/-- Lines that leave everything as it is where nothing is open are not seen: each line that does more is
refused there, or starts a class, which is then open. -/
theorem unseen_of_readLines {lines : List (List Char)} (hclass : o.class? = none)
    (hdraft : o.draft? = none) (hblock : o.block = cover.block)
    (h : o.readLines lines = some (cs, {})) : cover.unseen lines := by
  -- the induction is on the lines; a class that is opened once would be open at the end
  induction lines generalizing o cover cs with
  | nil =>
    obtain ⟨-, rfl⟩ := Prod.mk.inj (Option.some.inj h)
    cases cover with
    | none => rfl
    | metadata depth | data closing => cases hblock
  | cons line rest ih =>
    obtain ⟨⟨cs₁, o₁⟩, hline, h⟩ := Option.bind_eq_some_iff.1 h
    obtain ⟨⟨cs₂, o₂⟩, hrest, heq⟩ := Option.map_eq_some_iff.1 h
    obtain ⟨-, rfl⟩ := Prod.mk.inj heq
    have hstart : o.startsClass (bare line) = false := by
      by_contra hstart
      rw [Bool.not_eq_false] at hstart
      cases isSome_of_readLines hrest (isSome_of_readLine hline (.inr hstart))
    have hpasses : (bare line).isEmpty || cover.passes (bare line) := by
      obtain ⟨hempty, -⟩ | ⟨-, -, haccept⟩ := readLine_cases hline
      · rw [hempty]
        rfl
      · rw [settle, if_neg (by simp [hstart])] at haccept
        obtain ⟨r', hr', -⟩ := accept_ok haccept
        have hpasses := Reader.passes_of_accept (r := Reader.ofOpened o) hblock hclass hdraft hstart hr'
        rw [hpasses, Bool.or_true]
    rw [readLine_passes hblock hpasses] at hline
    obtain ⟨-, rfl⟩ := Prod.mk.inj (Option.some.inj hline)
    rw [Cover.unseen, hpasses, Bool.true_and]
    exact ih (o := { o with block := (cover.behind line).block }) hclass hdraft rfl hrest

end Opened

/-! ## Putting lines into sources -/

/-- The lines can be put into every source that is right, at each place where no block is open: the source
stays right, and it leaves the same table. -/
def Invisible (lines : List (List Char)) : Prop :=
  ∀ (t : ClassTable) (journal journal' : Journal) (source source' : String)
    (before after : List (List Char)),
    Text.lines source.toList = before ++ after →
    Text.lines source'.toList = before ++ lines ++ after →
    (({ classes := t, journal } : Reader).readLines before).1.block = .none →
    (t.readSource journal source).error? = none →
    (t.readSource journal' source').error? = none ∧
      (t.readSource journal' source').classes = (t.readSource journal source).classes

namespace Opened

variable {o o' : Opened} {before lines after : List (List Char)} {cs : List Class}

theorem exists_readLines_of_classes? (h : o.classes? (before ++ after) = some cs) :
    ∃ cs₁ o', o.readLines before = some (cs₁, o') := by
  cases hbefore : o.readLines before with
  | none =>
    rw [classes?, readLines_append, hbefore] at h
    cases h
  | some x => exact ⟨x.1, x.2, rfl⟩

/-- Lines that are not seen can be left out. -/
theorem classes?_unseen (hblock : o.block = .none) (h : Cover.none.unseen lines)
    (after : List (List Char)) : o.classes? (lines ++ after) = o.classes? after := by
  have hlines := readLines_unseen hblock h
  have hsame : { o with block := .none } = o := by rw [← hblock]
  rw [hsame] at hlines
  rw [classes?_append hlines]
  simp

/-- Lines that define nothing up to the end of a source leave nothing open. -/
theorem readLines_of_classes?_nil (h : ({} : Opened).classes? lines = some []) :
    ({} : Opened).readLines lines = some ([], {}) := by
  obtain ⟨⟨cs, o⟩, hlines, h⟩ := Option.bind_eq_some_iff.1 h
  obtain ⟨last, hfinish, heq⟩ := Option.map_eq_some_iff.1 h
  obtain ⟨rfl, rfl⟩ := List.append_eq_nil_iff.1 heq
  obtain ⟨class?, draft?, block⟩ := o
  unfold finish at hfinish
  split at hfinish
  · next hclosed =>
    obtain ⟨rfl, rfl⟩ := hclosed
    obtain rfl : class? = none := Option.toList_eq_nil_iff.1 (Option.some.inj hfinish)
    exact hlines
  · cases hfinish

end Opened

/-- Lines that are not seen can be put into sources wherever no block is open. -/
theorem invisible_of_unseen {lines : List (List Char)} (h : Cover.none.unseen lines) :
    Invisible lines := by
  intro t journal journal' source source' before after hlines hlines' hblock haccepted
  obtain ⟨cs, hcs⟩ := ClassTable.readSource_accepted_iff.1 haccepted
  have hclasses : ({} : Opened).classes? (before ++ after) = some cs := hlines ▸ hcs
  obtain ⟨cs₁, o, hbefore⟩ := Opened.exists_readLines_of_classes? hclasses
  -- the place is one where no block is open
  have hclosed : o.block = .none := by
    obtain ⟨r, hr, rfl, -⟩ := Reader.readLines_eq (r := { classes := t, journal }) hbefore
    rw [hr] at hblock
    exact hblock
  have hsame : sourceClasses? source' = some cs := by
    rw [sourceClasses?, hlines', List.append_assoc, Opened.classes?_append hbefore,
      Opened.classes?_unseen hclosed h, ← Opened.classes?_append hbefore, hclasses]
  obtain ⟨-, htable⟩ := ClassTable.readSource_eq hcs t journal
  obtain ⟨haccepted', htable'⟩ := ClassTable.readSource_eq hsame t journal'
  exact ⟨haccepted', htable'.trans htable.symm⟩

namespace Text

/-- A text with the given lines. -/
def ofLines (lines : List (List Char)) : List Char :=
  lines.flatMap (· ++ ['\r', '\n'])

/-- The lines of the text are these. -/
theorem lines_ofLines {ls : List (List Char)} (h : ∀ line ∈ ls, '\n' ∉ line) : lines (ofLines ls) = ls := by
  induction ls with
  | nil => rfl
  | cons line rest ih =>
    obtain ⟨hline, hrest⟩ := List.forall_mem_cons.1 h
    have hreturn : '\n' ∉ line ++ ['\r'] := by simpa using hline
    have htext : ofLines (line :: rest) = (line ++ ['\r']) ++ '\n' :: ofLines rest := by
      simp [ofLines]
    rw [htext, lines_append_newline, closedLines_of_not_mem hreturn, ih hrest]
    simp [dropReturn]

end Text

theorem ClassTable.eq_nil_of_addAll_empty {cs : List Class} (h : addAll {} cs = {}) : cs = [] := by
  have hnames : ∀ name, name ∉ cs.map (·.name) := by
    intro name hname
    have hkeys : name ∈ (addAll {} cs).keys := mem_keys_addAll.2 (.inr hname)
    rw [h] at hkeys
    exact absurd hkeys List.not_mem_nil
  exact List.map_eq_nil_iff.1 (List.eq_nil_iff_forall_not_mem.2 hnames)

/-- Lines that are seen change already the source that has no line. -/
theorem unseen_of_invisible {lines : List (List Char)} (hends : ∀ line ∈ lines, '\n' ∉ line)
    (h : Invisible lines) : Cover.none.unseen lines := by
  have hlines : Text.lines (String.ofList (Text.ofLines lines)).toList = [] ++ lines ++ [] := by
    rw [String.toList_ofList, Text.lines_ofLines hends, List.nil_append, List.append_nil]
  obtain ⟨haccepted, htable⟩ := h {} {} {} "" (String.ofList (Text.ofLines lines)) [] [] rfl hlines rfl rfl
  obtain ⟨cs, hcs⟩ := ClassTable.readSource_accepted_iff.1 haccepted
  rw [(ClassTable.readSource_eq hcs {} {}).2] at htable
  obtain rfl := ClassTable.eq_nil_of_addAll_empty htable
  rw [sourceClasses?, hlines, List.nil_append, List.append_nil] at hcs
  exact Opened.unseen_of_readLines rfl rfl rfl (Opened.readLines_of_classes?_nil hcs)

/-- Lines can be put into sources wherever no block is open if and only if they are not seen. -/
theorem invisible_iff {lines : List (List Char)} (hends : ∀ line ∈ lines, '\n' ∉ line) :
    Invisible lines ↔ Cover.none.unseen lines :=
  ⟨unseen_of_invisible hends, invisible_of_unseen⟩

end Smali
