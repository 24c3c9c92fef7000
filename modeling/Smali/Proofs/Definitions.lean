import Smali.Proofs.JoinedSources
import Smali.Proofs.Numbering

/-!
# Definitions in sources

The text of a class goes from the line that starts it to the next line that starts one. Where these lines
are can be told from the text alone: a line starts a class if its directive says so and if no block of
metadata or of data hides it. In sources that are right the reader starts its classes at just these lines,
and what it makes of the text of a class hangs on nothing in front of it. So a program has under each name
what the last text with that name defines when it is read by itself.

## Key results

- `Reader.accept_cover`: an accepted line hides the lines behind it as its text says
- `Opened.classes?_cut`: lines that are right define what the texts define that they are cut into
- `ClassTable.freeze_readSources`: what the classes of a program are, how they are numbered and linked
-/

namespace Smali

/-! ## Texts of classes -/

/-- What hides the lines that follow. -/
inductive Cover where
  | none
  /-- So many nested blocks of metadata. -/
  | metadata (depth : Nat)
  /-- Data up to the line that ends it. -/
  | data (closing : List Char)
  deriving Repr, DecidableEq

/-- The name of a directive, if the line is one. -/
def directiveName? : List Char → Option String
  | '.' :: directive => some (String.ofList (splitMnemonic directive).1)
  | _ => none

/-- A line that does not start with a dot is no directive. -/
theorem directiveName?_eq_none {line : List Char} (h : ∀ directive, line ≠ '.' :: directive) :
    directiveName? line = none := by
  unfold directiveName?
  split
  · next directive => exact absurd rfl (h directive)
  · rfl

/-- Whether the line is one that starts a class, unless something hides it. -/
def isClassLine (line : List Char) : Bool :=
  directiveName? line = some "class"

/-- A line that starts a class is a directive with that name. -/
theorem exists_of_isClassLine {line : List Char} (h : isClassLine line) :
    ∃ directive, line = '.' :: directive ∧ String.ofList (splitMnemonic directive).1 = "class" := by
  have hname : directiveName? line = some "class" := of_decide_eq_true h
  unfold directiveName? at hname
  split at hname
  · next directive => exact ⟨directive, rfl, Option.some.inj hname⟩
  · cases hname

namespace Cover

/-- What a directive opens that hides the lines behind it. -/
def ofDirective (name? : Option String) : Cover :=
  if name? = some "annotation" ∨ name? = some "subannotation" then .metadata 1
  else if name? = some "sparse-switch" then .data ".end sparse-switch".toList
  else if name? = some "array-data" then .data ".end array-data".toList
  else .none

/-- All other directives hide nothing. -/
theorem ofDirective_other {name : String} (hmetadata : name ≠ "annotation")
    (hnested : name ≠ "subannotation") (hsparse : name ≠ "sparse-switch")
    (harray : name ≠ "array-data") : ofDirective (some name) = .none := by
  unfold ofDirective
  rw [if_neg, if_neg, if_neg]
  · exact fun h => harray (Option.some.inj h)
  · exact fun h => hsparse (Option.some.inj h)
  · rintro (h | h)
    · exact hmetadata (Option.some.inj h)
    · exact hnested (Option.some.inj h)

/-- What hides the lines behind a line that is not empty. -/
def after : Cover → List Char → Cover
  | .none, line => ofDirective (directiveName? line)
  | .metadata depth, line =>
    if Text.startsWith ".annotation".toList line || Text.startsWith ".subannotation".toList line then
      .metadata (depth + 1)
    else if line = ".end annotation".toList || line = ".end subannotation".toList then
      if depth ≤ 1 then .none else .metadata (depth - 1)
    else .metadata depth
  | .data closing, line => if line = closing then .none else .data closing

/-- What hides the lines behind a line. -/
def behind (cover : Cover) (line : List Char) : Cover :=
  if (bare line).isEmpty then cover else cover.after (bare line)

/-- Cuts lines in front of each line that starts a class: what comes before the first of them, and the text
of each class. -/
def cut (cover : Cover) : List (List Char) → List (List Char) × List (List (List Char))
  | [] => ([], [])
  | line :: rest =>
    let below := (cover.behind line).cut rest
    if cover = .none ∧ isClassLine (bare line) then ([], (line :: below.1) :: below.2)
    else (line :: below.1, below.2)

/-- Nothing is lost by the cuts. -/
theorem flatten_cut (cover : Cover) (lines : List (List Char)) :
    (cover.cut lines).1 ++ (cover.cut lines).2.flatten = lines := by
  -- the induction is on the lines, under whatever hides them
  induction lines generalizing cover with
  | nil => rfl
  | cons line rest ih =>
    unfold cut
    dsimp only
    split
    · rw [List.flatten_cons, List.nil_append, List.cons_append, ih]
    · rw [List.cons_append, ih]

end Cover

/-- The text of each class of a source, in order. -/
def classTexts (source : String) : List (List (List Char)) :=
  (Cover.none.cut (Text.lines source.toList)).2

/-- The one class in the table when a text is read by itself, if it is right. -/
def definition? (text : List (List Char)) : Option Class :=
  let read := ({ classes := {}, journal := {} } : Reader).readAll text
  match read.2, read.1.classes.values with
  | none, [c] => some c
  | _, _ => none

/-- A text that defines one class defines it by itself. -/
theorem definition?_eq_some {text : List (List Char)} {c : Class}
    (h : ({} : Opened).classes? text = some [c]) : definition? text = some c := by
  obtain ⟨hnone, hclasses⟩ := Reader.readAll_eq (r := { classes := {}, journal := {} }) h
  unfold definition?
  dsimp only
  rw [hnone, hclasses]
  rfl

/-! ## What the reader skips -/

/-- The blocks that hide the lines in them. -/
def Block.cover : Block → Cover
  | .none | .switch _ _ => .none
  | .metadata depth => .metadata depth
  | .skipped closing => .data closing

namespace Reader

variable {r r' : Reader} {rest line : List Char}

/-! ### Directives that open no block -/

/-- A change of the class leaves the block alone. -/
theorem withClass_block {change : Class → Class} (h : r.withClass change = .ok r') :
    r'.block = r.block := by
  obtain ⟨c, hc, rfl⟩ := withClass_ok h
  rfl

/-- A change of the method leaves the block alone. -/
theorem withDraft_block {change : Draft → Except ReadError Draft} (h : r.withDraft change = .ok r') :
    r'.block = r.block := by
  obtain ⟨c, d, d', hc, hd, hd', rfl⟩ := withDraft_ok h
  rfl

/-- The start of a class leaves the block alone. -/
theorem beginClass_block (h : r.beginClass rest = .ok r') : r'.block = r.block := by
  unfold beginClass at h
  split at h
  · cases h
  · split at h
    · cases h
    · obtain ⟨type, _, h⟩ := Machine.bind_eq_ok.1 h
      split at h
      · obtain rfl := Except.ok.inj h
        rfl
      · cases h

/-- A field leaves the block alone. -/
theorem readField_block (h : r.readField rest = .ok r') : r'.block = r.block := by
  unfold readField at h
  dsimp only at h
  split at h
  · cases h
  · split at h
    · cases h
    · obtain ⟨_, _, h⟩ := Machine.bind_eq_ok.1 h
      obtain ⟨_, _, h⟩ := Machine.bind_eq_ok.1 h
      exact withClass_block h

/-- The start of a method leaves the block alone. -/
theorem beginMethod_block (h : r.beginMethod rest = .ok r') : r'.block = r.block := by
  unfold beginMethod at h
  split at h
  · cases h
  · split at h
    · cases h
    · cases h
    · obtain ⟨_, _, h⟩ := Machine.bind_eq_ok.1 h
      obtain rfl := Except.ok.inj h
      rfl

/-- The end of a method leaves the block alone. -/
theorem endMethod_block (h : r.endMethod = .ok r') : r'.block = r.block := by
  unfold endMethod at h
  split at h
  · cases h
  · obtain ⟨_, _, h⟩ := Machine.bind_eq_ok.1 h
    obtain ⟨c, hc, rfl⟩ := withClass_ok h
    rfl

/-- A register count leaves the block alone. -/
theorem readRegisters_block (h : r.readRegisters rest = .ok r') : r'.block = r.block := by
  obtain ⟨_, _, h⟩ := Machine.bind_eq_ok.1 h
  dsimp only at h
  split at h
  · exact withDraft_block h
  · cases h

/-- A switch table hides nothing: every line of it must be right. -/
theorem beginSwitch_cover (h : r.beginSwitch rest = .ok r') : r'.block.cover = .none := by
  obtain ⟨_, _, h⟩ := Machine.bind_eq_ok.1 h
  dsimp only at h
  split at h
  · split at h
    · cases h
    · cases h
    · split at h
      · cases h
      · obtain rfl := Except.ok.inj h
        rfl
  · cases h

/-! ### Lines -/

/-- A directive hides the lines behind it as its name says. -/
theorem readDirective_cover (hblock : r.block = .none) {directive : List Char}
    (h : r.readDirective directive = .ok r') :
    r'.block.cover = Cover.ofDirective (some (String.ofList (splitMnemonic directive).1)) := by
  unfold readDirective at h
  dsimp only at h
  -- the cases are those of the reader; only four directives hide something
  split at h
  · next hname =>
    rw [hname, beginClass_block h, hblock]
    rfl
  · next hname =>
    obtain ⟨_, _, h⟩ := Machine.bind_eq_ok.1 h
    rw [hname, withClass_block h, hblock]
    rfl
  · next hname =>
    rw [hname, readField_block h, hblock]
    rfl
  · next hname =>
    rw [hname, beginMethod_block h, hblock]
    rfl
  · next hname =>
    rw [hname, readRegisters_block h, hblock]
    rfl
  · next hname =>
    rw [hname, readRegisters_block h, hblock]
    rfl
  · next hname =>
    rw [hname, beginSwitch_cover h]
    rfl
  iterate 4
    · next hname =>
      obtain rfl := Except.ok.inj h
      rw [hname]
      rfl
  · next hmetadata hnested hsparse harray =>
    rw [Cover.ofDirective_other hmetadata hnested hsparse harray]
    split at h
    · rw [endMethod_block h, hblock]
      rfl
    · obtain rfl := Except.ok.inj h
      rw [hblock]
      rfl

/-- A line of metadata opens one more block, closes one, or neither. -/
theorem readMetadataLine_cover (r : Reader) (depth : Nat) (line : List Char)
    (hblock : r.block = .metadata depth) :
    (r.readMetadataLine depth line).block.cover = (Cover.metadata depth).after line := by
  -- both definitions ask the same questions in the same order
  unfold readMetadataLine Cover.after
  dsimp only
  split
  · rfl
  · split
    · split <;> rfl
    · rw [hblock]
      rfl

/-- A line of a switch table hides nothing. -/
theorem readSwitchLine_cover {name : String} {table : SwitchTable}
    (h : r.readSwitchLine name table line = .ok r') :
    r'.block.cover = Cover.none.after line := by
  unfold readSwitchLine at h
  split at h
  · next hend =>
    rw [hend, withDraft_block h]
    rfl
  · split at h
    · obtain rfl := Except.ok.inj h
      rfl
    · cases h

/-- An accepted line covers the lines behind it as its text says. -/
theorem accept_cover (h : r.accept line = .ok r') : r'.block.cover = r.block.cover.after line := by
  unfold accept at h
  split at h
  · next hblock =>
    rw [hblock]
    exact readSwitchLine_cover h
  · next depth hblock =>
    obtain rfl := Except.ok.inj h
    rw [hblock]
    exact readMetadataLine_cover r depth line hblock
  · next closing hblock =>
    obtain rfl := Except.ok.inj h
    rw [hblock, Block.cover, Cover.after]
    split
    · rfl
    · rw [hblock]
      rfl
  · next hblock =>
    rw [hblock]
    split at h
    · exact readDirective_cover hblock h
    · rw [withDraft_block h, hblock]
      rfl
    -- an instruction is no directive
    · next hdot _ =>
      obtain ⟨_, _, h⟩ := Machine.bind_eq_ok.1 h
      rw [withDraft_block h, hblock, Block.cover, Cover.after, directiveName?_eq_none hdot]
      rfl

/-! ### Lines that start a class -/

/-- A class starts where no method is open, and is open then. -/
theorem beginClass_opens (h : r.beginClass rest = .ok r') : r.draft? = none ∧ r'.class?.isSome := by
  unfold beginClass at h
  split at h
  · cases h
  · next hdraft =>
    refine ⟨by simpa using hdraft, ?_⟩
    split at h
    · cases h
    · obtain ⟨type, _, h⟩ := Machine.bind_eq_ok.1 h
      split at h
      · obtain rfl := Except.ok.inj h
        rfl
      · cases h

/-- The directive that starts a class. -/
theorem readDirective_class {directive : List Char}
    (hname : String.ofList (splitMnemonic directive).1 = "class") :
    r.readDirective directive = r.beginClass (splitMnemonic directive).2 := by
  unfold readDirective
  dsimp only
  rw [hname]
  rfl

/-- Where nothing hides it, a line that looks like the start of a class is one, or it is refused. -/
theorem accept_classLine (hcover : r.block.cover = .none) (hline : isClassLine line)
    (h : r.accept line = .ok r') : r.startsClass line ∧ r'.class?.isSome := by
  obtain ⟨directive, rfl, hname⟩ := exists_of_isClassLine hline
  unfold accept at h
  split at h
  · -- a switch table has no room for it
    unfold readSwitchLine at h
    split at h
    · next hend =>
      obtain rfl : directive = "end packed-switch".toList := (List.cons.inj hend).2
      exact absurd hname (by decide)
    · cases h
  · next hblock =>
    rw [hblock] at hcover
    cases hcover
  · next hblock =>
    rw [hblock] at hcover
    cases hcover
  · next hblock =>
    have h : r.readDirective directive = .ok r' := h
    -- outside of blocks the directive is read, and refused if a method is open
    rw [readDirective_class hname] at h
    obtain ⟨hdraft, hclass⟩ := beginClass_opens h
    refine ⟨?_, hclass⟩
    unfold startsClass
    rw [hblock, hdraft]
    exact decide_eq_true (String.toList_ofList.symm.trans (congrArg String.toList hname))

/-- What starts a class looks like it, and nothing hides it. -/
theorem cover_of_startsClass (h : r.startsClass line) :
    r.block.cover = .none ∧ isClassLine line := by
  unfold startsClass at h
  split at h
  · next directive hblock _ =>
    rw [hblock]
    have hname : (splitMnemonic directive).1 = "class".toList := of_decide_eq_true h
    refine ⟨rfl, decide_eq_true ?_⟩
    rw [directiveName?, hname, String.ofList_toList]
  · cases h

end Reader

/-- No edit closes a class. -/
theorem Edit.isSome {c? c?' : Option Class} {d? d?' : Option Draft} (he : Edit c? d? c?' d?')
    (h : c?.isSome) : c?'.isSome := by
  cases he with
  | keep => exact h
  | beginClass | setSuper | addField | beginMethod | endMethod | setRegisters | addLabel | addTable
  | addInstruction => rfl

namespace Opened

variable {o o' : Opened} {line : List Char} {cs : List Class}

/-- Settling a line leaves the block alone. -/
theorem block_settle (o : Opened) (line : List Char) : (o.settle line).2.block = o.block := by
  unfold settle
  split <;> rfl

/-- What the open things accept, a reader made of them accepts. -/
theorem accept_ok (h : o.accept line = some o') :
    ∃ r', (Reader.ofOpened o).accept line = .ok r' ∧ r'.opened = o' := by
  obtain ⟨r', hr', hopened, _⟩ := Reader.accept_eq (r := Reader.ofOpened o) h
  exact ⟨r', hr', hopened⟩

/-- A right line hides the lines behind it as its text says. -/
theorem readLine_cover (h : o.readLine line = some (cs, o')) :
    o'.block.cover = o.block.cover.behind line := by
  unfold Cover.behind
  obtain ⟨hempty, _, rfl⟩ | ⟨hfull, _, haccept⟩ := readLine_cases h
  · rw [hempty]
    rfl
  · obtain ⟨r', hr', rfl⟩ := accept_ok haccept
    rw [if_neg (by simpa using hfull), ← block_settle o (bare line)]
    exact Reader.accept_cover hr'

/-- In lines that are right the reader starts classes where their texts are cut. -/
theorem startsClass_iff (h : o.readLine line = some (cs, o')) :
    o.startsClass (bare line) ↔ o.block.cover = .none ∧ isClassLine (bare line) := by
  refine ⟨Reader.cover_of_startsClass, fun ⟨hcover, hline⟩ => ?_⟩
  -- otherwise the line would be accepted without starting a class, which `accept_classLine` excludes
  by_contra hstart
  have hsettle : o.settle (bare line) = ([], o) := if_neg hstart
  obtain ⟨hempty, _⟩ | ⟨_, _, haccept⟩ := readLine_cases h
  · rw [hempty] at hline
    cases hline
  · rw [hsettle] at haccept
    obtain ⟨r', hr', -⟩ := accept_ok haccept
    exact hstart (Reader.accept_classLine hcover hline hr').1

/-- A class that is started is open, and an open class stays open until the next is started. -/
theorem isSome_of_readLine (h : o.readLine line = some (cs, o'))
    (hclass : o.class?.isSome ∨ o.startsClass (bare line)) : o'.class?.isSome := by
  -- the line starts a class, or it edits what is open
  by_cases hstart : o.startsClass (bare line)
  · obtain ⟨hcover, hline⟩ := (startsClass_iff h).1 hstart
    obtain ⟨hempty, _⟩ | ⟨_, _, haccept⟩ := readLine_cases h
    · rw [hempty] at hline
      cases hline
    · rw [← block_settle o (bare line)] at hcover
      obtain ⟨r', hr', rfl⟩ := accept_ok haccept
      exact (Reader.accept_classLine hcover hline hr').2
  · have hclass : o.class?.isSome := hclass.resolve_right hstart
    have hsettle : o.settle (bare line) = ([], o) := if_neg hstart
    obtain ⟨_, _, rfl⟩ | ⟨_, _, haccept⟩ := readLine_cases h
    · exact hclass
    · rw [hsettle] at haccept
      obtain ⟨r', hr', rfl⟩ := accept_ok haccept
      exact (Reader.accept_edit hr').2.isSome hclass

/-- In front of the first class no class is open, and no method. -/
theorem readLine_outside (h : o.readLine line = some (cs, o')) (hstart : ¬ o.startsClass (bare line))
    (hclass : o.class? = none) (hdraft : o.draft? = none) : o'.class? = none ∧ o'.draft? = none := by
  have hsettle : o.settle (bare line) = ([], o) := if_neg hstart
  obtain ⟨_, _, rfl⟩ | ⟨_, _, haccept⟩ := readLine_cases h
  · exact ⟨hclass, hdraft⟩
  · rw [hsettle] at haccept
    obtain ⟨hclass', hdraft', _⟩ := accept_outside hclass hdraft (by simpa using hstart) haccept
    exact ⟨hclass', hdraft'⟩

/-! ## Texts and definitions -/

/-- The first text behind what is open, and each other text by itself, define the classes `all`. Behind an
open class the first text finishes that class; where nothing is open it defines none. -/
def DefinedBy (o : Opened) (all : List Class) (cut : List (List Char) × List (List (List Char))) :
    Prop :=
  ∃ (c? : Option Class) (ds : List Class),
    o.classes? cut.1 = some c?.toList ∧ cut.2.map definition? = ds.map some ∧ all = c?.toList ++ ds ∧
    (o.class?.isSome → c?.isSome) ∧ (o.class? = none → o.draft? = none → c? = none)

/-- The end of a source finishes the open class. -/
theorem finish_eq_some {all : List Class} (h : o.finish = some all) : all = o.class?.toList := by
  unfold finish at h
  split at h
  · exact (Option.some.inj h).symm
  · cases h

/-- Where no lines are left, the open class is all. -/
theorem definedBy_nil {all : List Class} (h : o.classes? [] = some all) : o.DefinedBy all ([], []) := by
  obtain rfl := finish_eq_some ((classes?_nil o).symm.trans h)
  exact ⟨o.class?, [], h, rfl, (List.append_nil _).symm, id, fun hnone _ => hnone⟩

/-- A line that starts a class is the first of a text. -/
theorem DefinedBy.start {all : List Class} {first : List (List Char)}
    {texts : List (List (List Char))} (hline : o.readLine line = some (cs, o'))
    (hstart : o.startsClass (bare line)) (h : o'.DefinedBy all (first, texts)) :
    o.DefinedBy (cs ++ all) ([], (line :: first) :: texts) := by
  obtain ⟨c?, ds, hfirst, htexts, rfl, hsome, -⟩ := h
  obtain ⟨rfl, hempty⟩ := readLine_start hline hstart
  obtain ⟨d, rfl⟩ := Option.isSome_iff_exists.1 (hsome (isSome_of_readLine hline (.inr hstart)))
  refine ⟨o.class?, d :: ds, ?_, ?_, rfl, id, fun hnone _ => hnone⟩
  · rw [classes?_nil, finish_of_startsClass hstart]
  -- read by itself the text starts with the same line in the same way
  · have hdefinition : definition? (line :: first) = some d := by
      refine definition?_eq_some ?_
      rw [classes?_cons hempty, hfirst]
      rfl
    rw [List.map_cons, List.map_cons, hdefinition, htexts]

/-- Any other line belongs to the text before. -/
theorem DefinedBy.more {all : List Class} {first : List (List Char)}
    {texts : List (List (List Char))} (hline : o.readLine line = some (cs, o'))
    (hstart : ¬ o.startsClass (bare line)) (h : o'.DefinedBy all (first, texts)) :
    o.DefinedBy (cs ++ all) (line :: first, texts) := by
  obtain ⟨c?, ds, hfirst, htexts, rfl, hsome, hnone⟩ := h
  have hsettle : o.settle (bare line) = ([], o) := if_neg hstart
  obtain rfl : cs = [] := by rw [finished_of_readLine hline, hsettle]
  refine ⟨c?, ds, ?_, htexts, rfl, ?_, ?_⟩
  · rw [classes?_cons hline, hfirst]
    rfl
  · exact fun hclass => hsome (isSome_of_readLine hline (.inl hclass))
  · intro hclass hdraft
    obtain ⟨hclass', hdraft'⟩ := readLine_outside hline hstart hclass hdraft
    exact hnone hclass' hdraft'

/-- Lines that are right define what the texts define that they are cut into. -/
theorem classes?_cut {lines : List (List Char)} {all : List Class} (h : o.classes? lines = some all) :
    o.DefinedBy all (o.block.cover.cut lines) := by
  -- the induction is on the lines; each starts a text or belongs to the one in front of it
  induction lines generalizing o all with
  | nil => exact definedBy_nil h
  | cons line rest ih =>
    cases hline : o.readLine line with
    | none =>
      rw [classes?_cons_refused hline] at h
      cases h
    | some x =>
      rw [classes?_cons hline] at h
      obtain ⟨all', hrest, rfl⟩ := Option.map_eq_some_iff.1 h
      have hbelow := ih hrest
      rw [readLine_cover hline] at hbelow
      unfold Cover.cut
      dsimp only
      split
      · next hclass => exact hbelow.start hline ((startsClass_iff hline).2 hclass)
      · next hclass => exact hbelow.more hline fun hstart => hclass ((startsClass_iff hline).1 hstart)

end Opened

/-- A source that is right defines what the texts of its classes define by themselves, one each. -/
theorem definition?_classTexts {source : String} (h : (sourceClasses? source).isSome) :
    (classTexts source).map definition? = (sourceClasses source).map some := by
  obtain ⟨cs, hcs⟩ := Option.isSome_iff_exists.1 h
  obtain ⟨c?, ds, -, htexts, rfl, -, hnone⟩ := Opened.classes?_cut hcs
  obtain rfl := hnone rfl rfl
  rw [sourceClasses, hcs]
  exact htexts

/-- The same for sources one after the other. -/
theorem definition?_flatMap_classTexts {sources : List String}
    (h : ∀ source ∈ sources, (sourceClasses? source).isSome) :
    (sources.flatMap classTexts).map definition? = (sources.flatMap sourceClasses).map some := by
  rw [List.map_flatMap, List.map_flatMap]
  exact List.flatMap_congr fun source hsource => definition?_classTexts (h source hsource)

/-- The program that sources make, read into an empty table. The texts of their classes define one class
each. Under a name the program has what the last of them with that name defines, and nothing of those
before. The classes are numbered by the order in which their names came up, and a class is linked to the
class with the name of its superclass, if there is one. -/
theorem ClassTable.freeze_readSources {sources : List String} {journal : Journal} {t : ClassTable}
    (h : ClassTable.readSources {} journal sources = .ok t) :
    (∀ source ∈ sources, ∃ preamble,
      Text.lines source.toList = preamble ++ (classTexts source).flatten) ∧
    ∃ definitions : List Class,
      (sources.flatMap classTexts).map definition? = definitions.map some ∧
      (∀ name, (t.freeze.find? name).map (·.toClass) =
        (definitions.filter (·.name == name)).getLast?) ∧
      t.freeze.classes.size = (definitions.map (·.name)).eraseDups.length ∧
      t.freeze.classes.toList.map (·.name) = (definitions.map (·.name)).eraseDups ∧
      (∀ (i : Nat) (c : LoadedClass), t.freeze.classes[i]? = some c → c.id = i) ∧
      (∀ name c, t.freeze.find? name = some c → c.name = name ∧ t.freeze.classes[c.id]? = some c) ∧
      (∀ c ∈ t.freeze.classes, ∀ id, c.superId? = some id ↔
        ∃ name d, c.superName? = some name ∧ t.freeze.find? name = some d ∧ d.id = id) := by
  obtain ⟨hright, rfl⟩ := readSources_ok_iff.1 h
  have hnamed : (addAll {} (sources.flatMap sourceClasses)).Named := named_addAll named_empty _
  -- the names of the program are those of the table, in the order in which they came up
  have hnames := (names_freeze hnamed).trans (keys_addAll_empty (sources.flatMap sourceClasses))
  refine ⟨fun source _ => ⟨_, (Cover.flatten_cut .none _).symm⟩, sources.flatMap sourceClasses,
    definition?_flatMap_classTexts hright, ?_, ?_, hnames, fun i c => id_of_getElem?_freeze, ?_, ?_⟩
  · intro name
    rw [toClass_find? hnamed, get?_addAll, Table.get?_empty, Option.or_none]
  · rw [← hnames, List.length_map, Array.length_toList]
  · intro name c hfind
    refine ⟨by simpa using Array.find?_some hfind, ?_⟩
    obtain ⟨i, hi⟩ := Array.getElem?_of_mem (Array.mem_of_find?_eq_some hfind)
    rw [id_of_getElem?_freeze hi, hi]
  · intro c hc id
    rw [superId?_freeze hc, Option.bind_eq_some_iff]
    simp only [← id_find? hnamed, Option.map_eq_some_iff, exists_and_left]

/-- The class that is defined twice has what its second text says and the place of its first. -/
theorem overriding_definitions :
    ∃ t, ClassTable.readSources {} {} [twoClasses, overriding] = .ok t ∧
      t.freeze.classes.toList.map (fun c => (c.name, c.id, c.superId?, c.fields.keys)) =
        [("LFirst;", 0, none, ["y"]), ("LSecond;", 1, some 0, [])] ∧
      ∃ definitions : List Class,
        ([twoClasses, overriding].flatMap classTexts).map definition? = definitions.map some ∧
        definitions.map (fun c => (c.name, c.fields.keys)) =
          [("LFirst;", ["x"]), ("LSecond;", []), ("LFirst;", ["y"])] ∧
        ∀ name, (t.freeze.find? name).map (·.toClass) =
          (definitions.filter (·.name == name)).getLast? := by
  have hread : (ClassTable.readSources {} {} [twoClasses, overriding]).toOption.map
      (fun t => t.freeze.classes.toList.map (fun c => (c.name, c.id, c.superId?, c.fields.keys))) =
        some [("LFirst;", 0, none, ["y"]), ("LSecond;", 1, some 0, [])] := by decide +kernel
  have htexts : ([twoClasses, overriding].flatMap classTexts).map
      (fun text => (definition? text).map (fun c => (c.name, c.fields.keys))) =
        [some ("LFirst;", ["x"]), some ("LSecond;", []), some ("LFirst;", ["y"])] := by decide +kernel
  obtain ⟨t, ht, hclasses⟩ := Option.map_eq_some_iff.1 hread
  obtain ⟨-, definitions, hdefinitions, hlast, -⟩ :=
    ClassTable.freeze_readSources (ok_of_toOption ht)
  refine ⟨t, ok_of_toOption ht, hclasses, definitions, hdefinitions, ?_, hlast⟩
  -- a class cannot be compared by evaluation, its name and its fields can
  have hmap := congrArg (List.map (Option.map fun c : Class => (c.name, c.fields.keys))) hdefinitions
  rw [List.map_map, List.map_map] at hmap
  have hsome := htexts.symm.trans hmap
  exact List.map_injective_iff.2 (Option.some_injective _) (by simpa using hsome.symm)

end Smali
