import Smali.Proofs.Unseen

/-!
# Annotations

An annotation is a block of lines from `.annotation` to `.end annotation`. A value in it can be an
annotation itself, from `.subannotation` to `.end subannotation`; its first line may have the name of
the value in front, as in `name = .subannotation LNote;`. The reader counts how many blocks are open. It
counts every line that ends one, but of those that start one only such that have nothing in front. So it
takes an annotation for what it is if no value has its name in front. Otherwise it is out of the block
too early, and what is left of the annotation is read like any other line.

## Key results

- `hidden_body`: how far the count goes down within an annotation
- `annotation_invisible_iff`: which annotations can stand in a source without changing what it defines
- `named_value_refused`: one that cannot
-/

namespace Smali

/-! ## The form of annotations -/

/-- Whether the line starts a nested annotation and has the name of the value in front. -/
def opensNamed (line : List Char) : Bool :=
  match Text.cut " = .subannotation".toList line with
  | some (name, _) => !name.isEmpty && name.all fun c => !Text.isBlank c && c != '.'
  | none => false

/-- Whether the line neither starts nor ends a block of an annotation. -/
def isElement (line : List Char) : Bool :=
  !Text.startsWith ".annotation".toList line && !Text.startsWith ".subannotation".toList line &&
    !opensNamed line && line ≠ ".end annotation".toList && line ≠ ".end subannotation".toList

/-- What stands in an annotation: elements and nested annotations, to any depth. -/
inductive AnnotationBody : List (List Char) → Prop
  | nil : AnnotationBody []
  | element (line : List Char) (rest : List (List Char)) (h : isElement (bare line))
    (hrest : AnnotationBody rest) : AnnotationBody (line :: rest)
  | nested (opening closing : List Char) (inner rest : List (List Char))
    (hopening : Text.startsWith ".subannotation".toList (bare opening) ∨ opensNamed (bare opening))
    (hinner : AnnotationBody inner) (hclosing : bare closing = ".end subannotation".toList)
    (hrest : AnnotationBody rest) : AnnotationBody (opening :: inner ++ closing :: rest)

/-- The lines of an annotation. -/
inductive IsAnnotation : List (List Char) → Prop
  | block (opening closing : List Char) (body : List (List Char))
    (hopening : directiveName? (bare opening) = some "annotation") (hbody : AnnotationBody body)
    (hclosing : bare closing = ".end annotation".toList) : IsAnnotation (opening :: body ++ [closing])

/-- A name does not start with a dot. -/
theorem opensNamed_dot (line : List Char) : opensNamed ('.' :: line) = false := by
  unfold opensNamed
  split
  · next name rest hcut =>
    cases name with
    | nil => rfl
    | cons c name =>
      have hline := Text.eq_append_of_cut hcut
      obtain rfl : '.' = c := by simpa using (List.cons.inj hline).1
      simp
  · rfl

/-- A line that starts with the directive has no name in front. -/
theorem opensNamed_of_startsWith {line : List Char} (h : Text.startsWith ".subannotation".toList line) :
    opensNamed line = false := by
  obtain ⟨rest, hrest⟩ := Option.isSome_iff_exists.1 h
  rw [Text.afterStart?_eq_some_iff.1 hrest]
  exact opensNamed_dot _

/-! ## What the reader counts -/

namespace Cover

/-- What hides the lines behind lines that are all hidden, none if one of them is not. -/
def hidden (cover : Cover) : List (List Char) → Option Cover
  | [] => some cover
  | line :: rest => if cover = .none then .none else (cover.behind line).hidden rest

/-- Lines that are hidden up to the end of the block are unseen. -/
theorem unseen_of_hidden {cover : Cover} {lines : List (List Char)} (h : cover.hidden lines = some .none) :
    cover.unseen lines := by
  -- the induction is on the lines, with what covers them
  induction lines generalizing cover with
  | nil =>
    obtain rfl : cover = .none := Option.some.inj h
    rfl
  | cons line rest ih =>
    unfold hidden at h
    split at h
    · cases h
    · next hcover =>
      rw [unseen, ih h, passes]
      simp [hcover]

/-- In an open block a line is hidden. -/
theorem hidden_metadata (depth : Nat) (line : List Char) (rest : List (List Char)) :
    (metadata depth).hidden (line :: rest) = ((metadata depth).behind line).hidden rest :=
  if_neg (by simp)

/-- A line that neither starts nor ends a block, as far as the reader can tell. -/
theorem behind_other {line : List Char}
    (hopening : Text.startsWith ".annotation".toList (bare line) = false)
    (hnested : Text.startsWith ".subannotation".toList (bare line) = false)
    (hend : bare line ≠ ".end annotation".toList) (hendNested : bare line ≠ ".end subannotation".toList)
    (depth : Nat) : (metadata depth).behind line = .metadata depth := by
  unfold behind after
  dsimp only
  split
  · rfl
  · rw [hopening, hnested, Bool.or_self, if_neg Bool.false_ne_true, if_neg]
    rw [Bool.or_eq_true, decide_eq_true_eq, decide_eq_true_eq]
    exact not_or.2 ⟨hend, hendNested⟩

/-- An element leaves the count as it is. -/
theorem behind_element {line : List Char} (h : isElement (bare line)) (depth : Nat) :
    (metadata depth).behind line = .metadata depth := by
  simp only [isElement, Bool.and_eq_true, Bool.not_eq_true', decide_eq_true_eq] at h
  obtain ⟨⟨⟨⟨hopening, hnested⟩, -⟩, hend⟩, hendNested⟩ := h
  exact behind_other hopening hnested hend hendNested depth

/-- A nested annotation that starts with its directive is counted. -/
theorem behind_opening {line : List Char} (h : Text.startsWith ".subannotation".toList (bare line))
    (depth : Nat) : (metadata depth).behind line = .metadata (depth + 1) := by
  have hfull : (bare line).isEmpty = false := by
    cases hline : bare line with
    | nil =>
      rw [hline] at h
      cases h
    | cons c r => rfl
  unfold behind after
  dsimp only
  rw [hfull, if_neg Bool.false_ne_true, h, Bool.or_true, if_pos rfl]

/-- One that starts with the name of the value is not. -/
theorem behind_named {line : List Char} (h : opensNamed (bare line)) (depth : Nat) :
    (metadata depth).behind line = .metadata depth := by
  -- a line with a name in front does not start with a dot, as the directives do
  have hdot (r : List Char) : bare line ≠ '.' :: r := by
    intro hline
    rw [hline, opensNamed_dot] at h
    cases h
  have hstart (r : List Char) : Text.startsWith ('.' :: r) (bare line) = false := by
    rw [← Bool.not_eq_true]
    intro hstart
    obtain ⟨rest, hrest⟩ := Option.isSome_iff_exists.1 hstart
    exact hdot _ (Text.afterStart?_eq_some_iff.1 hrest)
  exact behind_other (hstart _) (hstart _) (hdot _) (hdot _) depth

/-- A line that ends a nested annotation is counted whatever it ends. -/
theorem behind_closing {line : List Char} (h : bare line = ".end subannotation".toList) (depth : Nat) :
    (metadata depth).behind line = if depth ≤ 1 then .none else .metadata (depth - 1) := by
  rw [behind, h]
  rfl

/-- Outside of blocks no line is hidden. -/
theorem hidden_none (line : List Char) (rest : List (List Char)) :
    Cover.none.hidden (line :: rest) = .none :=
  if_pos rfl

/-- How many nested annotations have the name of the value in front. -/
def namedCount (lines : List (List Char)) : Nat :=
  lines.countP (opensNamed <| bare ·)

/-- The count goes down by one for each name in front of a nested annotation, and some line is not hidden if
there are as many of these as blocks are open. -/
def CountsDown (body : List (List Char)) : Prop :=
  ∀ (depth : Nat) (line : List Char) (rest : List (List Char)),
    (metadata (depth + 1)).hidden (body ++ line :: rest) =
      if namedCount body ≤ depth then (metadata (depth + 1 - namedCount body)).hidden (line :: rest)
      else .none

/-- An element in front changes nothing. -/
theorem CountsDown.element {body : List (List Char)} (h : CountsDown body) {line : List Char}
    (hline : isElement (bare line)) : CountsDown (line :: body) := by
  intro depth next rest
  have hnamed : opensNamed (bare line) = false := by
    simp only [isElement, Bool.and_eq_true, Bool.not_eq_true'] at hline
    exact hline.1.1.2
  have hcount : namedCount (line :: body) = namedCount body :=
    List.countP_cons_of_neg (by simp [hnamed])
  rw [List.cons_append, hidden_metadata, behind_element hline, h, hcount]

/-- Behind the first line of a nested annotation: its body, the line that ends it, and what follows. The
line that ends it takes one more block away. -/
theorem CountsDown.closing {inner body : List (List Char)} (hinner : CountsDown inner)
    (hbody : CountsDown body) {closing : List Char} (hclosing : bare closing = ".end subannotation".toList)
    (depth : Nat) (line : List Char) (rest : List (List Char)) :
    (metadata (depth + 1)).hidden (inner ++ closing :: (body ++ line :: rest)) =
      if namedCount inner + namedCount body < depth then
        (metadata (depth - (namedCount inner + namedCount body))).hidden (line :: rest)
      else .none := by
  rw [hinner]
  -- within the body the count may come to its end before the closing line does
  by_cases hmany : namedCount inner ≤ depth
  · rw [if_pos hmany, hidden_metadata, behind_closing hclosing]
    by_cases hone : depth + 1 - namedCount inner ≤ 1
    · -- the block is over here, and a line follows
      obtain ⟨next, more, hlines⟩ : ∃ next more, body ++ line :: rest = next :: more :=
        List.exists_cons_of_ne_nil (by simp)
      rw [if_pos hone, hlines, hidden_none, if_neg (by omega)]
    · obtain ⟨below, rfl⟩ : ∃ below, depth = namedCount inner + below + 1 :=
        ⟨depth - namedCount inner - 1, by omega⟩
      have hleft : namedCount inner + below + 1 + 1 - namedCount inner - 1 = below + 1 := by omega
      rw [if_neg hone, hleft, hbody]
      by_cases hrest : namedCount body ≤ below
      · have hsame : below + 1 - namedCount body =
            namedCount inner + below + 1 - (namedCount inner + namedCount body) := by omega
        rw [if_pos hrest, if_pos (by omega), hsame]
      · rw [if_neg hrest, if_neg (by omega)]
  · rw [if_neg hmany, if_neg (by omega)]

/-- A nested annotation in front takes one away if it has a name. -/
theorem CountsDown.nested {inner body : List (List Char)} (hinner : CountsDown inner)
    (hbody : CountsDown body) {opening closing : List Char}
    (hopening : Text.startsWith ".subannotation".toList (bare opening) ∨ opensNamed (bare opening))
    (hclosing : bare closing = ".end subannotation".toList) :
    CountsDown (opening :: inner ++ closing :: body) := by
  intro depth line rest
  have hlines : opening :: inner ++ closing :: body ++ line :: rest =
      opening :: (inner ++ closing :: (body ++ line :: rest)) := by simp
  have hclosed : opensNamed (bare closing) = false := by
    rw [hclosing]
    rfl
  have hcount : namedCount (opening :: inner ++ closing :: body) =
      namedCount inner + namedCount body + if opensNamed (bare opening) then 1 else 0 := by
    simp [namedCount, List.countP_cons, hclosed]
  rw [hlines, hidden_metadata, hcount]
  -- with its directive in front the block is counted and closed, with a name it is only closed
  rcases hopening with hplain | hnamed
  · rw [behind_opening hplain, hinner.closing hbody hclosing, opensNamed_of_startsWith hplain]
    exact if_congr Nat.lt_succ_iff rfl rfl
  · rw [behind_named hnamed, hinner.closing hbody hclosing, if_pos hnamed, Nat.add_sub_add_right]
    exact if_congr Nat.lt_iff_add_one_le rfl rfl

/-- So it is for every body of an annotation. -/
theorem hidden_body {body : List (List Char)} (h : AnnotationBody body) : CountsDown body := by
  -- the induction is on the body, with one case for each way to go on
  induction h with
  | nil => exact fun depth line rest => rfl
  | element line body hline _ ih => exact ih.element hline
  | nested opening closing inner body hopening _ hclosing _ ihInner ihBody =>
    exact ihInner.nested ihBody hopening hclosing

end Cover

/-! ## Annotations in sources -/

namespace IsAnnotation

variable {block : List (List Char)}

/-- Behind its first line an annotation is hidden up to its last one if and only if no nested annotation
has a name in front. -/
theorem hidden_tail_iff (h : IsAnnotation block) :
    (Cover.metadata 1).hidden block.tail = some .none ↔ ∀ line ∈ block, opensNamed (bare line) = false := by
  obtain ⟨opening, closing, body, hopening, hbody, hclosing⟩ := h
  have hfirst : opensNamed (bare opening) = false := by
    unfold directiveName? at hopening
    split at hopening
    · next hline =>
      rw [hline]
      exact opensNamed_dot _
    · cases hopening
  have hlast : opensNamed (bare closing) = false := by
    rw [hclosing]
    rfl
  have hend : (Cover.metadata 1).hidden [closing] = some .none := by
    rw [Cover.hidden_metadata, Cover.behind, hclosing]
    rfl
  -- neither the first line nor the last one has a name in front
  have hall : (∀ line ∈ opening :: body ++ [closing], opensNamed (bare line) = false) ↔
      Cover.namedCount body = 0 := by
    rw [List.cons_append, List.forall_mem_cons, List.forall_mem_append, List.forall_mem_singleton]
    simp [hfirst, hlast, Cover.namedCount, List.countP_eq_zero]
  rw [hall, List.cons_append, List.tail_cons, Cover.hidden_body hbody 0 closing []]
  by_cases hcount : Cover.namedCount body = 0
  · simp [hcount, hend]
  · simp [hcount]

/-- The first line of an annotation is idle, and hides those behind it. -/
theorem unseen_iff (h : IsAnnotation block) :
    Cover.none.unseen block ↔ (Cover.metadata 1).unseen block.tail := by
  obtain ⟨opening, closing, body, hopening, -, -⟩ := h
  unfold directiveName? at hopening
  split at hopening
  · next directive hline =>
    have hname : String.ofList (splitMnemonic directive).1 = "annotation" := Option.some.inj hopening
    have hidle : isIdle (bare opening) := by
      rw [hline, isIdle, isDeclaration, hname]
      rfl
    have hbehind : Cover.none.behind opening = .metadata 1 := by
      rw [Cover.behind, hline, List.isEmpty_cons, if_neg Bool.false_ne_true, Cover.after, directiveName?,
        hname]
      rfl
    rw [List.cons_append, List.tail_cons, Cover.unseen, Cover.passes, hidle, hbehind]
    simp
  · cases hopening

end IsAnnotation

/-- An annotation can stand in every source, wherever no block is open, if and only if every line of it that
the reader takes to be outside of it is idle. It takes no line to be outside if and only if no nested
annotation has a name in front. -/
theorem annotation_invisible_iff {block : List (List Char)} (h : IsAnnotation block)
    (hends : ∀ line ∈ block, '\n' ∉ line) :
    (Invisible block ↔ Cover.none.unseen block) ∧
    ((Cover.metadata 1).hidden block.tail = some .none ↔ ∀ line ∈ block, opensNamed (bare line) = false) ∧
    ((∀ line ∈ block, opensNamed (bare line) = false) → Invisible block) := by
  refine ⟨invisible_iff hends, h.hidden_tail_iff, fun hnamed => ?_⟩
  exact invisible_of_unseen (h.unseen_iff.2 (Cover.unseen_of_hidden (h.hidden_tail_iff.2 hnamed)))

/-- An annotation with nested ones, one of them in the other, all without names. -/
def plainValues : List (List Char) :=
  [".annotation runtime LNote;", "  names = \x7b", "    \"a # b\"", "  \x7d",
    "  .subannotation LInner; # outer", "    .subannotation LInner;", "    .end subannotation",
    "    depth = 2", "  .end subannotation", ".end annotation"].map String.toList

/-- An annotation with a nested one that has its name in front, and a value behind it. -/
def namedValue : List (List Char) :=
  [".annotation runtime LNote;", "    value = .subannotation LInner;", "        depth = 1",
    "    .end subannotation", "    name = \"x\"", ".end annotation"].map String.toList

/-- The lines are an annotation. -/
theorem isAnnotation_plainValues : IsAnnotation plainValues := by
  have hdepth : AnnotationBody (["    depth = 2"].map String.toList) :=
    .element _ _ (by decide +kernel) .nil
  have hinner := AnnotationBody.nested "    .subannotation LInner;".toList "    .end subannotation".toList
    _ _ (.inl (by decide +kernel)) .nil (by decide +kernel) hdepth
  have houter := AnnotationBody.nested "  .subannotation LInner; # outer".toList
    "  .end subannotation".toList _ _ (.inl (by decide +kernel)) hinner (by decide +kernel) .nil
  have hnames := AnnotationBody.element "  names = \x7b".toList _ (by decide +kernel)
    (.element "    \"a # b\"".toList _ (by decide +kernel)
      (.element "  \x7d".toList _ (by decide +kernel) houter))
  exact .block _ _ _ (by decide +kernel) hnames (by decide +kernel)

/-- The lines are an annotation. -/
theorem isAnnotation_namedValue : IsAnnotation namedValue := by
  have hdepth : AnnotationBody (["        depth = 1"].map String.toList) :=
    .element _ _ (by decide +kernel) .nil
  have hname : AnnotationBody (["    name = \"x\""].map String.toList) :=
    .element _ _ (by decide +kernel) .nil
  have hvalue := AnnotationBody.nested "    value = .subannotation LInner;".toList
    "    .end subannotation".toList _ _ (.inr (by decide +kernel)) hdepth (by decide +kernel) hname
  exact .block _ _ _ (by decide +kernel) hvalue (by decide +kernel)

/-- A method up to a label. -/
def untilLabel : List (List Char) :=
  [".class LNoted;", ".method static one(I)V", "packed-switch p0, :table", ":table"].map String.toList

/-- The rest of the method, from the switch table on that the label names. -/
def fromTable : List (List Char) :=
  [".packed-switch 0x0", ":table", ".end packed-switch", ".end method"].map String.toList

/-- The method with lines between the label and its table. -/
def labelled (lines : List (List Char)) : String :=
  String.ofList (Text.ofLines (untilLabel ++ lines ++ fromTable))

/-- Between a label and its switch table the annotation without names changes nothing. The other one cannot
stand everywhere. -/
theorem plainValues_invisible :
    (ClassTable.readSource {} {} (labelled [])).error? = none ∧
    (ClassTable.readSource {} {} (labelled plainValues)).error? = none ∧
    (ClassTable.readSource {} {} (labelled plainValues)).classes =
      (ClassTable.readSource {} {} (labelled [])).classes ∧
    (Cover.metadata 1).hidden plainValues.tail = some .none ∧
    ¬ Invisible namedValue := by
  obtain ⟨-, hhidden, hinvisible⟩ := annotation_invisible_iff isAnnotation_plainValues (by decide +kernel)
  have hnamed : ∀ line ∈ plainValues, opensNamed (bare line) = false := by decide +kernel
  -- the lines have no line feed in them, so they are the lines of the text
  have hlines (lines : List (List Char)) (hends : ∀ line ∈ untilLabel ++ lines ++ fromTable, '\n' ∉ line) :
      Text.lines (labelled lines).toList = untilLabel ++ lines ++ fromTable := by
    rw [labelled, String.toList_ofList, Text.lines_ofLines hends]
  have haccepted : (ClassTable.readSource {} {} (labelled [])).error? = none := by
    rw [ClassTable.readSource_eq_readAll, hlines [] (by decide +kernel)]
    decide +kernel
  obtain ⟨haccepted', hsame⟩ := hinvisible hnamed {} {} {} (labelled []) (labelled plainValues) untilLabel
    fromTable (hlines [] (by decide +kernel)) (hlines plainValues (by decide +kernel)) (by decide +kernel)
    haccepted
  refine ⟨haccepted, haccepted', hsame, hhidden.2 hnamed, fun hvisible => ?_⟩
  obtain ⟨hunseen, -⟩ := annotation_invisible_iff isAnnotation_namedValue (by decide +kernel)
  exact absurd (hunseen.1 hvisible) (by decide +kernel)

/-- A class with a field. -/
def bareClass : String := "\n.class LNoted;\n.super Ljava/lang/Object;\n.field x:I\n"

/-- The class with an annotation in front of the field. -/
def notedClass : String :=
  "\n.class LNoted;\n.super Ljava/lang/Object;\n" ++
    ".annotation runtime LNote;\n    value = .subannotation LInner;\n" ++
    "        depth = 1\n    .end subannotation\n    name = \"x\"\n" ++ ".end annotation\n.field x:I\n"

/-- The lines of the class in front of the field. -/
def untilField : List (List Char) :=
  ["", ".class LNoted;", ".super Ljava/lang/Object;"].map String.toList

/-- With a name in front of the nested annotation, the value behind it is taken for an instruction. -/
theorem named_value_refused :
    IsAnnotation namedValue ∧
    Text.lines bareClass.toList = untilField ++ [".field x:I".toList] ∧
    Text.lines notedClass.toList = untilField ++ namedValue ++ [".field x:I".toList] ∧
    (({ classes := {}, journal := {} } : Reader).readLines untilField).1.block = .none ∧
    (ClassTable.readSource {} {} bareClass).error? = none ∧
    (ClassTable.readSource {} {} notedClass).error? = some (.directive 8 .outsideOfMethod) := by
  have hbare : Text.lines bareClass.toList = untilField ++ [".field x:I".toList] := by decide +kernel
  have hnoted : Text.lines notedClass.toList = untilField ++ namedValue ++ [".field x:I".toList] := by
    decide +kernel
  refine ⟨isAnnotation_namedValue, hbare, hnoted, by decide +kernel, ?_, ?_⟩
  · rw [ClassTable.readSource_eq_readAll, hbare]
    decide +kernel
  · rw [ClassTable.readSource_eq_readAll, hnoted]
    decide +kernel

end Smali
