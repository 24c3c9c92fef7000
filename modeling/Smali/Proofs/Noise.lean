import Smali.Proofs.Scanners
import Smali.Proofs.Unseen

/-!
# Noise in sources

Disassemblers write much into a source that says nothing about its program: blank lines, comments,
directives for debuggers and for verifiers, tables of data. None of this matters, wherever it stands:
with such lines put between others, and with comments put behind lines, a source leaves the same table
of classes, so with the same fields, methods, labels, switch tables, instructions and numbers of
registers.

## Key results

- `unseen_of_noise`: no line of noise is seen
- `Noisy.classes?_eq`: lines with noise define what they define without
- `ClassTable.readSource_noisy`: so do sources
-/

namespace Smali

/-- Whether the line is a directive that the reader does not interpret. -/
def isUnknown (line : List Char) : Bool :=
  isIdle line && Cover.ofDirective (directiveName? line) = .none

/-- Lines that say nothing about a program. -/
inductive Noise : List (List Char) → Prop
  | blank (line : List Char) (hblank : line.all Text.isBlank) : Noise [line]
  | comment (blanks text : List Char) (hblanks : blanks.all Text.isBlank) : Noise [blanks ++ '#' :: text]
  | directive (line : List Char) (hunknown : isUnknown (bare line)) : Noise [line]
  /-- A block of data, up to the first line that ends it. -/
  | data (name : String) (hname : name = "sparse-switch" ∨ name = "array-data") (first last : List Char)
    (contents : List (List Char)) (hfirst : directiveName? (bare first) = some name)
    (hcontents : ∀ line ∈ contents, bare line ≠ (".end " ++ name).toList)
    (hlast : bare last = (".end " ++ name).toList) : Noise (first :: contents ++ [last])
  | nil : Noise []
  | append (xs ys : List (List Char)) (hxs : Noise xs) (hys : Noise ys) : Noise (xs ++ ys)

/-- The second lines are the first ones with noise put between them, at places where no block is open, and
with comments put behind lines whose quotes are closed. -/
inductive Noisy : Reader → List (List Char) → List (List Char) → Prop
  | done (r : Reader) : Noisy r [] []
  | line (r : Reader) (line : List Char) (rest rest' : List (List Char))
    (h : Noisy (r.readLine line).1 rest rest') : Noisy r (line :: rest) (line :: rest')
  | comment (r : Reader) (line blanks text : List Char) (rest rest' : List (List Char))
    (hquotes : QuotesClosed line) (hblanks : blanks.all Text.isBlank)
    (h : Noisy (r.readLine line).1 rest rest') :
    Noisy r (line :: rest) ((line ++ blanks ++ '#' :: text) :: rest')
  | noise (r : Reader) (lines rest rest' : List (List Char)) (hblock : r.block = .none)
    (hnoise : Noise lines) (h : Noisy r rest rest') : Noisy r rest (lines ++ rest')

/-! ## Noise is not seen -/

namespace Cover

/-- A line of which nothing is left. -/
theorem unseen_empty {line : List Char} (h : bare line = []) : Cover.none.unseen [line] := by
  rw [unseen, behind, h]
  rfl

/-- A directive that the reader does not interpret. -/
theorem unseen_unknown {line : List Char} (h : isUnknown (bare line)) : Cover.none.unseen [line] := by
  obtain ⟨hidle, hcover⟩ := Bool.and_eq_true_iff.1 h
  have hbehind : Cover.none.behind line = .none := by
    unfold behind
    split
    · rfl
    · exact of_decide_eq_true hcover
  rw [unseen, passes, hidle, hbehind, Bool.or_true, Bool.or_true]
  rfl

/-- A block of data hides its contents, and nothing behind the line that ends it. -/
theorem unseen_contents {closing last : List Char} {contents : List (List Char)} (hclosing : closing ≠ [])
    (hcontents : ∀ line ∈ contents, bare line ≠ closing) (hlast : bare last = closing) :
    (Cover.data closing).unseen (contents ++ [last]) := by
  have hpasses (line : List Char) : (Cover.data closing).passes line = true := rfl
  -- the induction is on the lines of the block
  induction contents with
  | nil =>
    -- the last line is hidden too, but nothing behind it
    have hbehind : (Cover.data closing).behind last = .none := by
      rw [behind, hlast, if_neg (by simpa using hclosing), after, if_pos rfl]
    rw [List.nil_append, unseen, hpasses, hbehind, Bool.or_true]
    rfl
  | cons line rest ih =>
    obtain ⟨hline, hrest⟩ := List.forall_mem_cons.1 hcontents
    have hbehind : (Cover.data closing).behind line = .data closing := by
      unfold behind
      split
      · rfl
      · exact if_neg hline
    rw [List.cons_append, unseen, hpasses, hbehind, ih hrest, Bool.or_true]
    rfl

theorem behind_data {name : String} {first : List Char}
    (hname : name = "sparse-switch" ∨ name = "array-data") (h : directiveName? (bare first) = some name) :
    Cover.none.behind first = .data (".end " ++ name).toList := by
  have hfull : ¬ (bare first).isEmpty := by
    intro hempty
    rw [List.isEmpty_iff.1 hempty] at h
    cases h
  rw [behind, if_neg hfull, after, h]
  obtain rfl | rfl := hname <;> rfl

theorem isIdle_data {name : String} {line : List Char}
    (hname : name = "sparse-switch" ∨ name = "array-data") (h : directiveName? line = some name) :
    isIdle line := by
  unfold directiveName? at h
  split at h
  · rw [isIdle, isDeclaration, Option.some.inj h]
    obtain rfl | rfl := hname <;> rfl
  · cases h

end Cover

/-- No line of noise is seen. -/
theorem unseen_of_noise {lines : List (List Char)} (h : Noise lines) : Cover.none.unseen lines := by
  induction h with
  | blank line hblank => exact Cover.unseen_empty (bare_append_blanks hblank [])
  | comment blanks text hblanks => exact Cover.unseen_empty (bare_append_comment .nil hblanks text)
  | directive line hunknown => exact Cover.unseen_unknown hunknown
  | data name hname first last contents hfirst hcontents hlast =>
    have hclosing : (".end " ++ name).toList ≠ [] := by simp
    rw [List.cons_append, Cover.unseen, Cover.passes, Cover.isIdle_data hname hfirst, Bool.or_true,
      Bool.or_true, Bool.true_and, Cover.behind_data hname hfirst]
    exact Cover.unseen_contents hclosing hcontents hlast
  | nil => rfl
  | append xs ys _ _ ihxs ihys => rw [Cover.unseen_append ihxs, ihys]

/-! ## Sources with noise -/

/-- Two lines that the reader cannot tell apart, and behind them lines that define the same. -/
theorem Opened.classes?_cons_congr {r : Reader} {line line' : List Char} {rest rest' : List (List Char)}
    (hbare : bare line' = bare line)
    (hrest : (r.readLine line).1.opened.classes? rest' = (r.readLine line).1.opened.classes? rest) :
    r.opened.classes? (line' :: rest') = r.opened.classes? (line :: rest) := by
  cases hline : r.opened.readLine line with
  | none =>
    rw [classes?_cons_refused hline, classes?_cons_refused ((readLine_congr hbare _).trans hline)]
  | some x =>
    obtain ⟨r', hr', hopened, -⟩ := Reader.readLine_eq hline
    rw [hr', hopened] at hrest
    rw [classes?_cons hline, classes?_cons ((readLine_congr hbare _).trans hline), hrest]

/-- Lines with noise define what they define without. -/
theorem Noisy.classes?_eq {r : Reader} {lines lines' : List (List Char)} (h : Noisy r lines lines') :
    r.opened.classes? lines' = r.opened.classes? lines := by
  -- the induction is on the way in which the noise was put in
  induction h with
  | done r => rfl
  | line r line rest rest' _ ih => exact Opened.classes?_cons_congr rfl ih
  | comment r line blanks text rest rest' hquotes hblanks _ ih =>
    exact Opened.classes?_cons_congr (bare_append_comment hquotes hblanks text) ih
  | noise r lines rest rest' hblock hnoise _ ih =>
    -- behind the noise the reader is where it was
    rw [Opened.classes?_unseen hblock (unseen_of_noise hnoise), ih]

/-- Noise does not change what a source defines: with it the source is right if and only if it is right
without, and then both leave the same table. -/
theorem ClassTable.readSource_noisy {t : ClassTable} {journal : Journal} {source source' : String}
    (h : Noisy { classes := t, journal } (Text.lines source.toList) (Text.lines source'.toList))
    (journal' : Journal) :
    ((t.readSource journal' source').error? = none ↔ (t.readSource journal source).error? = none) ∧
      ((t.readSource journal source).error? = none →
        (t.readSource journal' source').classes = (t.readSource journal source).classes) := by
  have hsame : sourceClasses? source' = sourceClasses? source := h.classes?_eq
  refine ⟨?_, ?_⟩
  · rw [readSource_accepted_iff, readSource_accepted_iff, hsame]
  · intro haccepted
    obtain ⟨cs, hcs⟩ := readSource_accepted_iff.1 haccepted
    rw [(readSource_eq hcs t journal).2, (readSource_eq (hsame.trans hcs) t journal').2]

/-- A class whose method has a text and a switch table. -/
def quietLines : List (List Char) :=
  [".class LQuiet;".toList, ".method static f(I)V".toList, "const-string v0, \"\\\"#\"".toList,
    ":table".toList, ".packed-switch 0x0".toList, ":table".toList, ".end packed-switch".toList,
    ".end method".toList]

/-- The same class with noise in it. -/
def noisyLines : List (List Char) :=
  ["# \"".toList, ".class LQuiet;".toList, ".source \"Quiet.java\"".toList, ".method static f(I)V".toList,
    "const-string v0, \"\\\"#\" # \"".toList, ":table".toList, " ".toList, ".line 12".toList,
    ".array-data 4".toList, ".end method".toList, "# .end array-data".toList, ".end array-data".toList,
    ".packed-switch 0x0".toList, ":table#".toList, ".end packed-switch".toList, ".end method".toList]

/-- The second lines are the first ones with noise. -/
theorem noisy_noisyLines : Noisy { classes := {}, journal := {} } quietLines noisyLines := by
  have htext : QuotesClosed "const-string v0, \"\\\"#\"".toList :=
    .plain_append (s := "const-string v0, ".toList) (by decide)
      (.quoted ['\\', '"', '#'] [] (.escaped '"' _ (.plain '#' _ (by decide) (by decide) .nil)) .nil)
  have hlabel : QuotesClosed ":table".toList := .plain_append (s := ":table".toList) (by decide) .nil
  have hdata : Noise [".array-data 4".toList, ".end method".toList, "# .end array-data".toList,
      ".end array-data".toList] :=
    .data "array-data" (.inr rfl) _ _ [".end method".toList, "# .end array-data".toList] (by decide +kernel)
      (by decide +kernel) (by decide +kernel)
  have hsource : Noise [".source \"Quiet.java\"".toList] := .directive _ (by decide +kernel)
  have hlines : Noise (" ".toList :: ".line 12".toList :: _) :=
    .append _ _ (.blank " ".toList (by decide))
      (.append _ _ (.directive ".line 12".toList (by decide +kernel)) hdata)
  -- a comment in front of the class, then the lines in turn
  refine .noise _ _ _ _ rfl (.comment [] [' ', '"'] (by decide)) ?_
  refine .line _ _ _ _ ?_
  refine .noise _ _ _ _ (by decide +kernel) hsource ?_
  refine .line _ _ _ _ (.comment _ _ [' '] [' ', '"'] _ _ htext (by decide) (.line _ _ _ _ ?_))
  refine .noise _ _ _ _ (by decide +kernel) hlines ?_
  refine .line _ _ _ _ (.comment _ _ [] [] _ _ hlabel (by decide) ?_)
  exact .line _ _ _ _ (.line _ _ _ _ (.done _))

/-- Noise in front of the class, between a label and its switch table, behind a text with a quote in it and
behind a line of the table. -/
theorem noisyLines_same :
    (ClassTable.readSource {} {} (String.ofList (Text.ofLines quietLines))).error? = none ∧
    (ClassTable.readSource {} {} (String.ofList (Text.ofLines noisyLines))).error? = none ∧
    (ClassTable.readSource {} {} (String.ofList (Text.ofLines noisyLines))).classes =
      (ClassTable.readSource {} {} (String.ofList (Text.ofLines quietLines))).classes := by
  have hlines {lines : List (List Char)} (hends : ∀ line ∈ lines, '\n' ∉ line) :
      Text.lines (String.ofList (Text.ofLines lines)).toList = lines := by
    rw [String.toList_ofList, Text.lines_ofLines hends]
  have hquiet := hlines (show ∀ line ∈ quietLines, '\n' ∉ line by decide +kernel)
  have hnoisy := hlines (show ∀ line ∈ noisyLines, '\n' ∉ line by decide +kernel)
  have haccepted :
      (ClassTable.readSource {} {} (String.ofList (Text.ofLines quietLines))).error? = none := by
    rw [ClassTable.readSource_eq_readAll, hquiet]
    decide +kernel
  have hsame : Noisy { classes := {}, journal := {} }
      (Text.lines (String.ofList (Text.ofLines quietLines)).toList)
      (Text.lines (String.ofList (Text.ofLines noisyLines)).toList) := by
    rw [hquiet, hnoisy]
    exact noisy_noisyLines
  obtain ⟨hiff, hclasses⟩ := ClassTable.readSource_noisy hsame {}
  exact ⟨haccepted, hiff.2 haccepted, hclasses haccepted⟩

end Smali
