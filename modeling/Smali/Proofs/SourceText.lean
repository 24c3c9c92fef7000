import Smali.Proofs.Reading

/-!
# The lines of a text

A text falls into its lines, and a part of a text into some of them, if it is cut off at the end of a line.
How a line ends is nothing to the reader: a carriage return at the end of a line is a blank like any other
and is trimmed away, and an empty line is passed over.

## Key results

- `lines_append_newline`: the lines of two texts with a line feed between them
- `exists_cut_lines`: a text can be cut behind any of its lines
- `Opened.readLines_closedLines`: a line feed behind the last line changes nothing
-/

namespace Smali

namespace Text

/-! ## Cutting a text behind a line -/

/-- The lines of a text that has a line feed behind it. -/
def closedLines (s : List Char) : List (List Char) :=
  (s.splitOnP (· == '\n')).map dropReturn

/-- The lines of two texts with a line feed between them. -/
theorem lines_append_newline (s rest : List Char) :
    lines (s ++ '\n' :: rest) = closedLines s ++ lines rest := by
  have hrest : rest.splitOnP (· == '\n') ≠ [] := List.splitOnP_ne_nil _ _
  have hsplit : (s ++ '\n' :: rest).splitOnP (· == '\n') =
      s.splitOnP (· == '\n') ++ rest.splitOnP (· == '\n') :=
    List.splitOnP_append_cons s rest (by simp)
  unfold lines closedLines
  dsimp only
  rw [hsplit, List.dropLast_append_of_ne_nil hrest, List.getLast?_append_of_ne_nil _ hrest,
    List.map_append, List.append_assoc]

theorem splitOnP_of_not_mem {s : List Char} (h : '\n' ∉ s) : s.splitOnP (· == '\n') = [s] := by
  refine List.splitOnP_eq_singleton fun c hc => ?_
  rw [beq_eq_false_iff_ne]
  rintro rfl
  exact h hc

/-- A text without a line feed is one line. -/
theorem closedLines_of_not_mem {s : List Char} (h : '\n' ∉ s) : closedLines s = [dropReturn s] := by
  rw [closedLines, splitOnP_of_not_mem h, List.map_singleton]

@[simp] theorem lines_nil : lines [] = [] := rfl

theorem length_lines_of_not_mem {s : List Char} (h : '\n' ∉ s) : (lines s).length ≤ 1 := by
  unfold lines
  dsimp only
  rw [splitOnP_of_not_mem h]
  simpa using List.length_filter_le _ [s]

/-- A text can be cut behind any of its lines. -/
theorem exists_cut_lines (s : List Char) (count : Nat) :
    ∃ before after, s = before ++ after ∧ lines before = (lines s).take count ∧
      lines after = (lines s).drop count := by
  -- the induction is on the number of lines
  induction count generalizing s with
  | zero => exact ⟨[], s, rfl, rfl, rfl⟩
  | succ count ih =>
    by_cases h : '\n' ∈ s
    · -- the first line is cut off, and the rest where the induction says
      obtain ⟨line, rest, rfl, hline⟩ := List.eq_append_cons_of_mem h
      obtain ⟨before, after, rfl, hbefore, hafter⟩ := ih rest
      refine ⟨line ++ '\n' :: before, after, by simp, ?_, ?_⟩
      · rw [lines_append_newline, lines_append_newline, closedLines_of_not_mem hline, hbefore]
        rfl
      · rw [lines_append_newline, closedLines_of_not_mem hline, hafter]
        rfl
    · have hlength := length_lines_of_not_mem h
      refine ⟨s, [], by simp, ?_, ?_⟩
      · rw [List.take_of_length_le (by omega)]
      · rw [List.drop_of_length_le (by omega), lines_nil]

/-! ## Ends of lines -/

theorem trimEnd_append_blank {c : Char} (h : isBlank c) (s : List Char) :
    trimEnd (s ++ [c]) = trimEnd s := by
  simp [trimEnd, h]

/-- A blank at the end of a text is trimmed away. -/
theorem trim_append_blank {c : Char} (h : isBlank c) (s : List Char) : trim (s ++ [c]) = trim s := by
  unfold trim trimStart
  rw [List.dropWhile_append]
  split
  · next hblank =>
    -- the text is all blank, and so is the longer one
    have hnil : s.dropWhile isBlank = [] := by simpa using hblank
    rw [hnil]
    simp [h]
  · exact trimEnd_append_blank h _

end Text

/-- A character behind a line stays there, unless it belongs to the comment. -/
theorem stripCommentFrom_concat {c : Char} (h : c ≠ '#') (q : QuoteState) (s : List Char) :
    stripCommentFrom q (s ++ [c]) = stripCommentFrom q s ∨
      stripCommentFrom q (s ++ [c]) = stripCommentFrom q s ++ [c] := by
  -- the induction follows the scanner; at the end of the text the character stands alone
  fun_induction stripCommentFrom q s with
  | case1 q =>
    refine .inr ?_
    by_cases hquote : c = '"'
    · cases q <;> simp [stripCommentFrom, hquote]
    · by_cases hescape : c = '\\' <;> cases q <;> simp [stripCommentFrom, hescape]
  | case2 r => exact .inl rfl
  | case3 r ih | case5 r ih | case6 r ih | case8 c r ih => simpa [stripCommentFrom] using ih
  | case4 c r hhash hquote ih => simpa [stripCommentFrom, hhash, hquote] using ih
  | case7 c r hescape hquote ih => simpa [stripCommentFrom, hescape, hquote] using ih

/-- A blank at the end of a line does not matter. -/
theorem bare_concat_blank {c : Char} (h : Text.isBlank c) (line : List Char) :
    bare (line ++ [c]) = bare line := by
  have hsign : c ≠ '#' := by
    rintro rfl
    cases h
  unfold bare stripComment
  cases stripCommentFrom_concat hsign .outside line with
  | inl hcomment => rw [hcomment]
  | inr hkept => rw [hkept, Text.trim_append_blank h]

/-- Blanks at the end of a line do not matter. -/
theorem bare_append_blanks {blanks : List Char} (h : blanks.all Text.isBlank) (line : List Char) :
    bare (line ++ blanks) = bare line := by
  induction blanks generalizing line with
  | nil => rw [List.append_nil]
  | cons c blanks ih =>
    obtain ⟨hc, hblanks⟩ := Bool.and_eq_true_iff.1 h
    have hassoc : line ++ c :: blanks = line ++ [c] ++ blanks := by simp
    rw [hassoc, ih hblanks, bare_concat_blank hc]

/-- A carriage return at the end of a line does not matter. -/
theorem bare_dropReturn (line : List Char) : bare (Text.dropReturn line) = bare line := by
  unfold Text.dropReturn
  split
  · next hreturn =>
    -- a carriage return is a blank
    obtain ⟨init, rfl⟩ := List.getLast?_eq_some_iff.1 hreturn
    rw [List.dropLast_concat, bare_concat_blank (by decide)]
  · rfl

namespace Opened

/-- The reader sees a line without its comment and without the blanks around it. -/
theorem readLine_congr {line line' : List Char} (h : bare line = bare line') (o : Opened) :
    o.readLine line = o.readLine line' := by
  unfold readLine
  rw [h]

theorem readLine_empty (o : Opened) : o.readLine [] = some ([], o) := rfl

/-- So it is for a single line. -/
theorem readLines_singleton_congr {line line' : List Char} (h : bare line = bare line') (o : Opened) :
    o.readLines [line] = o.readLines [line'] := by
  unfold readLines
  rw [readLine_congr h]

/-- A line feed behind the last line changes nothing. -/
theorem readLines_closedLines (o : Opened) (s : List Char) :
    o.readLines (Text.closedLines s) = o.readLines (Text.lines s) := by
  have hne : s.splitOnP (· == '\n') ≠ [] := List.splitOnP_ne_nil _ _
  obtain ⟨init, last, hsplit⟩ : ∃ init last, s.splitOnP (· == '\n') = init ++ [last] :=
    ⟨_, _, (List.dropLast_concat_getLast hne).symm⟩
  unfold Text.closedLines Text.lines
  dsimp only
  rw [hsplit, List.dropLast_concat, List.getLast?_concat, List.map_append, readLines_append,
    readLines_append]
  -- only the last line may look different
  have hlast (o : Opened) :
      o.readLines [Text.dropReturn last] = o.readLines ((some last).toList.filter (!·.isEmpty)) := by
    cases last with
    | nil => simp [Text.dropReturn, readLines, readLine_empty]
    | cons c r => exact readLines_singleton_congr (bare_dropReturn (c :: r)) o
  refine congrArg _ (funext fun x => ?_)
  rw [List.map_singleton, hlast]

end Opened

end Smali
