/-!
# Cutting text

A text is cut at the first place where a separator stands; the separator belongs to neither part.
`lines` cuts a whole source. Main statements: `eq_append_of_cut` and `eq_append_of_cutWhere` (the two
parts with the separator between them are the text).
-/

namespace Smali.Text

/-- Cuts at the first character that satisfies `p`. -/
def cutWhere (p : Char → Bool) (s : List Char) : Option (List Char × List Char) :=
  match s.dropWhile (!p ·) with
  | [] => none
  | _ :: rest => some (s.takeWhile (!p ·), rest)

/-- What follows `start` in a text that starts with it. -/
def afterStart? : List Char → List Char → Option (List Char)
  | [], s => some s
  | _ :: _, [] => none
  | c :: start, d :: s => if c = d then afterStart? start s else none

/-- Whether the text starts with `start`. -/
def startsWith (start s : List Char) : Bool :=
  (afterStart? start s).isSome

/-- Cuts at the first occurrence of `sep`, which is not empty. -/
def cut (sep : List Char) : List Char → Option (List Char × List Char)
  | [] => none
  | c :: r =>
    match afterStart? sep (c :: r) with
    | some rest => some ([], rest)
    | none => (cut sep r).map fun (before, after) => (c :: before, after)

/-- Whether `part`, which is not empty, stands anywhere in the text. -/
def contains (part s : List Char) : Bool :=
  (cut part s).isSome

/-- Drops one carriage return at the end. -/
def dropReturn (s : List Char) : List Char :=
  if s.getLast? = some '\r' then s.dropLast else s

/-- The lines of a source. A line ends at a line feed, and a carriage return right before the line
feed belongs to the line's end; a line feed at the very end opens no further line. -/
def lines (s : List Char) : List (List Char) :=
  let pieces := s.splitOnP (· == '\n')
  -- the last piece has no line feed behind it, so a carriage return at its end stays
  pieces.dropLast.map dropReturn ++ pieces.getLast?.toList.filter (!·.isEmpty)

/-! ## The parts of a cut -/

theorem afterStart?_eq_some_iff {start s rest : List Char} :
    afterStart? start s = some rest ↔ s = start ++ rest := by
  fun_induction afterStart? start s with
  | case1 s => simp [eq_comm]
  | case2 => simp
  | case3 c start s ih => simp [ih]
  | case4 c start d s h => simp [Ne.symm h]

theorem eq_append_of_cutWhere {p : Char → Bool} {s before after : List Char}
    (h : cutWhere p s = some (before, after)) :
    ∃ c, p c ∧ s = before ++ c :: after ∧ ∀ d ∈ before, p d = false := by
  unfold cutWhere at h
  split at h
  · simp at h
  · rename_i c rest hrest
    obtain ⟨rfl, rfl⟩ : s.takeWhile (!p ·) = before ∧ rest = after := by simpa using h
    have hc : (!p c) = false := by
      have := List.head?_dropWhile_not (!p ·) s
      simpa [hrest] using this
    refine ⟨c, by simpa using hc, ?_, ?_⟩
    · rw [← hrest, List.takeWhile_append_dropWhile]
    · intro d hd
      have := List.all_eq_true.1 List.all_takeWhile d hd
      simpa using this

theorem eq_append_of_cut {sep s before after : List Char}
    (h : cut sep s = some (before, after)) : s = before ++ sep ++ after := by
  induction s generalizing before with
  | nil => simp [cut] at h
  | cons c r ih =>
    unfold cut at h
    split at h
    · rename_i rest hrest
      obtain ⟨rfl, rfl⟩ : [] = before ∧ rest = after := by simpa using h
      simpa using (afterStart?_eq_some_iff.1 hrest)
    · obtain ⟨⟨b, a⟩, hcut, hba⟩ := Option.map_eq_some_iff.1 h
      obtain ⟨rfl, rfl⟩ : c :: b = before ∧ a = after := by simpa using hba
      simp [ih hcut]

end Smali.Text
