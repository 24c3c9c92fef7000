import Smali.Proofs.SourceText

/-!
# Scanning a line

A line is scanned three times: for its comment, for its first word, and for the tokens of its operands.
The first and the last scan have to know where a quoted word ends. It ends at the first quote that no
backslash escapes (`QuotedBody`), so both find the same end, and a comment may be put behind every line
whose quotes are closed (`QuotesClosed`).

## Key results

- `bare_append_comment`: a comment behind a line whose quotes are closed does not matter
- `Text.cut_eq_some_iff`, `Text.cutAt_eq_some_iff`: a text is cut at the first separator
- `splitMnemonic_append`: the first word of a line
- `Token.scan_word`, `Token.scan_group`, `Token.scan_quoted`: the first token of an operand text
-/

namespace Smali

/-- What can stand between two quotes: a quote or a backslash only behind a backslash. -/
inductive QuotedBody : List Char → Prop
  | nil : QuotedBody []
  | plain (c : Char) (r : List Char) (hquote : c ≠ '"') (hescape : c ≠ '\\') (hr : QuotedBody r) :
    QuotedBody (c :: r)
  | escaped (c : Char) (r : List Char) (hr : QuotedBody r) : QuotedBody ('\\' :: c :: r)

/-- Two bodies make one. -/
theorem QuotedBody.append {w w' : List Char} (h : QuotedBody w) (h' : QuotedBody w') :
    QuotedBody (w ++ w') := by
  induction h with
  | nil => exact h'
  | plain c r hquote hescape _ ih => exact .plain c _ hquote hescape ih
  | escaped c r _ ih => exact .escaped c _ ih

/-- Lines in which every quote that opens a word has one that closes it. What stands in a comment does not
matter. -/
inductive QuotesClosed : List Char → Prop
  | nil : QuotesClosed []
  | comment (text : List Char) : QuotesClosed ('#' :: text)
  | plain (c : Char) (r : List Char) (hquote : c ≠ '"') (hr : QuotesClosed r) : QuotesClosed (c :: r)
  | quoted (w r : List Char) (hw : QuotedBody w) (hr : QuotesClosed r) :
    QuotesClosed ('"' :: w ++ '"' :: r)

namespace QuotesClosed

/-- What has no quote may stand in front. -/
theorem plain_append {s r : List Char} (hs : '"' ∉ s) (h : QuotesClosed r) :
    QuotesClosed (s ++ r) := by
  induction s with
  | nil => exact h
  | cons c s ih =>
    obtain ⟨hc, hs⟩ := List.ne_and_not_mem_of_not_mem_cons hs
    exact .plain c _ (Ne.symm hc) (ih hs)

/-- What has no quote may stand behind. -/
theorem append_plain {line s : List Char} (h : QuotesClosed line) (hs : '"' ∉ s) :
    QuotesClosed (line ++ s) := by
  -- the induction is on the way in which the quotes are closed
  induction h with
  | nil =>
    have hs := plain_append hs .nil
    rwa [List.append_nil] at hs
  | comment text => exact .comment (text ++ s)
  | plain c r hquote _ ih => exact .plain c _ hquote ih
  | quoted w r hw _ ih =>
    rw [List.append_assoc, List.cons_append]
    exact .quoted w _ hw ih

end QuotesClosed

/-! ## Comments -/

/-- No comment starts inside of a quoted word. -/
theorem stripCommentFrom_quoted {w : List Char} (h : QuotedBody w) (r : List Char) :
    stripCommentFrom .outside ('"' :: w ++ '"' :: r) = '"' :: w ++ '"' :: stripCommentFrom .outside r := by
  -- the induction is on the body; behind a backslash the scanner looks at no character
  have hinside : stripCommentFrom .inside (w ++ '"' :: r) = w ++ '"' :: stripCommentFrom .outside r := by
    induction h with
    | nil => simp [stripCommentFrom]
    | plain c w hquote hescape _ ih => simp [stripCommentFrom, ih]
    | escaped c w _ ih => simp [stripCommentFrom, ih]
  simp [stripCommentFrom, hinside]

/-- Outside of quoted words, what has neither a quote nor a number sign in it stays. -/
theorem stripCommentFrom_plain {s : List Char} (hquote : '"' ∉ s) (hsign : '#' ∉ s) (r : List Char) :
    stripCommentFrom .outside (s ++ r) = s ++ stripCommentFrom .outside r := by
  induction s with
  | nil => rfl
  | cons c s ih =>
    obtain ⟨hc, hquote⟩ := List.ne_and_not_mem_of_not_mem_cons hquote
    obtain ⟨hc', hsign⟩ := List.ne_and_not_mem_of_not_mem_cons hsign
    simp [stripCommentFrom, Ne.symm hc, Ne.symm hc', ih hquote hsign]

/-- A comment behind a line whose quotes are closed is cut off. -/
theorem stripComment_append {line : List Char} (h : QuotesClosed line) (text : List Char) :
    stripComment (line ++ '#' :: text) = stripComment line := by
  unfold stripComment
  induction h with
  | nil => simp [stripCommentFrom]
  | comment rest => simp [stripCommentFrom]
  | plain c r hquote _ ih =>
    by_cases hsign : c = '#'
    · simp [stripCommentFrom, hsign]
    · simp [stripCommentFrom, ih]
  | quoted w r hw _ ih =>
    -- the sign stands behind the rest, which is scanned outside of quotes again
    have hlonger : '"' :: w ++ '"' :: r ++ '#' :: text = '"' :: w ++ '"' :: (r ++ '#' :: text) := by simp
    rw [hlonger, stripCommentFrom_quoted hw, stripCommentFrom_quoted hw, ih]

/-- A comment behind a line whose quotes are closed does not matter. -/
theorem bare_append_comment {line blanks : List Char} (hquotes : QuotesClosed line)
    (hblanks : blanks.all Text.isBlank) (text : List Char) :
    bare (line ++ blanks ++ '#' :: text) = bare line := by
  have hquote : '"' ∉ blanks := by
    intro h
    cases List.all_eq_true.1 hblanks _ h
  calc bare (line ++ blanks ++ '#' :: text)
    _ = bare (line ++ blanks) := congrArg Text.trim (stripComment_append (hquotes.append_plain hquote) text)
    _ = bare line := bare_append_blanks hblanks line

/-! ## First occurrences -/

namespace Text

/-- Nothing is cut off from a text that starts in another way. -/
theorem afterStart?_eq_none_iff {start s : List Char} : afterStart? start s = none ↔ ¬ start <+: s := by
  rw [Option.eq_none_iff_forall_ne_some]
  constructor
  · rintro h ⟨rest, rfl⟩
    exact h rest (afterStart?_eq_some_iff.2 rfl)
  · intro h rest hrest
    exact h ⟨rest, (afterStart?_eq_some_iff.1 hrest).symm⟩

/-- A text is cut in front of a separator that does not stand anywhere before, not even half inside of the
one that is found. -/
theorem cut_eq_some_iff {sep s before after : List Char} (hsep : sep ≠ []) :
    cut sep s = some (before, after) ↔
      s = before ++ sep ++ after ∧ ¬ sep <:+: before ++ sep.dropLast := by
  -- the separator does not stand in what is left of it without its last character
  have hshort : ¬ sep <:+: sep.dropLast := by
    intro h
    have hle := h.length_le
    have hpos := List.length_pos_iff.2 hsep
    rw [List.length_dropLast] at hle
    omega
  have hlonger (b a : List Char) : b ++ sep.dropLast <+: b ++ sep ++ a := by
    rw [List.append_assoc, List.prefix_append_right_inj]
    exact (List.dropLast_prefix sep).trans (List.prefix_append sep a)
  constructor
  · intro h
    refine ⟨eq_append_of_cut h, ?_⟩
    induction s generalizing before with
    | nil => cases h
    | cons c r ih =>
      rw [cut] at h
      split at h
      · obtain ⟨rfl, -⟩ := Prod.mk.inj (Option.some.inj h)
        exact hshort
      · next hstart =>
        obtain ⟨⟨b, a⟩, hcut, heq⟩ := Option.map_eq_some_iff.1 h
        obtain ⟨rfl, rfl⟩ := Prod.mk.inj heq
        rw [List.cons_append, List.infix_cons_iff]
        rintro (hstarts | hinfix)
        · -- an occurrence at the very start would have been found
          rw [eq_append_of_cut hcut] at hstart
          exact afterStart?_eq_none_iff.1 hstart (hstarts.trans (hlonger (c :: b) a))
        · exact ih hcut hinfix
  · rintro ⟨rfl, hfirst⟩
    induction before with
    | nil =>
      obtain ⟨c, sep, rfl⟩ := List.exists_cons_of_ne_nil hsep
      have hstart : afterStart? (c :: sep) (c :: (sep ++ after)) = some after :=
        afterStart?_eq_some_iff.2 rfl
      simp only [List.nil_append, List.cons_append]
      rw [cut, hstart]
    | cons c before ih =>
      rw [List.cons_append, List.infix_cons_iff, not_or] at hfirst
      have hstart : afterStart? sep (c :: (before ++ sep ++ after)) = none := by
        rw [afterStart?_eq_none_iff]
        intro hstarts
        -- such an occurrence ends before the one that was put there
        refine hfirst.1 (List.prefix_of_prefix_length_le hstarts (hlonger (c :: before) after) ?_)
        have hpos := List.length_pos_iff.2 hsep
        rw [List.length_cons, List.length_append, List.length_dropLast]
        omega
      rw [List.cons_append, List.cons_append, cut, hstart]
      dsimp only
      rw [ih hfirst.2]
      rfl

/-- A text is not cut exactly if the separator does not stand in it. -/
theorem cut_eq_none_iff {sep s : List Char} (hsep : sep ≠ []) : cut sep s = none ↔ ¬ sep <:+: s := by
  induction s with
  | nil => simp [cut, hsep]
  | cons c r ih =>
    rw [List.infix_cons_iff, not_or, ← ih, ← afterStart?_eq_none_iff, cut]
    cases afterStart? sep (c :: r) <;> simp

/-- A text is cut at the first character of the kind. -/
theorem cutWhere_append {p : Char → Bool} {s : List Char} {c : Char} (hs : s.any p = false) (hc : p c)
    (r : List Char) : cutWhere p (s ++ c :: r) = some (s, r) := by
  have hnot : ∀ d ∈ s, (!p d) = true := by simpa using hs
  unfold cutWhere
  rw [List.dropWhile_append_of_pos hnot, List.takeWhile_append_of_pos hnot]
  simp [hc]

/-- A text is cut at a character that does not stand anywhere before. -/
theorem cutAt_eq_some_iff {c : Char} {s before after : List Char} :
    cutWhere (· == c) s = some (before, after) ↔ s = before ++ c :: after ∧ c ∉ before := by
  constructor
  · intro h
    obtain ⟨d, hd, rfl, hbefore⟩ := eq_append_of_cutWhere h
    obtain rfl : d = c := beq_iff_eq.1 hd
    refine ⟨rfl, fun hmem => ?_⟩
    exact beq_eq_false_iff_ne.1 (hbefore d hmem) rfl
  · rintro ⟨rfl, hbefore⟩
    refine cutWhere_append (p := (· == c)) ?_ (beq_self_eq_true c) after
    rw [List.any_eq_false]
    intro d hd heq
    obtain rfl : d = c := beq_iff_eq.1 heq
    exact hbefore hd

end Text

/-! ## The first word -/

namespace Text

/-- What starts and ends with characters that are not blank is trimmed. -/
theorem trim_of_ends {s : List Char} {c d : Char} (hfirst : s.head? = some c) (hc : isBlank c = false)
    (hlast : s.getLast? = some d) (hd : isBlank d = false) : trim s = s := by
  have hstart : trimStart s = s := by
    obtain ⟨r, rfl⟩ := List.head?_eq_some_iff.1 hfirst
    simp [trimStart, hc]
  obtain ⟨init, rfl⟩ := List.getLast?_eq_some_iff.1 hlast
  rw [trim, hstart]
  simp [trimEnd, hd]

end Text

/-- A line starts with its first word. -/
theorem splitMnemonic_append {name rest : List Char} {blank c d : Char} (hne : name ≠ [])
    (hname : name.any Text.isBlank = false) (hblank : Text.isBlank blank)
    (hfirst : rest.head? = some c) (hc : Text.isBlank c = false) (hlast : rest.getLast? = some d)
    (hd : Text.isBlank d = false) : splitMnemonic (name ++ blank :: rest) = (name, rest) := by
  -- the line has no blanks at its ends
  have hline : Text.trim (name ++ blank :: rest) = name ++ blank :: rest := by
    obtain ⟨e, name, rfl⟩ := List.exists_cons_of_ne_nil hne
    have he : Text.isBlank e = false := (Bool.or_eq_false_iff.1 hname).1
    have hend : (e :: name ++ blank :: rest).getLast? = some d := by
      rw [List.getLast?_append_of_ne_nil _ (List.cons_ne_nil _ _), List.getLast?_cons, hlast]
      rfl
    exact Text.trim_of_ends rfl he hend hd
  unfold splitMnemonic
  rw [hline, Text.cutWhere_append hname hblank]
  exact congrArg (name, ·) (Text.trim_of_ends hfirst hc hlast hd)

/-! ## Tokens -/

namespace Token

/-- The word ends at the quote that closes it. -/
theorem closeQuote_quoted {w : List Char} (h : QuotedBody w) (r : List Char) :
    closeQuote false (w ++ '"' :: r) = some (w ++ ['"'], r) := by
  induction h with
  | nil => simp [closeQuote]
  | plain c w hquote hescape _ ih => simp [closeQuote, ih]
  | escaped c w _ ih => simp [closeQuote, ih]

theorem scan_separator {c : Char} (h : isSeparator c) (r : List Char) : scan (c :: r) = scan r := by
  rw [scan, if_pos h]

/-- A plain word ends in front of a separator or with the text. -/
theorem scan_word {c : Char} {w r : List Char} (hc : isSeparator c = false) (hgroup : c ≠ '\x7b')
    (hquote : c ≠ '"') (hw : w.any isSeparator = false) (hr : ∀ d, r.head? = some d → isSeparator d) :
    scan (c :: w ++ r) = (scan r).map (.word (String.ofList (c :: w)) :: ·) := by
  have hnot : ∀ e ∈ w, (!isSeparator e) = true := by simpa using hw
  -- the word ends where a separator stands, or with the text
  have hends : r.dropWhile (!isSeparator ·) = r ∧ r.takeWhile (!isSeparator ·) = [] := by
    cases r with
    | nil => exact ⟨rfl, rfl⟩
    | cons d r => simp [hr d rfl]
  have hrest : (w ++ r).dropWhile (!isSeparator ·) = r := by
    rw [List.dropWhile_append_of_pos hnot, hends.1]
  have hword : (w ++ r).takeWhile (!isSeparator ·) = w := by
    rw [List.takeWhile_append_of_pos hnot, hends.2, List.append_nil]
  rw [List.cons_append, scan, if_neg (by simp [hc]), if_neg (by simpa using hgroup),
    if_neg (by simpa using hquote), hrest, hword]

theorem scan_plain {c d : Char} {w : List Char} (hc : isSeparator c = false) (hgroup : c ≠ '\x7b')
    (hquote : c ≠ '"') (hw : ∀ e ∈ w, isSeparator e = false) (hd : isSeparator d) (r : List Char) :
    scan (c :: w ++ d :: r) = (scan r).map (.word (String.ofList (c :: w)) :: ·) := by
  rw [scan_word hc hgroup hquote (by simpa using hw) (by simpa using hd), scan_separator hd]

/-- A group ends at the first closing brace. -/
theorem scan_group {inner : List Char} (h : '\x7d' ∉ inner) (r : List Char) :
    scan ('\x7b' :: inner ++ '\x7d' :: r) = (scan r).map (group inner :: ·) := by
  have hcut : Text.cutWhere (· == '\x7d') (inner ++ '\x7d' :: r) = some (inner, r) :=
    Text.cutAt_eq_some_iff.2 ⟨rfl, h⟩
  rw [List.cons_append, scan, if_neg (by decide), if_pos (by decide)]
  split
  · next hopen =>
    rw [hcut] at hopen
    cases hopen
  · next inner' rest hclose =>
    rw [hcut] at hclose
    obtain ⟨rfl, rfl⟩ := Prod.mk.inj (Option.some.inj hclose)
    rfl

/-- A quoted word is a token with its quotes. -/
theorem scan_quoted {w : List Char} (h : QuotedBody w) (r : List Char) :
    scan ('"' :: w ++ '"' :: r) = (scan r).map (.word (String.ofList ('"' :: w ++ ['"'])) :: ·) := by
  rw [List.cons_append, scan, if_neg (by decide), if_neg (by decide), if_pos (by decide)]
  split
  · next hopen =>
    rw [closeQuote_quoted h] at hopen
    cases hopen
  · next v rest hclose =>
    rw [closeQuote_quoted h] at hclose
    obtain ⟨rfl, rfl⟩ := Prod.mk.inj (Option.some.inj hclose)
    rfl

end Token

end Smali
