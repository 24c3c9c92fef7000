import Smali.Proofs.Scanners

/-!
# The texts of tokens

Tokens are written in four ways: as plain words, as quoted words, as lists and as ranges (`WrittenAs`).
Each ends where its text ends, whatever follows, except that a plain word needs a separator behind it. So
tokens that are written one after the other with separators between them are read back one by one
(`WrittenOut`).

A text that cannot be read has a place between two tokens (`AtToken`) where a group or a quoted word is
opened that has no end (`Unclosed`).

## Key results

- `closeQuote_eq_some_iff`: where a quoted word ends
- `Lexeme.scan_append`: a token is read off the front of a text
- `scan_eq_none_iff`: which texts cannot be read
- `scanOperands_round_trip`: what is read of tokens that are written out, and which texts are refused
-/

namespace Smali

/-! ## Blanks around a text -/

namespace Text

/-- The text has no blank at its ends. -/
def Trimmed (s : List Char) : Prop :=
  ∀ c, s.head? = some c ∨ s.getLast? = some c → isBlank c = false

/-- Nothing is cut off. -/
theorem trim_of_trimmed {s : List Char} (h : Trimmed s) : trim s = s := by
  cases s with
  | nil => rfl
  | cons c r =>
    have hlast := List.getLast?_eq_some_getLast (List.cons_ne_nil c r)
    exact trim_of_ends rfl (h c (.inl rfl)) hlast (h _ (.inr hlast))

/-- What does not hold a character stands on one side of it. -/
theorem infix_append_cons_iff {l a b : List Char} {c : Char} (hc : c ∉ l) :
    l <:+: a ++ c :: b ↔ l <:+: a ∨ l <:+: b := by
  constructor
  · intro h
    -- it stands on the left, on the right, or across; where it goes across it would hold the character
    rcases List.infix_append_iff.1 h with h | h | ⟨x, y, rfl, hx, hy⟩
    · exact .inl h
    · rcases List.infix_cons_iff.1 h with hstarts | hinfix
      · cases l with
        | nil => exact .inl List.nil_infix
        | cons d l =>
          obtain rfl : d = c := (List.cons_prefix_cons.1 hstarts).1
          exact absurd List.mem_cons_self hc
      · exact .inr hinfix
    · cases y with
      | nil =>
        rw [List.append_nil]
        exact .inl hx.isInfix
      | cons d y =>
        obtain rfl : d = c := (List.cons_prefix_cons.1 hy).1
        exact absurd (List.mem_append_right x List.mem_cons_self) hc
  · rintro (h | h)
    · exact List.infix_append_of_infix_left h
    · exact List.infix_append_of_infix_right (List.infix_cons h)

section Padding

variable {before after : List Char} (hbefore : before.all isBlank) (hafter : after.all isBlank)
include hbefore hafter

/-- Blanks around a text are cut off, and no more. -/
theorem trim_padded {s : List Char} (hs : Trimmed s) : trim (before ++ s ++ after) = s := by
  -- the induction is on the blanks, which are cut off from the end one by one
  have hend (r : List Char) : trim (r ++ after) = trim r := by
    induction after generalizing r with
    | nil => rw [List.append_nil]
    | cons c after ih =>
      obtain ⟨hc, hafter⟩ := Bool.and_eq_true_iff.1 hafter
      have hassoc : r ++ c :: after = r ++ [c] ++ after := by simp
      rw [hassoc, ih hafter, trim_append_blank hc]
  have hstart : trim (before ++ s) = trim s := by
    unfold trim trimStart
    rw [List.dropWhile_append_of_pos (List.all_eq_true.1 hbefore)]
  rw [hend, hstart, trim_of_trimmed hs]

/-- What is not empty and has no blank in it stands in the text or not at all. -/
theorem infix_padded_iff {l : List Char} (hne : l ≠ []) (hl : l.any isBlank = false) (s : List Char) :
    l <:+: before ++ s ++ after ↔ l <:+: s := by
  have hnot {c : Char} (hc : isBlank c) : c ∉ l := fun hmem => List.any_eq_false.1 hl c hmem hc
  -- no blank at either side can be part of it
  have hstart : l <:+: before ++ s ↔ l <:+: s := by
    induction before with
    | nil => rw [List.nil_append]
    | cons c before ih =>
      obtain ⟨hc, hbefore⟩ := Bool.and_eq_true_iff.1 hbefore
      have hside := infix_append_cons_iff (a := []) (b := before ++ s) (hnot hc)
      rw [List.infix_nil, or_iff_right hne, ih hbefore] at hside
      exact hside
  have hend (r : List Char) : l <:+: r ++ after ↔ l <:+: r := by
    induction after generalizing r with
    | nil => rw [List.append_nil]
    | cons c after ih =>
      obtain ⟨hc, hafter⟩ := Bool.and_eq_true_iff.1 hafter
      have hblank := ih hafter []
      rw [List.nil_append, List.infix_nil] at hblank
      rw [infix_append_cons_iff (hnot hc), hblank, or_iff_left hne]
  rw [hend, hstart]

/-- Blanks around a text add no other character. -/
theorem mem_padded_iff {c : Char} (hc : isBlank c = false) (s : List Char) :
    c ∈ before ++ s ++ after ↔ c ∈ s := by
  rw [← List.singleton_infix_iff, ← List.singleton_infix_iff]
  exact infix_padded_iff hbefore hafter (List.cons_ne_nil c []) (by simpa using hc) s

end Padding

end Text

namespace Token

/-! ## Ways to write tokens -/

/-- An item as it stands in a list, with blanks around it. -/
structure ItemText where
  before : List Char
  item : List Char
  after : List Char
  blank_before : before.all Text.isBlank
  blank_after : after.all Text.isBlank
  ne : item ≠ []
  trimmed : Text.Trimmed item
  comma : ',' ∉ item
  brace : '\x7d' ∉ item
  dots : ¬ ['.', '.'] <:+: item

/-- The item with its blanks. -/
def ItemText.text (i : ItemText) : List Char :=
  i.before ++ i.item ++ i.after

/-- The text is one way to write the token. -/
inductive WrittenAs : Token → List Char → Prop
  | plain (w : List Char) (hne : w ≠ []) (hbrace : w.head? ≠ some '\x7b') (hquote : w.head? ≠ some '"')
    (h : w.any isSeparator = false) : WrittenAs (.word (String.ofList w)) w
  | quoted (w : List Char) (h : QuotedBody w) :
    WrittenAs (.word (String.ofList ('"' :: w ++ ['"']))) ('"' :: w ++ ['"'])
  | list (items : List ItemText) :
    WrittenAs (.list (items.map fun i => String.ofList i.item))
      ('\x7b' :: [','].intercalate (items.map ItemText.text) ++ ['\x7d'])
  | range (first last : List Char) (hfirst : Text.Trimmed first) (hlast : Text.Trimmed last)
    (hbrace : '\x7d' ∉ first) (hbrace' : '\x7d' ∉ last) (hdots : ¬ ['.', '.'] <:+: first) :
    WrittenAs (.range (String.ofList first) (String.ofList last))
      ('\x7b' :: (first ++ " .. ".toList ++ last) ++ ['\x7d'])

/-- The text is one way to write the tokens one after the other: there is a separator between two of them,
and any number of separators may stand there, in front and behind. -/
inductive WrittenOut : List Token → List Char → Prop
  | nil (seps : List Char) (h : seps.all isSeparator) : WrittenOut [] seps
  | last (seps w : List Char) (t : Token) (h : seps.all isSeparator) (ht : t.WrittenAs w) :
    WrittenOut [t] (seps ++ w)
  | cons (seps w rest : List Char) (c : Char) (t : Token) (ts : List Token) (h : seps.all isSeparator)
    (ht : t.WrittenAs w) (hc : isSeparator c) (hts : WrittenOut ts rest) :
    WrittenOut (t :: ts) (seps ++ w ++ c :: rest)

/-! ## Groups -/

/-- Nothing without a comma reaches across one. -/
theorem infix_intercalate_iff {l : List Char} (hne : l ≠ []) (hl : ',' ∉ l) (parts : List (List Char)) :
    l <:+: [','].intercalate parts ↔ ∃ part ∈ parts, l <:+: part := by
  -- the induction is on the parts, each of which is followed by a comma but the last one
  induction parts with
  | nil => simp [hne]
  | cons part parts ih =>
    cases parts with
    | nil => simp
    | cons next parts =>
      rw [List.intercalate_cons_cons, List.append_assoc, List.singleton_append,
        Text.infix_append_cons_iff hl, ih]
      simp

namespace ItemText

/-- Without its blanks the item is left. -/
theorem trim_text (i : ItemText) : Text.trim i.text = i.item :=
  Text.trim_padded i.blank_before i.blank_after i.trimmed

/-- An item has no comma and no brace in it, nor have its blanks. -/
theorem not_mem_text (i : ItemText) : ',' ∉ i.text ∧ '\x7d' ∉ i.text := by
  constructor
  · exact fun h => i.comma ((Text.mem_padded_iff i.blank_before i.blank_after (by decide) i.item).1 h)
  · exact fun h => i.brace ((Text.mem_padded_iff i.blank_before i.blank_after (by decide) i.item).1 h)

/-- There are no two dots in it either. -/
theorem not_infix_text (i : ItemText) : ¬ ['.', '.'] <:+: i.text := fun h =>
  i.dots ((Text.infix_padded_iff i.blank_before i.blank_after (List.cons_ne_nil _ _) (by decide) _).1 h)

/-- Items with commas between them do not close the brace. -/
theorem not_mem_intercalate (items : List ItemText) :
    '\x7d' ∉ [','].intercalate (items.map text) := by
  rw [← List.singleton_infix_iff, infix_intercalate_iff (List.cons_ne_nil _ _) (by decide)]
  rintro ⟨part, hpart, hbrace⟩
  obtain ⟨i, -, rfl⟩ := List.mem_map.1 hpart
  exact i.not_mem_text.2 ((List.singleton_infix_iff _ _).1 hbrace)

/-- Between commas the items are found as they are. -/
theorem splitOnP_intercalate (items : List ItemText) :
    ((([','].intercalate (items.map text)).splitOnP (· == ',')).map Text.trim).filter (!·.isEmpty) =
      items.map item := by
  cases items with
  | nil => rfl
  | cons i items =>
    -- no item has a comma, so the commas between them are where the text is cut
    have hfree : ∀ part ∈ (i :: items).map text, ',' ∉ part := by
      rw [List.forall_mem_map]
      exact fun i _ => i.not_mem_text.1
    have hparts := List.splitOn_intercalate ',' hfree (by simp)
    have hfull : ∀ part ∈ (i :: items).map item, (!part.isEmpty) = true := by
      rw [List.forall_mem_map]
      exact fun i _ => by simpa using i.ne
    rw [← List.splitOn_eq_splitOnP, hparts, List.map_map]
    have htrim : Text.trim ∘ text = item := funext trim_text
    rw [htrim, List.filter_eq_self.2 hfull]

end ItemText

/-- Items with commas between them are a list. -/
theorem group_list (items : List ItemText) :
    group ([','].intercalate (items.map ItemText.text)) =
      .list (items.map fun i => String.ofList i.item) := by
  -- no two dots stand in an item or across a comma, so it is no range
  have hdots : Text.cut ['.', '.'] ([','].intercalate (items.map ItemText.text)) = none := by
    rw [Text.cut_eq_none_iff (List.cons_ne_nil _ _),
      infix_intercalate_iff (List.cons_ne_nil _ _) (by decide)]
    rintro ⟨part, hpart, hinfix⟩
    obtain ⟨i, -, rfl⟩ := List.mem_map.1 hpart
    exact i.not_infix_text hinfix
  rw [group, hdots]
  dsimp only
  rw [ItemText.splitOnP_intercalate, List.map_map]
  rfl

/-- Two texts with two dots between them are a range. -/
theorem group_range {first last : List Char} (hfirst : Text.Trimmed first) (hlast : Text.Trimmed last)
    (hdots : ¬ ['.', '.'] <:+: first) :
    group (first ++ " .. ".toList ++ last) = .range (String.ofList first) (String.ofList last) := by
  -- the blank keeps a dot at the end of the first text apart from the two dots
  have hcut : Text.cut ['.', '.'] (first ++ " .. ".toList ++ last) = some (first ++ [' '], ' ' :: last) := by
    refine (Text.cut_eq_some_iff (List.cons_ne_nil _ _)).2 ⟨?_, ?_⟩
    · show first ++ [' ', '.', '.', ' '] ++ last = _
      simp
    · rw [List.append_assoc, List.singleton_append, Text.infix_append_cons_iff (by decide), not_or]
      exact ⟨hdots, by decide⟩
  have hbefore : Text.trim ([] ++ first ++ [' ']) = first := Text.trim_padded rfl (by decide) hfirst
  have hafter : Text.trim ([' '] ++ last ++ []) = last := Text.trim_padded (by decide) rfl hlast
  rw [List.append_nil] at hafter
  rw [group, hcut]
  exact congrArg₂ (fun a b => range (String.ofList a) (String.ofList b)) hbefore hafter

/-! ## Reading off the front -/

/-- The text is a token in front of a rest: its end shows, whatever the rest is, except that a plain word
needs a separator behind it. -/
inductive Lexeme : Token → List Char → List Char → Prop
  | plain (c : Char) (w rest : List Char) (hbrace : c ≠ '\x7b') (hquote : c ≠ '"')
    (h : (c :: w).any isSeparator = false) (hrest : ∀ d, rest.head? = some d → isSeparator d) :
    Lexeme (.word (String.ofList (c :: w))) (c :: w) rest
  | quoted (w rest : List Char) (h : QuotedBody w) :
    Lexeme (.word (String.ofList ('"' :: w ++ ['"']))) ('"' :: w ++ ['"']) rest
  | group (inner rest : List Char) (h : '\x7d' ∉ inner) :
    Lexeme (group inner) ('\x7b' :: inner ++ ['\x7d']) rest

/-- A token in front of a rest is read off. -/
theorem Lexeme.scan_append {t : Token} {w rest : List Char} (h : t.Lexeme w rest) :
    scan (w ++ rest) = (scan rest).map (t :: ·) := by
  cases h with
  | plain c w rest hbrace hquote h hrest =>
    obtain ⟨hc, hw⟩ := Bool.or_eq_false_iff.1 h
    exact scan_word hc hbrace hquote hw hrest
  | quoted w rest h =>
    rw [List.append_assoc]
    exact scan_quoted h rest
  | group inner rest h =>
    rw [List.append_assoc]
    exact scan_group h rest

/-- What is written in one of the ways is read off if a separator follows, or nothing. -/
theorem WrittenAs.lexeme {t : Token} {w rest : List Char} (h : t.WrittenAs w)
    (hrest : ∀ d, rest.head? = some d → isSeparator d) : t.Lexeme w rest := by
  cases h with
  -- a list and a range are groups, of which the scanner sees the inner text only
  | plain w hne hbrace hquote h =>
    obtain ⟨c, w, rfl⟩ := List.exists_cons_of_ne_nil hne
    exact .plain c w rest (fun hc => hbrace (congrArg some hc)) (fun hc => hquote (congrArg some hc)) h hrest
  | quoted w h => exact .quoted w rest h
  | list items =>
    rw [← group_list]
    exact .group _ rest (ItemText.not_mem_intercalate items)
  | range first last hfirst hlast hbrace hbrace' hdots =>
    rw [← group_range hfirst hlast hdots]
    refine .group _ rest ?_
    rw [List.mem_append, List.mem_append, not_or, not_or]
    exact ⟨⟨hbrace, by decide⟩, hbrace'⟩

/-- Separators in front are skipped. -/
theorem scan_separators {seps : List Char} (h : seps.all isSeparator) (rest : List Char) :
    scan (seps ++ rest) = scan rest := by
  induction seps with
  | nil => rfl
  | cons c seps ih =>
    obtain ⟨hc, hseps⟩ := Bool.and_eq_true_iff.1 h
    rw [List.cons_append, scan_separator hc, ih hseps]

/-- Tokens that are written out are read back. -/
theorem WrittenOut.scan_eq {ts : List Token} {s : List Char} (h : WrittenOut ts s) :
    scan s = some ts := by
  -- the induction is on the way in which the tokens are written out
  induction h with
  | nil seps h =>
    have hscan := scan_separators h []
    rwa [List.append_nil, scan] at hscan
  | last seps w t h ht =>
    have hlexeme : t.Lexeme w [] := ht.lexeme fun d hd => by cases hd
    have hfront := hlexeme.scan_append
    rw [List.append_nil, scan] at hfront
    rw [scan_separators h, hfront]
    rfl
  | cons seps w rest c t ts h ht hc _ ih =>
    have hlexeme : t.Lexeme w (c :: rest) := ht.lexeme (by simpa using hc)
    rw [List.append_assoc, scan_separators h, hlexeme.scan_append, scan_separator hc, ih]
    rfl

/-! ## Texts that cannot be read -/

/-- A quoted word ends at the first quote that is not escaped. -/
theorem closeQuote_eq_some_iff {r v rest : List Char} :
    closeQuote false r = some (v, rest) ↔
      ∃ w, QuotedBody w ∧ v = w ++ ['"'] ∧ r = w ++ '"' :: rest := by
  constructor
  · -- behind a backslash, the backslash is part of the body
    suffices h : ∀ escaped, closeQuote escaped r = some (v, rest) →
        ∃ w, QuotedBody (if escaped then '\\' :: w else w) ∧ v = w ++ ['"'] ∧ r = w ++ '"' :: rest from
      h false
    intro escaped h
    fun_induction closeQuote escaped r generalizing v with
    | case1 => cases h
    -- a character behind a backslash, a backslash, the closing quote, and any other character
    | case2 c r ih =>
      obtain ⟨⟨u, _⟩, hclose, heq⟩ := Option.map_eq_some_iff.1 h
      obtain ⟨rfl, rfl⟩ := Prod.mk.inj heq
      obtain ⟨w, hw, rfl, rfl⟩ := ih hclose
      exact ⟨c :: w, .escaped c w hw, rfl, rfl⟩
    | case3 r ih =>
      obtain ⟨⟨u, _⟩, hclose, heq⟩ := Option.map_eq_some_iff.1 h
      obtain ⟨rfl, rfl⟩ := Prod.mk.inj heq
      obtain ⟨w, hw, rfl, rfl⟩ := ih hclose
      exact ⟨'\\' :: w, hw, rfl, rfl⟩
    | case4 r =>
      obtain ⟨rfl, rfl⟩ := Prod.mk.inj (Option.some.inj h)
      exact ⟨[], .nil, rfl, rfl⟩
    | case5 c r hescape hquote ih =>
      obtain ⟨⟨u, _⟩, hclose, heq⟩ := Option.map_eq_some_iff.1 h
      obtain ⟨rfl, rfl⟩ := Prod.mk.inj heq
      obtain ⟨w, hw, rfl, rfl⟩ := ih hclose
      exact ⟨c :: w, .plain c w hquote hescape hw, rfl, rfl⟩
  · rintro ⟨w, hw, rfl, rfl⟩
    exact closeQuote_quoted hw rest

/-- The rest of a text from a place between two of its tokens on. -/
inductive AtToken : List Char → List Char → Prop
  | here (s : List Char) : AtToken s s
  | separator (c : Char) (s rest : List Char) (hc : isSeparator c) (h : AtToken s rest) :
    AtToken (c :: s) rest
  | token (t : Token) (w s rest : List Char) (ht : t.Lexeme w s) (h : AtToken s rest) :
    AtToken (w ++ s) rest

/-- The text starts with a brace or with a quote that nothing closes. -/
inductive Unclosed : List Char → Prop
  | group (r : List Char) (h : '\x7d' ∉ r) : Unclosed ('\x7b' :: r)
  | quoted (r : List Char) (h : ∀ w after, QuotedBody w → r ≠ w ++ '"' :: after) : Unclosed ('"' :: r)

/-- What is left open cannot be read. -/
theorem Unclosed.scan_eq_none {s : List Char} (h : Unclosed s) : scan s = none := by
  cases h with
  | group r h =>
    rw [scan, if_neg (by decide), if_pos (by decide)]
    split
    · rfl
    · next inner rest hclose =>
      obtain ⟨rfl, -⟩ := Text.cutAt_eq_some_iff.1 hclose
      exact absurd (List.mem_append_right inner List.mem_cons_self) h
  | quoted r h =>
    rw [scan, if_neg (by decide), if_neg (by decide), if_pos (by decide)]
    split
    · rfl
    · next v rest hclose =>
      obtain ⟨w, hw, -, heq⟩ := closeQuote_eq_some_iff.1 hclose
      exact absurd heq (h w rest hw)

/-- A text cannot be read if and only if something is left open at one of its tokens. -/
theorem scan_eq_none_iff {s : List Char} : scan s = none ↔ ∃ rest, AtToken s rest ∧ Unclosed rest := by
  constructor
  · -- where the scanner goes on it steps to the next token; where it stops something is left open
    intro h
    fun_induction scan s with
    | case1 => cases h
    | case2 c r hc ih =>
      obtain ⟨rest, hat, hopen⟩ := ih h
      exact ⟨rest, .separator c r rest hc hat, hopen⟩
    -- a brace without a closing one
    | case3 c r hc hbrace hcut =>
      obtain rfl := beq_iff_eq.1 hbrace
      refine ⟨_, .here _, .group r fun hmem => ?_⟩
      obtain ⟨before, after, rfl, hbefore⟩ := List.eq_append_cons_of_mem hmem
      rw [Text.cutAt_eq_some_iff.2 ⟨rfl, hbefore⟩] at hcut
      cases hcut
    | case4 c r hc hbrace inner after hcut _ ih =>
      obtain rfl := beq_iff_eq.1 hbrace
      obtain ⟨rfl, hinner⟩ := Text.cutAt_eq_some_iff.1 hcut
      obtain ⟨rest, hat, hopen⟩ := ih (Option.map_eq_none_iff.1 h)
      have hstep := AtToken.token _ _ after rest (.group inner after hinner) hat
      rw [List.append_assoc] at hstep
      exact ⟨rest, hstep, hopen⟩
    -- a quote without a closing one
    | case5 c r hc hbrace hquote hclose =>
      obtain rfl := beq_iff_eq.1 hquote
      refine ⟨_, .here _, .quoted r fun w after hw heq => ?_⟩
      rw [closeQuote_eq_some_iff.2 ⟨w, hw, rfl, heq⟩] at hclose
      cases hclose
    | case6 c r hc hbrace hquote v after hclose _ ih =>
      obtain rfl := beq_iff_eq.1 hquote
      obtain ⟨w, hw, rfl, rfl⟩ := closeQuote_eq_some_iff.1 hclose
      obtain ⟨rest, hat, hopen⟩ := ih (Option.map_eq_none_iff.1 h)
      have hstep := AtToken.token _ _ after rest (.quoted w after hw) hat
      rw [List.append_assoc] at hstep
      exact ⟨rest, hstep, hopen⟩
    | case7 c r hc hbrace hquote _ ih =>
      obtain ⟨rest, hat, hopen⟩ := ih (Option.map_eq_none_iff.1 h)
      -- a plain word goes up to the first separator, so one follows it or nothing does
      have hword : (c :: r.takeWhile (!isSeparator ·)).any isSeparator = false := by
        rw [List.any_cons, Bool.or_eq_false_iff]
        refine ⟨by simpa using hc, List.any_eq_false.2 fun d hd => ?_⟩
        simpa using List.all_eq_true.1 List.all_takeWhile d hd
      have hends : ∀ d, (r.dropWhile (!isSeparator ·)).head? = some d → isSeparator d := by
        intro d hd
        have hnot := List.head?_dropWhile_not (!isSeparator ·) r
        rw [hd] at hnot
        simpa using hnot
      have hstep := AtToken.token _ _ _ rest
        (.plain c _ _ (by simpa using hbrace) (by simpa using hquote) hword hends) hat
      rw [List.cons_append, List.takeWhile_append_dropWhile] at hstep
      exact ⟨rest, hstep, hopen⟩
  · rintro ⟨rest, hat, hopen⟩
    induction hat with
    | here s => exact hopen.scan_eq_none
    | separator c s rest hc _ ih => rw [scan_separator hc, ih hopen]
    | token t w s rest ht _ ih => rw [ht.scan_append, ih hopen, Option.map_none]

end Token

/-- Tokens that are written out with separators between them are read back exactly. A text is refused if
and only if a brace or a quote that nothing closes stands at one of its tokens, and the error shows the
whole text. -/
theorem scanOperands_round_trip :
    (∀ ts s, Token.WrittenOut ts s → Token.scanOperands s = .ok ts) ∧
    (∀ s e, Token.scanOperands s = .error e ↔
      e = .unterminatedOperand (String.ofList s) ∧ ∃ rest, Token.AtToken s rest ∧ Token.Unclosed rest) := by
  constructor
  · intro ts s h
    rw [Token.scanOperands, h.scan_eq]
  · intro s e
    rw [← Token.scan_eq_none_iff, Token.scanOperands]
    cases Token.scan s with
    | none => simp [eq_comm]
    | some ts => simp

/-- A text in which each token holds what ends or opens the others. -/
def crowdedText : List Char :=
  ", v0\x7b\", \"a \\\" \x7d\"\t\x7b v0 ,v1.\x7d ,\x7bv0. .. v3..\x7d".toList

/-- The tokens that it stands for. -/
def crowdedTokens : List Token :=
  [.word "v0\x7b\"", .word "\"a \\\" \x7d\"", .list ["v0", "v1."], .range "v0." "v3.."]

/-- The items of the list in the text. -/
def crowdedItems : List Token.ItemText :=
  [{ before := [' '], item := ['v', '0'], after := [' '], blank_before := by decide, blank_after := by decide,
     ne := by decide, trimmed := by rintro c (h | h) <;> cases h <;> rfl, comma := by decide,
     brace := by decide, dots := by decide },
   { before := [], item := ['v', '1', '.'], after := [], blank_before := rfl, blank_after := rfl,
     ne := by decide, trimmed := by rintro c (h | h) <;> cases h <;> rfl, comma := by decide,
     brace := by decide, dots := by decide }]

/-- The crowded text is read back, and a text with an open quote behind a group is refused. -/
theorem crowdedText_round_trip :
    Token.WrittenOut crowdedTokens crowdedText ∧ Token.scanOperands crowdedText = .ok crowdedTokens ∧
    Token.Unclosed "\"v1\\\"".toList ∧
    Token.scanOperands "\x7bv0\x7d\"v1\\\"".toList = .error (.unterminatedOperand "\x7bv0\x7d\"v1\\\"") := by
  have hquoted : QuotedBody ['a', ' ', '\\', '"', ' ', '\x7d'] :=
    .plain _ _ (by decide) (by decide) (.plain _ _ (by decide) (by decide) (.escaped _ _
      (.plain _ _ (by decide) (by decide) (.plain _ _ (by decide) (by decide) .nil))))
  have hwritten : Token.WrittenOut crowdedTokens crowdedText :=
    .cons [',', ' '] ['v', '0', '\x7b', '"'] _ ',' _ _ (by decide)
      (.plain _ (by decide) (by decide) (by decide) (by decide)) (by decide) <|
    .cons [' '] _ _ '\t' _ _ (by decide) (.quoted _ hquoted) (by decide) <|
    .cons [] _ _ ' ' _ _ (by decide) (.list crowdedItems) (by decide) <|
    .last [','] _ _ (by decide)
      (.range ['v', '0', '.'] ['v', '3', '.', '.'] (by rintro c (h | h) <;> cases h <;> rfl)
        (by rintro c (h | h) <;> cases h <;> rfl) (by decide) (by decide) (by decide))
  have hopen : Token.Unclosed "\"v1\\\"".toList := by
    refine .quoted _ fun w after hw heq => ?_
    have hclose := Token.closeQuote_eq_some_iff.2 ⟨w, hw, rfl, heq⟩
    cases hclose
  refine ⟨hwritten, scanOperands_round_trip.1 _ _ hwritten, hopen, ?_⟩
  refine (scanOperands_round_trip.2 _ _).2 ⟨rfl, _, ?_, hopen⟩
  exact .token _ ['\x7b', 'v', '0', '\x7d'] _ _ (.group ['v', '0'] _ (by decide)) (.here _)

end Smali
