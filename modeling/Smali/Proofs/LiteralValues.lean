import Mathlib.Data.Nat.Digits.Defs
import Smali.Proofs.StringLiterals

/-!
# Values of integer literals

What an integer literal looks like is said by writing it (`Literal.Spelling`): perhaps a minus, perhaps `0x` or
`0X`, perhaps a plus, digits in either case, and letters that mark a width. Its number is that of the digits in
their base, with the sign of the minus; the plus and the letters do not count. There is no bound on it.

The reader takes a text apart from both ends, the sign and the base in front and the letters behind. Neither
`x` nor one of the letters is a digit, so the digits are what is left. It reads the number of every spelling
and nothing but spellings; a bound is looked at only when the number is known.

## Key results

- `Text.readDigits_text`, `Text.exists_of_readDigits`: the texts that are read as numerals
- `Literal.number?_text`, `Literal.exists_of_number?`: the texts that are read as numbers
- `Literal.parse_exact`: literals are read as their numbers or refused
-/

namespace Smali

/-! ## Digits -/

namespace Text

/-- The value of a digit, by its code. -/
theorem digitValue_eq (c : Char) : digitValue c =
    if 48 ≤ c.toNat ∧ c.toNat ≤ 57 then some (c.toNat - 48)
    else if 97 ≤ c.toNat ∧ c.toNat ≤ 102 then some (c.toNat - 97 + 10)
    else if 65 ≤ c.toNat ∧ c.toNat ≤ 70 then some (c.toNat - 65 + 10)
    else none := by
  simp only [digitValue, Char.le_def, UInt32.le_iff_toNat_le]
  rfl

/-- The code of a letter in lower case. -/
theorem toNat_toLower (c : Char) :
    c.toLower.toNat = if 65 ≤ c.toNat ∧ c.toNat ≤ 90 then c.toNat + 32 else c.toNat := by
  have hcond : (c.val ≥ 'A'.val ∧ c.val ≤ 'Z'.val) ↔ (65 ≤ c.toNat ∧ c.toNat ≤ 90) := by
    rw [ge_iff_le, UInt32.le_iff_toNat_le, UInt32.le_iff_toNat_le]
    rfl
  -- a capital is moved by 32 places, which stays below the bound of a word
  by_cases hc : 65 ≤ c.toNat ∧ c.toNat ≤ 90
  · have hlower : c.toLower = _ := dif_pos (hcond.2 hc)
    rw [hlower, if_pos hc]
    show (c.val + 32).toNat = c.val.toNat + 32
    have hsmall : c.val.toNat ≤ 90 := hc.2
    rw [UInt32.toNat_add]
    exact Nat.mod_eq_of_lt (by show c.val.toNat + 32 < _; omega)
  · have hlower : c.toLower = c := dif_neg (mt hcond.1 hc)
    rw [hlower, if_neg hc]

/-- A letter is the same digit in either case. -/
theorem digitValue_toLower (c : Char) : digitValue c.toLower = digitValue c := by
  rw [digitValue_eq, digitValue_eq, toNat_toLower]
  split
  · -- a capital stands 32 places in front of its small letter
    grind
  · rfl

/-- Digits have the same number in either case. -/
theorem digitsFrom_map_toLower (base acc : Nat) (s : List Char) :
    digitsFrom base acc (s.map Char.toLower) = digitsFrom base acc s := by
  -- the induction is on the digits, with the number so far
  induction s generalizing acc with
  | nil => rfl
  | cons c s ih => simp only [List.map_cons, digitsFrom, digitIn, digitValue_toLower, ih]

/-- A numeral has the same number in either case. -/
theorem readDigits_map_toLower (base : Nat) (s : List Char) :
    readDigits base (s.map Char.toLower) = readDigits base s := by
  simp only [readDigits, digitsFrom_map_toLower, List.isEmpty_map]

end Text

namespace HexDigit

/-- A digit has its value in each base above it. -/
theorem digitIn_char_of_lt {base : Nat} {h : HexDigit} (hlt : h.value.val < base) :
    Text.digitIn base h.char = some h.value.val := by
  have hvalue := (Option.filter_eq_some_iff.1 h.digitIn_char).1
  simp [Text.digitIn, hvalue, hlt]

/-- A digit is no sign and does not mark a width. -/
theorem char_ne_minus (h : HexDigit) : h.char ≠ '-' ∧ Literal.isWidthMark h.char = false := by
  have hall : ∀ (value : Fin 16) (upper : Bool), (HexDigit.mk value upper).char ≠ '-' ∧
      Literal.isWidthMark (HexDigit.mk value upper).char = false := by decide
  exact hall h.value h.upper

/-- The characters from zero to nine are digits. -/
theorem exists_decimal {c : Char} (hlow : 48 ≤ c.toNat) (hhigh : c.toNat ≤ 57) :
    ∃ h : HexDigit, h.char = c ∧ h.value.val = c.toNat - 48 := by
  let value : Fin 16 := ⟨c.toNat - 48, by omega⟩
  have hvalue : value < 10 := show c.toNat - 48 < 10 by omega
  -- the code of the character is the code of zero and the value
  have hsum : '0'.toNat + value = c.toNat := show 48 + (c.toNat - 48) = c.toNat by omega
  refine ⟨⟨value, false⟩, ?_, rfl⟩
  rw [char, if_pos hvalue, hsum, Char.ofNat_toNat]

/-- The letters from the first one on are digits, in either case. -/
theorem exists_letter {c : Char} (upper : Bool) {first : Nat}
    (hfirst : (if upper then 'A' else 'a').toNat = first) (hlow : first ≤ c.toNat)
    (hhigh : c.toNat ≤ first + 5) : ∃ h : HexDigit, h.char = c ∧ h.value.val = c.toNat - first + 10 := by
  let value : Fin 16 := ⟨c.toNat - first + 10, by omega⟩
  have hvalue : ¬ value < 10 := show ¬ c.toNat - first + 10 < 10 by omega
  have hsum : first + (value - 10) = c.toNat :=
    show first + (c.toNat - first + 10 - 10) = c.toNat by omega
  refine ⟨⟨value, upper⟩, ?_, rfl⟩
  rw [char, if_neg hvalue, hfirst, hsum, Char.ofNat_toNat]

/-- What is read as a digit is the character of a digit below the base. -/
theorem exists_of_digitIn {base d : Nat} {c : Char} (h : Text.digitIn base c = some d) :
    d < base ∧ ∃ digit : HexDigit, digit.char = c ∧ digit.value.val = d := by
  obtain ⟨hvalue, hlt⟩ := Option.filter_eq_some_iff.1 h
  refine ⟨by simpa using hlt, ?_⟩
  -- the three ranges of codes are decimal digits, small letters and capitals
  rw [Text.digitValue_eq] at hvalue
  split at hvalue
  · next hc => exact Option.some.inj hvalue ▸ exists_decimal hc.1 hc.2
  · split at hvalue
    · next hc => exact Option.some.inj hvalue ▸ exists_letter false rfl hc.1 hc.2
    · split at hvalue
      · next hc => exact Option.some.inj hvalue ▸ exists_letter true rfl hc.1 hc.2
      · cases hvalue

end HexDigit

/-! ## Numerals -/

/-- One digit or more in a base. -/
structure Numeral (base : Nat) where
  digits : List HexDigit
  digits_ne_nil : digits ≠ []
  digits_lt : ∀ d ∈ digits, d.value.val < base

namespace Numeral

variable {base : Nat}

/-- The numeral as it is written. -/
def text (m : Numeral base) : List Char :=
  m.digits.map HexDigit.char

/-- The number that the digits denote in their base. -/
def value (m : Numeral base) : Nat :=
  Nat.ofDigits base (m.digits.map fun d => d.value.val).reverse

/-- A numeral is not empty. -/
theorem text_ne_nil (m : Numeral base) : m.text ≠ [] := by
  simpa [text] using m.digits_ne_nil

end Numeral

namespace Text

variable {base : Nat}

/-- Digits are read as their number, from the number so far. -/
theorem digitsFrom_map_char {digits : List HexDigit} (h : ∀ d ∈ digits, d.value.val < base) (acc : Nat) :
    digitsFrom base acc (digits.map HexDigit.char) =
      some ((digits.map fun d => d.value.val).foldl (fun n d => d + base * n) acc) := by
  induction digits generalizing acc with
  | nil => rfl
  | cons d digits ih =>
    obtain ⟨hd, hdigits⟩ := List.forall_mem_cons.1 h
    -- the library adds the digit in front of the product
    have hacc : acc * base + d.value.val = d.value.val + base * acc := by
      rw [Nat.mul_comm, Nat.add_comm]
    simp [digitsFrom, HexDigit.digitIn_char_of_lt hd, ih hdigits, hacc]

/-- What is read is digits. -/
theorem exists_of_digitsFrom {acc n : Nat} {s : List Char} (h : digitsFrom base acc s = some n) :
    ∃ digits : List HexDigit, digits.map HexDigit.char = s ∧ ∀ d ∈ digits, d.value.val < base := by
  induction s generalizing acc with
  | nil => exact ⟨[], rfl, List.forall_mem_nil _⟩
  | cons c s ih =>
    obtain ⟨d, hd, hs⟩ := Option.bind_eq_some_iff.1 h
    obtain ⟨hlt, digit, hchar, hvalue⟩ := HexDigit.exists_of_digitIn hd
    obtain ⟨digits, hmap, hdigits⟩ := ih hs
    exact ⟨digit :: digits, by simp [hchar, hmap], List.forall_mem_cons.2 ⟨hvalue ▸ hlt, hdigits⟩⟩

/-- A numeral is read as its number. -/
theorem readDigits_text (m : Numeral base) : readDigits base m.text = some m.value := by
  rw [readDigits, if_neg (by simp [m.text_ne_nil]), Numeral.text, digitsFrom_map_char m.digits_lt,
    Numeral.value, Nat.ofDigits_eq_foldr, List.foldr_reverse]
  rfl

/-- Nothing but numerals is read. -/
theorem exists_of_readDigits {n : Nat} {s : List Char} (h : readDigits base s = some n) :
    ∃ m : Numeral base, m.text = s ∧ m.value = n := by
  by_cases hnil : s = []
  · simp [readDigits, hnil] at h
  -- the digits make a numeral, whose number can only be the one that was read
  · have hfrom : digitsFrom base 0 s = some n := by simpa [readDigits, hnil] using h
    obtain ⟨digits, rfl, hlt⟩ := exists_of_digitsFrom hfrom
    let m : Numeral base := ⟨digits, by simpa using hnil, hlt⟩
    exact ⟨m, rfl, Option.some.inj ((readDigits_text m).symm.trans h)⟩

/-- The sign that an unsigned numeral may have. -/
def plusSign (plus : Bool) : List Char :=
  if plus then ['+'] else []

/-- A numeral is read as its number, with a plus or without. -/
theorem readUnsigned_text (plus : Bool) (m : Numeral base) :
    readUnsigned base (plusSign plus ++ m.text) = some m.value := by
  cases plus with
  | false => exact readUnsigned_of_readDigits (readDigits_text m)
  | true => exact readDigits_text m

/-- What is read without a minus is a numeral, with a plus or without. -/
theorem exists_of_readUnsigned {n : Nat} {s : List Char} (h : readUnsigned base s = some n) :
    ∃ (plus : Bool) (m : Numeral base), plusSign plus ++ m.text = s ∧ m.value = n := by
  unfold readUnsigned at h
  split at h
  · obtain ⟨m, rfl, hvalue⟩ := exists_of_readDigits h
    exact ⟨true, m, rfl, hvalue⟩
  · obtain ⟨m, rfl, hvalue⟩ := exists_of_readDigits h
    exact ⟨false, m, rfl, hvalue⟩

end Text

/-! ## Spellings -/

namespace Literal

/-- The base of a literal; base sixteen is marked by a letter of either case. -/
inductive Radix where
  | decimal
  | hexadecimal (upper : Bool)
  deriving Repr, DecidableEq

namespace Radix

/-- The base as a number. -/
def base : Radix → Nat
  | decimal => 10
  | hexadecimal _ => 16

/-- What stands in front of the digits. -/
def lead : Radix → List Char
  | decimal => []
  | hexadecimal upper => ['0', if upper then 'X' else 'x']

end Radix

/-- The sign that a literal may have. -/
def minusSign (negative : Bool) : List Char :=
  if negative then ['-'] else []

/-- The parts of a literal, in the order in which they are written. -/
structure Spelling where
  negative : Bool
  radix : Radix
  plus : Bool
  numeral : Numeral radix.base
  marks : List Char
  marks_subset : marks ⊆ "LlSsTt".toList

namespace Spelling

/-- The literal without its minus and its marks. -/
def unsigned (w : Spelling) : List Char :=
  w.radix.lead ++ (Text.plusSign w.plus ++ w.numeral.text)

/-- The literal as it is written. -/
def text (w : Spelling) : List Char :=
  minusSign w.negative ++ (w.unsigned ++ w.marks)

/-- The number that a literal denotes. -/
def number (w : Spelling) : Int :=
  if w.negative then -(w.numeral.value : Int) else w.numeral.value

end Spelling

/-! ### Marks -/

/-- The letters that mark a width. -/
theorem isWidthMark_iff (c : Char) : isWidthMark c = true ↔ c ∈ "LlSsTt".toList :=
  List.contains_iff_mem

/-- The marks behind a text without marks are cut off. -/
theorem dropWidthMarks_append {s marks : List Char} (hmarks : marks ⊆ "LlSsTt".toList)
    (hs : ∀ c ∈ s, isWidthMark c = false) : dropWidthMarks (s ++ marks) = s := by
  have hall : ∀ c ∈ marks.reverse, isWidthMark c = true := fun c hc =>
    (isWidthMark_iff c).2 (hmarks (List.mem_reverse.1 hc))
  -- from behind the marks come first, and no other character is one
  rw [dropWidthMarks, List.reverse_append, List.dropWhile_append_of_pos hall]
  cases hrev : s.reverse with
  | nil => simpa using hrev
  | cons c r =>
    have hc : isWidthMark c = false := hs c (by rw [← List.mem_reverse, hrev]; exact List.mem_cons_self)
    rw [List.dropWhile_cons_of_neg (by simp [hc]), ← hrev, List.reverse_reverse]

/-- What is cut off is marks. -/
theorem exists_marks (s : List Char) :
    ∃ marks : List Char, marks ⊆ "LlSsTt".toList ∧ s = dropWidthMarks s ++ marks := by
  -- the marks are the longest end of the text that consists of them
  refine ⟨(s.reverse.takeWhile isWidthMark).reverse, fun c hc => ?_, ?_⟩
  · have hall := List.all_eq_true.1 (List.all_takeWhile (p := isWidthMark) (l := s.reverse))
    exact (isWidthMark_iff c).1 (hall c (List.mem_reverse.1 hc))
  · rw [dropWidthMarks, ← List.reverse_append, List.takeWhile_append_dropWhile, List.reverse_reverse]

/-! ### Bases -/

/-- A numeral in a base, with what announces the base. -/
theorem magnitude?_lead {radix : Radix} {s : List Char} {n : Nat}
    (h : Text.readUnsigned radix.base s = some n) : magnitude? (radix.lead ++ s) = some n := by
  cases radix with
  | hexadecimal upper => cases upper <;> exact h
  | decimal =>
    show magnitude? s = some n
    unfold magnitude?
    -- no decimal numeral goes on with an `x` behind its zero
    split
    · simp [Radix.base, Text.readUnsigned, Text.readDigits, Text.digitsFrom, Text.digitIn,
        Text.digitValue] at h
    · simp [Radix.base, Text.readUnsigned, Text.readDigits, Text.digitsFrom, Text.digitIn,
        Text.digitValue] at h
    · exact h

/-- What is read as a magnitude is a numeral in one of the bases. -/
theorem exists_of_magnitude? {s : List Char} {n : Nat} (h : magnitude? s = some n) :
    ∃ (radix : Radix) (t : List Char), s = radix.lead ++ t ∧ Text.readUnsigned radix.base t = some n := by
  unfold magnitude? at h
  split at h
  · exact ⟨.hexadecimal false, _, rfl, h⟩
  · exact ⟨.hexadecimal true, _, rfl, h⟩
  · exact ⟨.decimal, _, rfl, h⟩

/-! ### Numbers -/

/-- Neither a minus nor a mark stands between the minus and the marks. -/
theorem Spelling.ne_minus_of_mem (w : Spelling) {c : Char} (h : c ∈ w.unsigned) :
    c ≠ '-' ∧ isWidthMark c = false := by
  -- the mark of the base, the plus and the digits
  obtain hlead | hrest := List.mem_append.1 h
  · cases hradix : w.radix with
    | decimal => simp [hradix, Radix.lead] at hlead
    | hexadecimal upper =>
      have hc : c = '0' ∨ c = if upper then 'X' else 'x' := by simpa [hradix, Radix.lead] using hlead
      obtain rfl | rfl := hc
      · decide
      · cases upper <;> decide
  · obtain hplus | hdigit := List.mem_append.1 hrest
    · obtain ⟨-, rfl⟩ : w.plus = true ∧ c = '+' := by simpa [Text.plusSign] using hplus
      decide
    · obtain ⟨d, -, rfl⟩ := List.mem_map.1 hdigit
      exact d.char_ne_minus

/-- There are digits in every literal. -/
theorem Spelling.unsigned_ne_nil (w : Spelling) : w.unsigned ≠ [] := by
  simp [unsigned, w.numeral.text_ne_nil]

/-- A spelling is read as its number. -/
theorem number?_text (w : Spelling) : number? w.text = some w.number := by
  have hdrop : dropWidthMarks (w.unsigned ++ w.marks) = w.unsigned :=
    dropWidthMarks_append w.marks_subset fun c hc => (w.ne_minus_of_mem hc).2
  -- what is left between the minus and the marks is read in its base
  have hmagnitude : magnitude? w.unsigned = some w.numeral.value :=
    magnitude?_lead (Text.readUnsigned_text w.plus w.numeral)
  cases hsign : w.negative with
  | true => simp [Spelling.text, minusSign, hsign, number?, hdrop, hmagnitude, Spelling.number]
  | false =>
    -- the first character is no minus, so all of the text up to the marks is the magnitude
    obtain ⟨c, r, hcons⟩ := List.exists_cons_of_ne_nil w.unsigned_ne_nil
    have hc : c ≠ '-' := (w.ne_minus_of_mem (by rw [hcons]; exact List.mem_cons_self)).1
    have htext : w.text = c :: (r ++ w.marks) := by simp [Spelling.text, minusSign, hsign, hcons]
    have hdrop' : dropWidthMarks (c :: (r ++ w.marks)) = c :: r := by
      rw [← List.cons_append, ← hcons]
      exact hdrop
    rw [htext, number?, hdrop', ← hcons, hmagnitude]
    · simp [Spelling.number, hsign]
    · simpa using hc

/-- A text with a magnitude behind its minus is a spelling. -/
theorem exists_of_magnitude?_dropWidthMarks {body : List Char} {n : Nat}
    (h : magnitude? (dropWidthMarks body) = some n) (negative : Bool) :
    ∃ w : Spelling, w.text = minusSign negative ++ body ∧ w.negative = negative ∧ w.numeral.value = n := by
  obtain ⟨marks, hmarks, hbody⟩ := exists_marks body
  obtain ⟨radix, t, hlead, hread⟩ := exists_of_magnitude? h
  obtain ⟨plus, m, rfl, hvalue⟩ := Text.exists_of_readUnsigned hread
  refine ⟨⟨negative, radix, plus, m, marks, hmarks⟩, ?_, rfl, hvalue⟩
  rw [hbody, hlead]
  rfl

/-- Nothing but spellings is read. -/
theorem exists_of_number? {s : List Char} {n : Int} (h : number? s = some n) :
    ∃ w : Spelling, w.text = s ∧ w.number = n := by
  unfold number? at h
  -- with a minus and without
  split at h
  · obtain ⟨k, hk, rfl⟩ := Option.map_eq_some_iff.1 h
    obtain ⟨m, hm, hcast⟩ := Option.bind_eq_some_iff.1 hk
    obtain ⟨w, htext, hsign, hvalue⟩ := exists_of_magnitude?_dropWidthMarks hm true
    refine ⟨w, htext, ?_⟩
    rw [Spelling.number, if_pos hsign, hvalue, ← Option.some.inj hcast]
  · obtain ⟨m, hm, rfl⟩ := Option.map_eq_some_iff.1 h
    obtain ⟨w, htext, hsign, hvalue⟩ := exists_of_magnitude?_dropWidthMarks hm false
    refine ⟨w, htext, ?_⟩
    rw [Spelling.number, if_neg (by simp [hsign]), hvalue]
    rfl

/-- A text has a number exactly if it is a spelling of it. -/
theorem number?_eq_some_iff {s : List Char} {n : Int} :
    number? s = some n ↔ ∃ w : Spelling, w.text = s ∧ w.number = n := by
  constructor
  · exact exists_of_number?
  · rintro ⟨w, rfl, rfl⟩
    exact number?_text w

/-! ## Literals -/

/-- The range of literals is that of 64 bits. -/
theorem inRange_iff (n : Int) : inRange n = true ↔ -2 ^ 63 ≤ n ∧ n < 2 ^ 63 := by
  have hmin : Int64.minValue.toInt = -2 ^ 63 := by decide
  have hmax : Int64.maxValue.toInt = 2 ^ 63 - 1 := by decide
  rw [inRange, hmin, hmax, Bool.and_eq_true, decide_eq_true_iff, decide_eq_true_iff]
  omega

/-- The number of a literal is that of its result. -/
theorem parse_eq_ok_iff (s : List Char) (v : Int64) : parse s = .ok v ↔ number? s = some v.toInt := by
  constructor
  · intro h
    unfold parse at h
    split at h
    · next n hn =>
      obtain ⟨hnumber, hrange⟩ := Option.filter_eq_some_iff.1 hn
      obtain ⟨hlow, hhigh⟩ := (inRange_iff n).1 hrange
      rw [hnumber, ← Except.ok.inj h, Int64.toInt_ofInt_of_le hlow hhigh]
    · cases h
  · intro h
    -- a 64-bit number is in range
    have hrange : inRange v.toInt = true := (inRange_iff _).2 ⟨v.le_toInt, v.toInt_lt⟩
    rw [parse, h, Option.filter_some, if_pos hrange]
    simp only [Int64.ofInt_toInt]

/-- A number outside of the range is refused. -/
theorem parse_of_not_inRange {s : List Char} {n : Int} (hn : number? s = some n)
    (hrange : ¬ (-2 ^ 63 ≤ n ∧ n < 2 ^ 63)) : parse s = .error (.literal (String.ofList s)) := by
  have hfilter : (number? s).filter inRange = none := by
    rw [hn, Option.filter_some, if_neg (mt (inRange_iff n).1 hrange)]
  rw [parse, hfilter]

/-- A number is read back from its digits in either base, with its sign in front and marks behind. -/
theorem parse_of_readDigits {v : Int64} (radix : Radix) {digits marks : List Char}
    (hdigits : Text.readDigits radix.base digits = some v.toInt.natAbs)
    (hmarks : marks ⊆ "LlSsTt".toList) :
    parse (minusSign (v.toInt < 0) ++ radix.lead ++ digits ++ marks) = .ok v := by
  obtain ⟨m, rfl, hvalue⟩ := Text.exists_of_readDigits hdigits
  rw [parse_eq_ok_iff, number?_eq_some_iff]
  refine ⟨⟨v.toInt < 0, radix, false, m, marks, hmarks⟩, ?_, ?_⟩
  · simp [Spelling.text, Spelling.unsigned, Text.plusSign]
  -- the sign stands for a negative number, its digits for the absolute value
  · by_cases hneg : v.toInt < 0
    · simp only [Spelling.number, hneg, hvalue, decide_true, if_true]
      omega
    · simp only [Spelling.number, hneg, hvalue, decide_false, Bool.false_eq_true, if_false]
      omega

/-- The decimal text of a number: its sign and its digits. -/
theorem toList_toString_int (n : Int) :
    (toString n).toList = minusSign (n < 0) ++ Nat.toDigits 10 n.natAbs := by
  rw [Int.toString_eq_repr, Int.repr_eq_if, minusSign]
  by_cases hneg : n < 0
  · have habs : (-n).toNat = n.natAbs := by omega
    simp [hneg, Int.not_le.2 hneg, habs]
  · have habs : n.toNat = n.natAbs := by omega
    simp [hneg, Int.not_lt.1 hneg, habs]

/-- Integer literals never wrap. Every 64-bit number is read back from its decimal text and from its hexadecimal
text, whatever the case of its letters and of the `x` and whatever marks follow. A text is accepted with a
result if and only if it is a spelling of that very number, so a spelling of a number that does not fit 64 bits
is refused, however large the number is. -/
theorem parse_exact :
    (∀ (v : Int64) (marks : List Char), marks ⊆ "LlSsTt".toList →
      parse ((toString v.toInt).toList ++ marks) = .ok v ∧
      ∀ (upper : Bool) (digits : List Char),
        digits.map Char.toLower = Nat.toDigits 16 v.toInt.natAbs →
        parse (minusSign (v.toInt < 0) ++ (Radix.hexadecimal upper).lead ++ digits ++ marks) = .ok v) ∧
    (∀ (s : List Char) (v : Int64),
      parse s = .ok v ↔ ∃ w : Spelling, w.text = s ∧ w.number = v.toInt) ∧
    ∀ w : Spelling, ¬ (-2 ^ 63 ≤ w.number ∧ w.number < 2 ^ 63) →
      parse w.text = .error (.literal (String.ofList w.text)) := by
  refine ⟨fun v marks hmarks => ⟨?_, fun upper digits hdigits => ?_⟩, fun s v => ?_, fun w hrange => ?_⟩
  · -- nothing stands between the sign and decimal digits
    rw [toList_toString_int, ← List.append_nil (minusSign _)]
    exact parse_of_readDigits .decimal (Text.readDigits_toDigits (by decide) (by decide) _) hmarks
  · apply parse_of_readDigits (.hexadecimal upper) _ hmarks
    rw [← Text.readDigits_map_toLower]
    show Text.readDigits 16 (digits.map Char.toLower) = _
    rw [hdigits]
    exact Text.readDigits_toDigits (by decide) (by decide) _
  · rw [parse_eq_ok_iff, number?_eq_some_iff]
  · exact parse_of_not_inRange (number?_text w) hrange

/-- The smallest number is read in both bases; seventeen hexadecimal digits are too many. -/
theorem parse_exact_smallest :
    "LsT".toList ⊆ "LlSsTt".toList ∧
    parse "-9223372036854775808LsT".toList = .ok Int64.minValue ∧
    parse "-0X8000000000000000LsT".toList = .ok Int64.minValue ∧
    parse "0xfFfFfFfFfFfFfFfFft".toList = .error (.literal "0xfFfFfFfFfFfFfFfFft") := by
  have hmarks : "LsT".toList ⊆ "LlSsTt".toList := by simp
  obtain ⟨hdecimal, hhex⟩ := parse_exact.1 Int64.minValue "LsT".toList hmarks
  -- sixteen hexadecimal digits make 64 bits, one more is too many
  let digits : List HexDigit := (List.replicate 8 [⟨15, false⟩, ⟨15, true⟩]).flatten ++ [⟨15, false⟩]
  let w : Spelling := ⟨false, .hexadecimal false, false, ⟨digits, by decide, by decide⟩, ['t'], by simp⟩
  have hnumber : w.number = 16 ^ 17 - 1 := by decide
  refine ⟨hmarks, hdecimal, hhex true "8000000000000000".toList (by decide), ?_⟩
  exact parse_exact.2.2 w (by rw [hnumber]; decide)

end Literal

end Smali
