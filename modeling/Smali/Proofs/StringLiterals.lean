import Smali.Proofs.Scanners

/-!
# String literals

A string literal is written as a sequence of units: characters that stand for themselves, escapes, and
code points in four hexadecimal digits. On its way into an instruction or into a field it is scanned for
a comment, for the end of its quotes and for its escapes. All these scans agree on the literal, whatever
is in it and in the comment behind it: what arrives is the text that its units stand for.

## Key results

- `unescape_literal`: the text of a literal is that of its units
- `Slot.parse?_text`: a slot is read back from its text
- `bare_literal`: of a line with a literal all stays but the comment
- `Reader.readLines_literal`: what a line with a literal adds to a method and to a class
-/

namespace Smali

/-! ## Units of a literal -/

/-- A hexadecimal digit, and the case that it is written in. -/
structure HexDigit where
  value : Fin 16
  upper : Bool
  deriving Repr, DecidableEq

/-- The digit as it is written. -/
def HexDigit.char (h : HexDigit) : Char :=
  if h.value < 10 then Char.ofNat ('0'.toNat + h.value)
  else Char.ofNat ((if h.upper then 'A' else 'a').toNat + (h.value - 10))

/-- The escapes of one letter. -/
inductive Escape where
  | lineFeed | tab | carriageReturn | backspace | formFeed | null | quote | apostrophe | backslash
  deriving Repr, DecidableEq

namespace Escape

/-- What stands behind the backslash. -/
def letter : Escape → Char
  | lineFeed => 'n'
  | tab => 't'
  | carriageReturn => 'r'
  | backspace => 'b'
  | formFeed => 'f'
  | null => '0'
  | quote => '"'
  | apostrophe => '\''
  | backslash => '\\'

/-- The character that the escape stands for. -/
def meaning : Escape → Char
  | lineFeed => '\n'
  | tab => '\t'
  | carriageReturn => '\r'
  | backspace => Char.ofNat 8
  | formFeed => Char.ofNat 12
  | null => Char.ofNat 0
  | quote => '"'
  | apostrophe => '\''
  | backslash => '\\'

end Escape

/-- What one character of a text is written as. -/
inductive LiteralUnit where
  | raw (c : Char) (hquote : c ≠ '"') (hescape : c ≠ '\\') (hfeed : c ≠ '\n')
  | escape (e : Escape)
  | code (a b c d : HexDigit)

namespace LiteralUnit

/-- The unit as it is written. -/
def text : LiteralUnit → List Char
  | raw c _ _ _ => [c]
  | escape e => ['\\', e.letter]
  | code a b c d => ['\\', 'u', a.char, b.char, c.char, d.char]

/-- The number that four hexadecimal digits denote. -/
def codePoint (a b c d : HexDigit) : Nat :=
  ((a.value.val * 16 + b.value.val) * 16 + c.value.val) * 16 + d.value.val

/-- The character that the unit stands for; a surrogate is no character and is replaced. -/
def meaning : LiteralUnit → Char
  | raw c _ _ _ => c
  | escape e => e.meaning
  | code a b c d =>
    if 0xD800 ≤ codePoint a b c d ∧ codePoint a b c d ≤ 0xDFFF then Char.ofNat 0xFFFD
    else Char.ofNat (codePoint a b c d)

end LiteralUnit

/-- The literal with the given units. -/
def stringLiteral (units : List LiteralUnit) : List Char :=
  '"' :: units.flatMap LiteralUnit.text ++ ['"']

/-- The text that a literal stands for. -/
def stringMeaning (units : List LiteralUnit) : String :=
  String.ofList (units.map LiteralUnit.meaning)

/-! ## Escapes -/

/-- A hexadecimal digit has its value. -/
theorem HexDigit.digitIn_char (h : HexDigit) : Text.digitIn 16 h.char = some h.value.val := by
  -- sixteen values in two cases
  have hall : ∀ (value : Fin 16) (upper : Bool),
      Text.digitIn 16 (HexDigit.mk value upper).char = some value.val := by decide
  exact hall h.value h.upper

/-- A hexadecimal digit is none of the characters that end or escape something. -/
theorem HexDigit.char_ne (h : HexDigit) :
    h.char ≠ '"' ∧ h.char ≠ '\\' ∧ h.char ≠ '\n' ∧ h.char ≠ '+' := by
  have hall : ∀ (value : Fin 16) (upper : Bool),
      (HexDigit.mk value upper).char ≠ '"' ∧ (HexDigit.mk value upper).char ≠ '\\' ∧
      (HexDigit.mk value upper).char ≠ '\n' ∧ (HexDigit.mk value upper).char ≠ '+' := by decide
  exact hall h.value h.upper

/-- An escape letter stands for the meaning of its escape. -/
theorem escapedChar?_letter (e : Escape) : escapedChar? e.letter = some e.meaning := by
  cases e <;> rfl

namespace LiteralUnit

/-- Four hexadecimal digits are read as the number that they denote. -/
theorem readUnsigned_code (a b c d : HexDigit) :
    Text.readUnsigned 16 [a.char, b.char, c.char, d.char] = some (codePoint a b c d) := by
  have hplus : a.char ≠ '+' := a.char_ne.2.2.2
  simp [Text.readUnsigned, Text.readDigits, Text.digitsFrom, hplus, HexDigit.digitIn_char, codePoint]

/-- The character of a code point is the meaning of its unit. -/
theorem charOfCode_codePoint (a b c d : HexDigit) :
    charOfCode (codePoint a b c d) = (code a b c d).meaning := by
  have hbound : codePoint a b c d ≤ 0xFFFF := by
    unfold codePoint
    omega
  rw [charOfCode, meaning]
  -- so far down the surrogates are the only numbers without a character
  split
  · next hvalid =>
    rw [if_neg]
    unfold Nat.isValidChar at hvalid
    omega
  · next hinvalid =>
    rw [if_pos]
    unfold Nat.isValidChar at hinvalid
    omega

/-- A unit gives its meaning, and then comes what is behind it. -/
theorem unescapeInside_append (u : LiteralUnit) (r : List Char) :
    unescapeInside (u.text ++ r) = (unescapeInside r).map (u.meaning :: ·) := by
  cases u with
  -- a plain character is neither an escape nor the start of one
  | raw c hquote hescape hfeed =>
    rw [text, List.singleton_append, unescapeInside]
    · cases unescapeInside r <;> rfl
    all_goals simp [hescape]
  | escape e =>
    -- no escape letter is the one that announces a code point
    have hletter : e.letter ≠ 'u' := by cases e <;> decide
    rw [text, List.cons_append, List.singleton_append, unescapeInside, escapedChar?_letter]
    · cases unescapeInside r <;> rfl
    · simp [hletter]
  | code a b c d =>
    simp only [text, List.cons_append, List.nil_append, unescapeInside, readUnsigned_code]
    rw [← charOfCode_codePoint]
    cases unescapeInside r <;> rfl

/-- Inside of quotes no unit ends the literal or the line. -/
theorem quotedBody_text (u : LiteralUnit) : QuotedBody u.text := by
  cases u with
  | raw c hquote hescape _ => exact .plain c _ hquote hescape .nil
  | escape e => exact .escaped _ _ .nil
  | code a b c d =>
    -- the backslash takes the letter with it, the digits stand for themselves
    have hdigits : QuotedBody [a.char, b.char, c.char, d.char] :=
      .plain _ _ a.char_ne.1 a.char_ne.2.1 (.plain _ _ b.char_ne.1 b.char_ne.2.1
        (.plain _ _ c.char_ne.1 c.char_ne.2.1 (.plain _ _ d.char_ne.1 d.char_ne.2.1 .nil)))
    exact .escaped _ _ hdigits

/-- No unit has a line feed in it. -/
theorem not_mem_text (u : LiteralUnit) : '\n' ∉ u.text := by
  cases u with
  | raw c _ _ hfeed => simpa [text] using hfeed.symm
  | escape e => cases e <;> decide
  | code a b c d =>
    simp [text, a.char_ne.2.2.1.symm, b.char_ne.2.2.1.symm, c.char_ne.2.2.1.symm, d.char_ne.2.2.1.symm]

end LiteralUnit

variable (units : List LiteralUnit)

/-- Nor do units one after the other end the literal. -/
theorem quotedBody_flatMap : QuotedBody (units.flatMap LiteralUnit.text) := by
  induction units with
  | nil => exact .nil
  | cons u units ih => exact u.quotedBody_text.append ih

/-- A literal has no line feed in it. -/
theorem not_mem_literal : '\n' ∉ stringLiteral units := by
  have hunits : '\n' ∉ units.flatMap LiteralUnit.text := by
    intro h
    obtain ⟨u, -, hu⟩ := List.mem_flatMap.1 h
    exact u.not_mem_text hu
  simp [stringLiteral, hunits]

/-- Units give their meanings, one after the other. -/
theorem unescapeInside_flatMap :
    unescapeInside (units.flatMap LiteralUnit.text) = some (units.map LiteralUnit.meaning) := by
  induction units with
  | nil => rfl
  | cons u units ih =>
    rw [List.flatMap_cons, LiteralUnit.unescapeInside_append, ih]
    rfl

/-- The text of a literal is that of its units. -/
theorem unescape_literal : unescape (stringLiteral units) = .ok (stringMeaning units) := by
  have hinside : insideQuotes? (stringLiteral units) = some (units.flatMap LiteralUnit.text) := by
    simp [stringLiteral, insideQuotes?]
  rw [unescape, hinside, Option.bind_some, unescapeInside_flatMap]
  rfl

/-! ## Numerals -/

namespace Text

/-- A digit has its value, in each base up to sixteen. -/
theorem digitIn_digitChar {base d : Nat} (hbase : base ≤ 16) (hd : d < base) :
    digitIn base (Nat.digitChar d) = some d := by
  have hall : ∀ d : Fin 16, digitValue (Nat.digitChar d) = some d.val := by decide
  have hvalue : digitValue (Nat.digitChar d) = some d := hall ⟨d, by omega⟩
  simp [digitIn, hvalue, hd]

/-- Digits in two parts: the second goes on from the number of the first. -/
theorem digitsFrom_append (base acc : Nat) (s t : List Char) :
    digitsFrom base acc (s ++ t) = (digitsFrom base acc s).bind (digitsFrom base · t) := by
  -- the induction is on the first part, with the number so far
  induction s generalizing acc with
  | nil => rfl
  | cons c s ih =>
    rw [List.cons_append, digitsFrom, digitsFrom]
    cases digitIn base c with
    | none => rfl
    | some d => exact ih _

/-- A number is read back from its digits, starting at zero. -/
theorem digitsFrom_toDigits {base : Nat} (hlow : 1 < base) (hhigh : base ≤ 16) (n : Nat) :
    digitsFrom base 0 (Nat.toDigits base n) = some n := by
  -- the induction is on the number: its quotient by the base is smaller
  induction n using Nat.strongRecOn with
  | ind n ih =>
    by_cases hn : n < base
    · rw [Nat.toDigits_of_lt_base hn]
      simp [digitsFrom, digitIn_digitChar hhigh hn]
    · -- the last digit stands behind those of the quotient
      have hmod : n % base < base := Nat.mod_lt n (by omega)
      have hsplit : Nat.toDigits base n = Nat.toDigits base (n / base) ++ [Nat.digitChar (n % base)] := by
        rw [← Nat.toDigits_of_lt_base hmod,
          Nat.toDigits_append_toDigits hlow (Nat.div_pos (by omega) (by omega)) hmod, Nat.div_add_mod]
      rw [hsplit, digitsFrom_append, ih _ (Nat.div_lt_self (by omega) hlow)]
      simp [digitsFrom, digitIn_digitChar hhigh hmod, Nat.div_add_mod']

/-- A number is read back from its digits. -/
theorem readDigits_toDigits {base : Nat} (hlow : 1 < base) (hhigh : base ≤ 16) (n : Nat) :
    readDigits base (Nat.toDigits base n) = some n := by
  rw [readDigits, if_neg (by simp [Nat.toDigits_ne_nil]), digitsFrom_toDigits hlow hhigh]

/-- A numeral without a sign is read as its digits are. -/
theorem readUnsigned_of_readDigits {base n : Nat} {s : List Char} (h : readDigits base s = some n) :
    readUnsigned base s = some n := by
  unfold readUnsigned
  split
  · -- a sign is no digit
    simp [readDigits, digitsFrom, digitIn, digitValue] at h
  · exact h

end Text

/-! ## Slots -/

namespace Slot

/-- The letter in front of the index. -/
def letter : Slot → Char
  | register _ => 'v'
  | parameter _ => 'p'

/-- The text of a slot is its letter and the digits of its index. -/
theorem toList_text (slot : Slot) : slot.text.toList = slot.letter :: Nat.toDigits 10 slot.index := by
  cases slot <;> simp [text, letter, index] <;> rfl

/-- A slot is read back from its text. -/
theorem parse?_text {slot : Slot} (h : slot.index ≤ maxIndex) : parse? slot.text.toList = some slot := by
  rw [toList_text]
  cases slot with
  | register i | parameter i =>
    have hi : i ≤ maxIndex := h
    have hread := Text.readUnsigned_of_readDigits
      (Text.readDigits_toDigits (by decide : 1 < 10) (by decide) i)
    simp [parse?, letter, index, hread, hi]

/-- The text of a slot has digits and one of two letters in it. -/
theorem isDigit_or_of_mem {slot : Slot} {c : Char} (h : c ∈ slot.text.toList) :
    c.isDigit ∨ c = 'v' ∨ c = 'p' := by
  rw [toList_text] at h
  obtain rfl | hdigit := List.mem_cons.1 h
  · cases slot with
    | register i => exact .inr (.inl rfl)
    | parameter i => exact .inr (.inr rfl)
  · exact .inl (Nat.isDigit_of_mem_toDigits (by decide) (by decide) hdigit)

/-- The text of a slot is a plain word. -/
theorem isSeparator_of_mem {slot : Slot} {c : Char} (h : c ∈ slot.text.toList) :
    Token.isSeparator c = false := by
  obtain hdigit | rfl | rfl := isDigit_or_of_mem h
  · obtain ⟨hlow, hhigh⟩ := Bool.and_eq_true_iff.1 hdigit
    have hlow : 48 ≤ c.toNat := of_decide_eq_true hlow
    have hhigh : c.toNat ≤ 57 := of_decide_eq_true hhigh
    -- between the codes of the digits there is neither a blank nor a comma
    have hcomma : c ≠ ',' := by
      rintro rfl
      cases hdigit
    simp only [Token.isSeparator, Text.isBlank, Bool.or_eq_false_iff, Bool.and_eq_false_iff,
      beq_eq_false_iff_ne, decide_eq_false_iff_not]
    exact ⟨hcomma, by omega⟩
  · decide
  · decide

end Slot

/-! ## Lines with a literal -/

/-- A literal ends with a quote. -/
theorem getLast?_append_literal (start : List Char) :
    (start ++ stringLiteral units).getLast? = some '"' := by
  rw [stringLiteral, ← List.append_assoc, List.getLast?_concat]

/-- Of a line with a literal all stays but the comment. -/
theorem bare_literal {start : List Char} {c : Char} (hfirst : start.head? = some c)
    (hc : Text.isBlank c = false) (hquote : '"' ∉ start) (hsign : '#' ∉ start) (comment : List Char) :
    bare (start ++ stringLiteral units ++ ' ' :: '#' :: comment) = start ++ stringLiteral units := by
  have hquotes : QuotesClosed (start ++ stringLiteral units) :=
    .plain_append hquote (.quoted _ _ (quotedBody_flatMap units) .nil)
  have hcut : bare (start ++ stringLiteral units ++ ' ' :: '#' :: comment) =
      bare (start ++ stringLiteral units) := by
    have hcomment := bare_append_comment hquotes (show [' '].all Text.isBlank by decide) comment
    simpa using hcomment
  -- in the literal itself no number sign starts a comment, since it is quoted
  have hkept : stripComment (start ++ stringLiteral units) = start ++ stringLiteral units := by
    rw [stripComment, stripCommentFrom_plain hquote hsign, stringLiteral,
      stripCommentFrom_quoted (quotedBody_flatMap units)]
    rfl
  rw [hcut, bare, hkept]
  exact Text.trim_of_ends (by simp [hfirst]) hc (getLast?_append_literal units start) (by decide)

/-! ### Instructions -/

/-- The operands of an instruction that takes a text. -/
def constOperands (slot : Slot) : List Char :=
  slot.text.toList ++ ',' :: ' ' :: stringLiteral units

/-- `const-string <slot>, "<units>"` -/
def constLine (slot : Slot) : List Char :=
  "const-string".toList ++ ' ' :: constOperands units slot

/-- What stands in front of the literal. -/
def constStart (slot : Slot) : List Char :=
  "const-string".toList ++ ' ' :: slot.text.toList ++ [',', ' ']

/-- The line is what stands in front of the literal, and the literal. -/
theorem constLine_eq (slot : Slot) : constLine units slot = constStart slot ++ stringLiteral units := by
  unfold constLine constStart constOperands
  -- the letters of the mnemonic play no part
  generalize "const-string".toList = name
  simp

/-- What does not occur in a mnemonic, a number or a slot does not stand in front of the literal. -/
theorem not_mem_constStart {slot : Slot} {c : Char} (hname : c ∉ "const-string".toList)
    (hdigit : c.isDigit = false) (hother : c ∉ [' ', ',', 'v', 'p']) : c ∉ constStart slot := by
  obtain ⟨hblank, hcomma, hv, hp⟩ : c ≠ ' ' ∧ c ≠ ',' ∧ c ≠ 'v' ∧ c ≠ 'p' := by simpa using hother
  have hslot : c ∉ slot.text.toList := by
    intro h
    obtain h | rfl | rfl := Slot.isDigit_or_of_mem h
    · rw [hdigit] at h
      cases h
    · exact hv rfl
    · exact hp rfl
  unfold constStart
  generalize "const-string".toList = name at hname
  simp [hname, hslot, hblank, hcomma]

/-- The operands are two tokens, the slot and the literal. -/
theorem scan_constOperands (slot : Slot) :
    Token.scan (constOperands units slot) =
      some [.word slot.text, .word (String.ofList (stringLiteral units))] := by
  have hword : ∀ c ∈ slot.letter :: Nat.toDigits 10 slot.index, Token.isSeparator c = false := by
    rw [← Slot.toList_text]
    exact fun c hc => Slot.isSeparator_of_mem hc
  obtain ⟨hletter, hdigits⟩ := List.forall_mem_cons.1 hword
  -- behind the closing quote nothing is left
  have hquoted : Token.scan (stringLiteral units) = some [.word (String.ofList (stringLiteral units))] := by
    rw [stringLiteral, Token.scan_quoted (quotedBody_flatMap units), Token.scan]
    rfl
  rw [constOperands, Slot.toList_text, Token.scan_plain hletter _ _ hdigits (by decide),
    Token.scan_separator (by decide), hquoted, ← Slot.toList_text, String.ofList_toList]
  · rfl
  · cases slot <;> simp [Slot.letter]
  · cases slot <;> simp [Slot.letter]

/-- The mnemonic and the operands of the line. -/
theorem splitMnemonic_constLine (slot : Slot) :
    splitMnemonic (constLine units slot) = ("const-string".toList, constOperands units slot) := by
  have hfirst : (constOperands units slot).head? = some slot.letter := by
    simp [constOperands, Slot.toList_text]
  have hletter : Text.isBlank slot.letter = false := by cases slot <;> simp [Slot.letter] <;> decide
  have hlast : (constOperands units slot).getLast? = some '"' := by
    have h := getLast?_append_literal units (slot.text.toList ++ [',', ' '])
    simpa [constOperands] using h
  exact splitMnemonic_append (by decide) (by decide) (by decide) hfirst hletter hlast (by decide)

/-- The line is read as the instruction with the text of the literal. -/
theorem ofLine_constLine {slot : Slot} (h : slot.index ≤ Slot.maxIndex) :
    Instruction.ofLine (constLine units slot) = .ok (.constString slot (stringMeaning units)) := by
  have hscan : Token.scanOperands (constOperands units slot) =
      .ok [.word slot.text, .word (String.ofList (stringLiteral units))] := by
    rw [Token.scanOperands, scan_constOperands]
  have hslot : Operands.slot "const-string" (.word slot.text) = .ok slot := by
    simp only [Operands.slot, Operands.word, bind, Except.bind, Slot.parse?_text h]
    rfl
  have htext : Operands.text "const-string" (.word (String.ofList (stringLiteral units))) =
      .ok (stringMeaning units) := by
    simp only [Operands.text, Operands.word, bind, Except.bind, String.toList_ofList, unescape_literal]
  have hform : Form.ofMnemonic? "const-string" = some .constString := rfl
  -- the number of the tokens is right, and each of them is read
  rw [Instruction.ofLine_eq_ok_iff, splitMnemonic_constLine]
  refine ⟨_, hscan, ?_⟩
  rw [String.ofList_toList, Instruction.decode, hform]
  exact Machine.bind_eq_ok.2 ⟨(), rfl,
    Machine.bind_eq_ok.2 ⟨slot, Operands.read_eq_ok_iff.2 ⟨_, rfl, hslot⟩,
      Machine.bind_eq_ok.2 ⟨_, Operands.read_eq_ok_iff.2 ⟨_, rfl, htext⟩, rfl⟩⟩⟩

/-! ### Fields -/

/-- A declaration has no equals sign, so it ends at the first one. -/
theorem Text.cut_equals {declaration : List Char} (h : '=' ∉ declaration) (value : List Char) :
    cut [' ', '=', ' '] (declaration ++ ' ' :: '=' :: ' ' :: value) = some (declaration, value) := by
  -- the induction is on the characters of the declaration: the separator starts at none of them
  induction declaration with
  | nil => simp [cut, afterStart?]
  | cons c declaration ih =>
    obtain ⟨hc, hdeclaration⟩ := not_or.1 (mt List.mem_cons.2 h)
    have hstart :
        afterStart? [' ', '=', ' '] (c :: (declaration ++ ' ' :: '=' :: ' ' :: value)) = none := by
      -- the equals sign would have to be the second character
      cases declaration with
      | nil => simp [afterStart?]
      | cons d declaration =>
        have hd : '=' ≠ d := fun hd => hdeclaration (hd ▸ List.mem_cons_self)
        simp [afterStart?, hd]
    rw [List.cons_append, cut, hstart]
    dsimp only
    rw [ih hdeclaration]
    rfl

/-- A literal is an initial value of its own, whatever the type. -/
theorem Constant.parse_literal (type : Descriptor) :
    Constant.parse (stringLiteral units) type = .ok (.string (stringMeaning units)) := by
  -- the words with a meaning of their own do not start with a quote
  have hword {word : List Char} (h : word.head? ≠ some '"') : stringLiteral units ≠ word := by
    rintro rfl
    exact h rfl
  have htrue : stringLiteral units ≠ "true".toList := hword (by decide)
  have hfalse : stringLiteral units ≠ "false".toList := hword (by decide)
  have hnull : stringLiteral units ≠ "null".toList := hword (by decide)
  unfold Constant.parse
  rw [if_neg htrue, if_neg hfalse, if_neg hnull]
  change (unescape (stringLiteral units) >>= fun text => pure (Constant.string text)) = _
  exact Machine.bind_eq_ok.2 ⟨_, unescape_literal units, rfl⟩

/-- The directive of a field with an initial value. -/
def fieldDirective (declaration value : List Char) : List Char :=
  "field".toList ++ ' ' :: (declaration ++ ' ' :: '=' :: ' ' :: value)

/-- The name of the directive and the declaration with its value. -/
theorem splitMnemonic_fieldDirective {declaration value : List Char} {c d : Char}
    (hfirst : declaration.head? = some c) (hc : Text.isBlank c = false)
    (hlast : value.getLast? = some d) (hd : Text.isBlank d = false) :
    splitMnemonic (fieldDirective declaration value) =
      ("field".toList, declaration ++ ' ' :: '=' :: ' ' :: value) :=
  splitMnemonic_append (by decide) (by decide) (by decide) (by simp [hfirst]) hc
    (by simp [List.getLast?_cons, hlast]) hd

namespace Reader

variable {r : Reader} {c : Class}

/-- Outside of blocks a line that starts with a dot is a directive. -/
theorem accept_directive (hblock : r.block = .none) (directive : List Char) :
    r.accept ('.' :: directive) = r.readDirective directive := by
  rw [accept, hblock]

/-- The directive of a field. -/
theorem readDirective_field {directive rest : List Char}
    (h : splitMnemonic directive = ("field".toList, rest)) :
    r.readDirective directive = r.readField rest := by
  rw [readDirective, h]
  rfl

/-- A field starts no class. -/
theorem startsClass_field {directive rest : List Char}
    (h : splitMnemonic directive = ("field".toList, rest)) : r.startsClass ('.' :: directive) = false := by
  unfold startsClass
  split
  · next heq =>
    obtain ⟨-, rfl⟩ := List.cons.inj heq
    rw [h]
    rfl
  · rfl

/-- A field goes into the open class if its initial value can be read. -/
theorem readField_value {declaration value name typeText : List Char} {flags : Flags} {type : Descriptor}
    (hclass : r.class? = some c) (hequals : '=' ∉ declaration)
    (hmember : lastWord? declaration = some (flags, name ++ ':' :: typeText))
    (hname : name.any (· == ':') = false) (htype : Descriptor.parse typeText = .ok type) :
    r.readField (declaration ++ ' ' :: '=' :: ' ' :: value) =
      (Constant.parse (Text.trim value) type).map fun constant => { r with
        class? := some { c with
          fields := c.fields.insert (String.ofList name)
            ⟨flags, String.ofList name, type, some constant⟩ } } := by
  rw [readField, Text.cut_equals hequals]
  dsimp only
  rw [hmember]
  dsimp only
  rw [Text.cutWhere_append hname (by decide)]
  dsimp only
  rw [htype]
  simp only [Option.mapM_some, withClass, hclass, bind, Except.bind]
  -- all but the value is right, so the value decides
  cases Constant.parse (Text.trim value) type <;> rfl

end Reader

/-- `.field static s:Ljava/lang/String; = "<units>"` -/
def fieldLine : List Char :=
  ".field static s:Ljava/lang/String; = ".toList ++ stringLiteral units

/-- A line with a value is the directive with the value. -/
theorem append_value {start declaration : List Char}
    (h : start = '.' :: "field".toList ++ ' ' :: declaration ++ [' ', '=', ' ']) (value : List Char) :
    start ++ value = '.' :: fieldDirective declaration value := by
  rw [h, fieldDirective]
  generalize "field".toList = name
  simp

/-- The line is a directive with a declaration and the literal. -/
theorem fieldLine_eq : fieldLine units =
    '.' :: fieldDirective "static s:Ljava/lang/String;".toList (stringLiteral units) := by
  have hstart : ".field static s:Ljava/lang/String; = ".toList =
      '.' :: "field".toList ++ ' ' :: "static s:Ljava/lang/String;".toList ++ [' ', '=', ' '] := by
    decide
  exact append_value hstart (stringLiteral units)

/-- The name and the rest of the directive. -/
theorem splitMnemonic_fieldLine :
    splitMnemonic (fieldDirective "static s:Ljava/lang/String;".toList (stringLiteral units)) =
      ("field".toList, "static s:Ljava/lang/String;".toList ++ ' ' :: '=' :: ' ' :: stringLiteral units) :=
  splitMnemonic_fieldDirective (c := 's') rfl (by decide) (getLast?_append_literal units []) (by decide)

/-! ### Reading the lines -/

namespace Reader

variable {r r' : Reader} {c : Class}

/-- Outside of blocks a line that starts with neither a dot nor a colon is an instruction. -/
theorem accept_instruction {line : List Char} (hblock : r.block = .none) (hdot : line.head? ≠ some '.')
    (hcolon : line.head? ≠ some ':') : r.accept line = r.readInstruction line := by
  rw [accept, hblock]
  · rintro directive rfl
    exact hdot rfl
  · rintro label rfl
    exact hcolon rfl

/-- The line adds an instruction with the text to the open method. -/
theorem accept_constLine {slot : Slot} {d : Draft} (hblock : r.block = .none) (hclass : r.class? = some c)
    (hdraft : r.draft? = some d) (hslot : slot.index ≤ Slot.maxIndex) :
    r.accept (constLine units slot) = .ok { r with draft? := some { d with code := { d.code with
      instructions := d.code.instructions.push (.constString slot (stringMeaning units)) } } } := by
  have hfirst : (constLine units slot).head? = some 'c' := rfl
  rw [accept_instruction hblock (by simp [hfirst]) (by simp [hfirst])]
  refine Machine.bind_eq_ok.2 ⟨_, ofLine_constLine units hslot, ?_⟩
  rw [withCode, withDraft, hclass, hdraft]
  rfl

/-- The line adds a field with the text to the open class. -/
theorem accept_fieldLine (hblock : r.block = .none) (hclass : r.class? = some c) :
    r.accept (fieldLine units) = .ok { r with class? := some { c with
      fields := c.fields.insert "s" ⟨.ofWords ["static"], "s", .object "Ljava/lang/String;",
        some (.string (stringMeaning units))⟩ } } := by
  have hmember : lastWord? "static s:Ljava/lang/String;".toList =
      some (.ofWords ["static"], ['s'] ++ ':' :: "Ljava/lang/String;".toList) := by decide
  have htype : Descriptor.parse "Ljava/lang/String;".toList = .ok (.object "Ljava/lang/String;") := rfl
  have htrim : Text.trim (stringLiteral units) = stringLiteral units :=
    Text.trim_of_ends rfl (by decide) (getLast?_append_literal units []) (by decide)
  have hvalue : Constant.parse (Text.trim (stringLiteral units)) (.object "Ljava/lang/String;") =
      .ok (.string (stringMeaning units)) := by
    rw [htrim, Constant.parse_literal]
  rw [fieldLine_eq, accept_directive hblock, readDirective_field (splitMnemonic_fieldLine units)]
  rw [readField_value hclass (by decide) hmember (by decide) htype, hvalue]
  rfl

section FirstLine

variable {line text : List Char}

/-- A line that starts no class is counted, and settles nothing. -/
theorem reach_line (hbare : bare line = text) (hstart : r.startsClass text = false) :
    r.reach line = { r with line := r.line + 1 } := by
  rw [reach, settle, hbare]
  exact if_neg (ne_true_of_eq_false hstart)

variable (hends : '\n' ∉ line) (hbare : bare line = text) (hfull : text ≠ [])
  (hstart : r.startsClass text = false) (rest : List Char)
include hends hbare hfull hstart

/-- A line without a line feed in it is the first of a text. -/
theorem readLines_line (haccept : { r with line := r.line + 1 }.accept text = .ok r') :
    r.readLines (Text.lines (line ++ '\n' :: rest)) = r'.readLines (Text.lines rest) := by
  -- the line may end in a carriage return, which is cut off before the line is read
  have hreturn : bare (Text.dropReturn line) = text := (bare_dropReturn line).trans hbare
  have hline : r.readLine (Text.dropReturn line) = (r', none) := by
    refine readLine_of_accept ?_ ?_
    · simpa [hreturn] using hfull
    · rw [reach_line hreturn hstart, hreturn, haccept]
  rw [Text.lines_append_newline, Text.closedLines_of_not_mem hends, List.singleton_append, readLines, hline]

/-- Nothing is read behind a line that is refused. -/
theorem readLines_refused_line {e : ReadError}
    (haccept : { r with line := r.line + 1 }.accept text = .error e) :
    r.readLines (Text.lines (line ++ '\n' :: rest)) = ({ r with line := r.line + 1 }, some e) := by
  have hreturn : bare (Text.dropReturn line) = text := (bare_dropReturn line).trans hbare
  have hline : r.readLine (Text.dropReturn line) = ({ r with line := r.line + 1 }, some e) := by
    rw [← reach_line hreturn hstart]
    refine readLine_of_refuse ?_ ?_
    · simpa [hreturn] using hfull
    · rw [reach_line hreturn hstart, hreturn, haccept]
  rw [Text.lines_append_newline, Text.closedLines_of_not_mem hends, List.singleton_append, readLines, hline]

end FirstLine

/-- A line with a literal and a comment has no line feed in it. -/
theorem not_mem_line {start comment : List Char} (hstart : '\n' ∉ start) (hcomment : '\n' ∉ comment) :
    '\n' ∉ start ++ stringLiteral units ++ ' ' :: '#' :: comment := by
  simp [hstart, not_mem_literal units, hcomment]

/-- A line with an instruction, with a comment behind it, at the start of a text. -/
theorem readLines_constLine {slot : Slot} {d : Draft} {comment : List Char} (hblock : r.block = .none)
    (hclass : r.class? = some c) (hdraft : r.draft? = some d) (hslot : slot.index ≤ Slot.maxIndex)
    (hcomment : '\n' ∉ comment) (rest : List Char) :
    r.readLines (Text.lines (constLine units slot ++ ' ' :: '#' :: comment ++ '\n' :: rest)) =
      { r with
        line := r.line + 1
        draft? := some { d with code := { d.code with
          instructions := d.code.instructions.push (.constString slot (stringMeaning units)) } }
      }.readLines (Text.lines rest) := by
  have hquote : '"' ∉ constStart slot := not_mem_constStart (by decide) rfl (by decide)
  have hsign : '#' ∉ constStart slot := not_mem_constStart (by decide) rfl (by decide)
  have hfeed : '\n' ∉ constStart slot := not_mem_constStart (by decide) rfl (by decide)
  have hfirst : (constStart slot).head? = some 'c' := rfl
  -- the comment and the blank in front of it are cut off, the literal stays
  have hbare : bare (constLine units slot ++ ' ' :: '#' :: comment) = constLine units slot := by
    rw [constLine_eq]
    exact bare_literal units hfirst (by decide) hquote hsign comment
  have hends : '\n' ∉ constLine units slot ++ ' ' :: '#' :: comment := by
    rw [constLine_eq]
    exact not_mem_line units hfeed hcomment
  have hstart : r.startsClass (constLine units slot) = false := by
    unfold startsClass
    rw [hblock, hdraft]
  have haccept := accept_constLine units (r := { r with line := r.line + 1 }) hblock hclass hdraft hslot
  exact readLines_line hends hbare (List.cons_ne_nil _ _) hstart rest haccept

/-- A line with a field, with a comment behind it, at the start of a text. -/
theorem readLines_fieldLine {comment : List Char} (hblock : r.block = .none) (hclass : r.class? = some c)
    (hcomment : '\n' ∉ comment) (rest : List Char) :
    r.readLines (Text.lines (fieldLine units ++ ' ' :: '#' :: comment ++ '\n' :: rest)) =
      { r with
        line := r.line + 1
        class? := some { c with
          fields := c.fields.insert "s" ⟨.ofWords ["static"], "s", .object "Ljava/lang/String;",
            some (.string (stringMeaning units))⟩ }
      }.readLines (Text.lines rest) := by
  have hfirst : ".field static s:Ljava/lang/String; = ".toList.head? = some '.' := rfl
  have hbare : bare (fieldLine units ++ ' ' :: '#' :: comment) = fieldLine units :=
    bare_literal units hfirst (by decide) (by decide) (by decide) comment
  have hends : '\n' ∉ fieldLine units ++ ' ' :: '#' :: comment :=
    not_mem_line units (by decide) hcomment
  have hfull : fieldLine units ≠ [] := by
    rw [fieldLine_eq]
    exact List.cons_ne_nil _ _
  have hstart : r.startsClass (fieldLine units) = false := by
    rw [fieldLine_eq]
    exact startsClass_field (splitMnemonic_fieldLine units)
  have haccept := accept_fieldLine units (r := { r with line := r.line + 1 }) hblock hclass
  exact readLines_line hends hbare hfull hstart rest haccept

/-- A literal arrives as the text that its units stand for, whatever comment is behind it: a line of a
method adds one instruction with this text, and a line of a class one field with this initial value. -/
theorem readLines_literal (r : Reader) (c : Class) (units : List LiteralUnit) (comment rest : List Char)
    (hblock : r.block = .none) (hclass : r.class? = some c) (hcomment : '\n' ∉ comment) :
    (∀ (slot : Slot) (d : Draft), slot.index ≤ Slot.maxIndex → r.draft? = some d →
      r.readLines (Text.lines (constLine units slot ++ ' ' :: '#' :: comment ++ '\n' :: rest)) =
        { r with
          line := r.line + 1
          draft? := some { d with code := { d.code with
            instructions := d.code.instructions.push (.constString slot (stringMeaning units)) } }
        }.readLines (Text.lines rest)) ∧
    r.readLines (Text.lines (fieldLine units ++ ' ' :: '#' :: comment ++ '\n' :: rest)) =
      { r with
        line := r.line + 1
        class? := some { c with
          fields := c.fields.insert "s" ⟨.ofWords ["static"], "s", .object "Ljava/lang/String;",
            some (.string (stringMeaning units))⟩ }
      }.readLines (Text.lines rest) := by
  refine ⟨?_, readLines_fieldLine units hblock hclass hcomment rest⟩
  intro slot d hslot hdraft
  exact readLines_constLine units hblock hclass hdraft hslot hcomment rest

end Reader

/-- A method that is open in a class. -/
def openMethod : Reader where
  classes := {}
  journal := {}
  class? := some { flags := {}, name := "LText;" }
  draft? := some { method := ⟨"LText;", "f", {}, [], .void, .code {}⟩ }

/-- An escaped backslash in front of what would else be a code point, a quote, a surrogate, a number sign
and a brace. -/
def trickyUnits : List LiteralUnit :=
  [.escape .backslash, .raw 'u' (by decide) (by decide) (by decide), .escape .quote,
    .code ⟨13, true⟩ ⟨8, false⟩ ⟨0, false⟩ ⟨0, false⟩, .raw '#' (by decide) (by decide) (by decide),
    .raw '\x7b' (by decide) (by decide) (by decide)]

/-- Its text in an instruction and in a field. -/
theorem trickyUnits_read :
    stringLiteral trickyUnits = "\"\\\\u\\\"\\uD800#\x7b\"".toList ∧
    (openMethod.readLines (Text.lines
      (constLine trickyUnits (.register 7) ++ ' ' :: '#' :: [' ', '"'] ++ '\n' :: []))).1.draft?.map
        (·.code.instructions) = some #[.constString (.register 7) "\\u\"\uFFFD#\x7b"] ∧
    (openMethod.readLines (Text.lines
      (fieldLine trickyUnits ++ ' ' :: '#' :: [' ', '"'] ++ '\n' :: []))).1.class?.map
        (·.fields.values.map (·.initial?)) = some [some (.string "\\u\"\uFFFD#\x7b")] := by
  obtain ⟨hconst, hfield⟩ :=
    Reader.readLines_literal openMethod _ trickyUnits [' ', '"'] [] rfl rfl (by decide)
  refine ⟨by decide +kernel, ?_, ?_⟩
  · rw [hconst (.register 7) _ (by decide) rfl]
    decide +kernel
  · rw [hfield]
    decide +kernel

end Smali
