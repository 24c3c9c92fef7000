import Mathlib.Algebra.Group.Int.Defs
import Mathlib.Algebra.Group.Nat.Defs
import Mathlib.Data.List.TakeWhile
import Smali.Proofs.Cells
import Smali.Proofs.HeapTyping
import Smali.Proofs.IntegerArithmetic
import Smali.Proofs.LiteralValues

/-!
# Immediates

A number that is written into an instruction goes a long way: from its text through the tokens of the line
into the literal of an instruction with the width of its field, and from there into a slot. On this way it is
either kept as it is or refused.

The texts that are read as numbers are plain words, so that the line falls into the words that it was put
together from. When the instruction is executed its literal is narrowed first, which gives the rule
(`Immediate`) for loading a constant and for computing with one.

## Key results

- `Literal.plainWord_of_parse`, `Slot.plainWord_of_parse?`: texts of numbers and slots are plain words
- `Instruction.ofLine_instructionLine`: a line of plain words is decoded word for word
- `Immediate.of_narrow`: an instruction that narrows its literal first keeps to the rule
- `exec_immediate`: immediates are used exactly or refused
-/

namespace Smali

/-! ## Plain words -/

/-- Whether a character has no meaning of its own between operands. -/
def Token.isPlain (c : Char) : Bool :=
  !isSeparator c && c != '\x7b' && c != '"'

/-- A word that is an operand by itself. -/
structure PlainWord (w : List Char) : Prop where
  nonempty : w ≠ []
  plain : ∀ c ∈ w, Token.isPlain c = true

namespace PlainWord

variable {w : List Char} {c : Char}

/-- A plain character in front of plain characters. -/
theorem cons (hc : Token.isPlain c = true) (hw : ∀ d ∈ w, Token.isPlain d = true) : PlainWord (c :: w) :=
  ⟨List.cons_ne_nil _ _, List.forall_mem_cons.2 ⟨hc, hw⟩⟩

/-- Plain characters behind a plain word. -/
theorem append_right (h : PlainWord w) {s : List Char} (hs : s.all Token.isPlain = true) :
    PlainWord (w ++ s) :=
  ⟨by simp [h.nonempty], List.forall_mem_append.2 ⟨h.plain, List.all_eq_true.1 hs⟩⟩

/-- Plain characters in front of a plain word. -/
theorem append_left (h : PlainWord w) {s : List Char} (hs : s.all Token.isPlain = true) :
    PlainWord (s ++ w) :=
  ⟨by simp [h.nonempty], List.forall_mem_append.2 ⟨List.all_eq_true.1 hs, h.plain⟩⟩

/-- No separator is in a plain word. -/
theorem isSeparator_of_mem (h : PlainWord w) (hc : c ∈ w) : Token.isSeparator c = false := by
  have hplain := h.plain c hc
  simp only [Token.isPlain, Bool.and_eq_true, Bool.not_eq_true'] at hplain
  exact hplain.1.1

/-- No blank is in a plain word. -/
theorem isBlank_of_mem (h : PlainWord w) (hc : c ∈ w) : Text.isBlank c = false :=
  (Bool.or_eq_false_iff.1 (h.isSeparator_of_mem hc)).2

/-- Neither a brace nor a quote is in a plain word. -/
theorem ne_of_mem (h : PlainWord w) (hc : c ∈ w) : c ≠ '\x7b' ∧ c ≠ '"' := by
  have hplain := h.plain c hc
  simp only [Token.isPlain, Bool.and_eq_true, bne_iff_ne] at hplain
  exact ⟨hplain.1.2, hplain.2⟩

end PlainWord

/-! ### Numerals are plain -/

/-- A digit is a plain character. -/
theorem HexDigit.isPlain_char (h : HexDigit) : Token.isPlain h.char = true := by
  have hall : ∀ (value : Fin 16) (upper : Bool), Token.isPlain (HexDigit.mk value upper).char = true := by
    decide
  exact hall h.value h.upper

/-- A numeral is a plain word, with a plus or without. -/
theorem Numeral.plainWord {base : Nat} (m : Numeral base) (plus : Bool) :
    PlainWord (Text.plusSign plus ++ m.text) := by
  have hdigits : PlainWord m.text := by
    refine ⟨m.text_ne_nil, fun c hc => ?_⟩
    obtain ⟨d, -, rfl⟩ := List.mem_map.1 hc
    exact d.isPlain_char
  apply hdigits.append_left
  cases plus <;> decide

/-- What is read as a number without a minus is a plain word. -/
theorem Text.plainWord_of_readUnsigned {base n : Nat} {s : List Char}
    (h : readUnsigned base s = some n) : PlainWord s := by
  obtain ⟨plus, m, rfl, -⟩ := exists_of_readUnsigned h
  exact m.plainWord plus

/-- What is read as a slot is a plain word. -/
theorem Slot.plainWord_of_parse? {s : List Char} {slot : Slot} (h : parse? s = some slot) :
    PlainWord s := by
  unfold parse? at h
  split at h
  · obtain ⟨n, hn, -⟩ := Option.map_eq_some_iff.1 h
    exact .cons (by decide) (Text.plainWord_of_readUnsigned (Option.filter_eq_some_iff.1 hn).1).plain
  · obtain ⟨n, hn, -⟩ := Option.map_eq_some_iff.1 h
    exact .cons (by decide) (Text.plainWord_of_readUnsigned (Option.filter_eq_some_iff.1 hn).1).plain
  · cases h

namespace Literal

/-- A spelling is a plain word. -/
theorem Spelling.plainWord (w : Spelling) : PlainWord w.text := by
  have hall : "LlSsTt".toList.all Token.isPlain = true := by decide
  have hmarks : w.marks.all Token.isPlain = true :=
    List.all_eq_true.2 fun c hc => List.all_eq_true.1 hall c (w.marks_subset hc)
  have hunsigned : PlainWord w.unsigned := by
    apply (w.numeral.plainWord w.plus).append_left
    cases w.radix with
    | decimal => rfl
    | hexadecimal upper => cases upper <;> decide
  apply (hunsigned.append_right hmarks).append_left
  cases w.negative <;> decide

/-- A literal is a plain word. -/
theorem plainWord_of_parse {s : List Char} {v : Int64} (h : parse s = .ok v) : PlainWord s := by
  obtain ⟨w, rfl, -⟩ := exists_of_number? ((parse_eq_ok_iff s v).1 h)
  exact w.plainWord

end Literal

/-! ## Lines of plain words -/

/-- Words with a comma and a blank between them. -/
def listed : List (List Char) → List Char
  | [] => []
  | [w] => w
  | w :: ws => w ++ ',' :: ' ' :: listed ws

/-- An instruction line. -/
def instructionLine (mnemonic : String) (words : List (List Char)) : List Char :=
  mnemonic.toList ++ ' ' :: listed words

/-- A plain word ends at the end of the line. -/
theorem Token.scan_plainWord {w : List Char} (h : PlainWord w) : scan w = some [.word (String.ofList w)] := by
  obtain ⟨c, r, rfl⟩ := List.exists_cons_of_ne_nil h.nonempty
  have hc : c ∈ c :: r := List.mem_cons_self
  have hnot : ∀ e ∈ r, (!isSeparator e) = true := fun e he => by
    rw [h.isSeparator_of_mem (List.mem_cons_of_mem _ he), Bool.not_false]
  -- no character of the word ends it
  have hrest : r.dropWhile (!isSeparator ·) = [] := List.dropWhile_eq_nil_iff.2 hnot
  have hword : r.takeWhile (!isSeparator ·) = r := List.takeWhile_eq_self_iff.2 hnot
  rw [scan, if_neg (by simp [h.isSeparator_of_mem hc]), if_neg (by simpa using (h.ne_of_mem hc).1),
    if_neg (by simpa using (h.ne_of_mem hc).2), hrest, hword, scan]
  rfl

/-- Plain words with commas between them are tokens one by one. -/
theorem Token.scan_listed {words : List (List Char)} (h : ∀ w ∈ words, PlainWord w) :
    scan (listed words) = some (words.map fun w => .word (String.ofList w)) := by
  -- the induction is on the words: none, the last one, and one with more behind it
  fun_induction listed words with
  | case1 =>
    rw [scan]
    rfl
  | case2 w => exact scan_plainWord (h w List.mem_cons_self)
  | case3 w ws _ ih =>
    obtain ⟨hw, hws⟩ := List.forall_mem_cons.1 h
    obtain ⟨c, r, rfl⟩ := List.exists_cons_of_ne_nil hw.nonempty
    have hc := List.mem_cons_self (a := c) (l := r)
    rw [scan_plain (hw.isSeparator_of_mem hc) (hw.ne_of_mem hc).1 (hw.ne_of_mem hc).2
      (fun e he => hw.isSeparator_of_mem (List.mem_cons_of_mem _ he)) (by decide),
      scan_separator (by decide), ih hws]
    rfl

/-- Operands start and end with characters that are not blank. -/
theorem listed_ends {words : List (List Char)} (hne : words ≠ []) (h : ∀ w ∈ words, PlainWord w) :
    (∃ c, (listed words).head? = some c ∧ Text.isBlank c = false) ∧
      ∃ d, (listed words).getLast? = some d ∧ Text.isBlank d = false := by
  fun_induction listed words with
  | case1 => exact absurd rfl hne
  | case2 w =>
    have hw := h w List.mem_cons_self
    exact ⟨⟨_, List.head?_eq_some_head hw.nonempty, hw.isBlank_of_mem (List.head_mem hw.nonempty)⟩,
      _, List.getLast?_eq_some_getLast hw.nonempty, hw.isBlank_of_mem (List.getLast_mem hw.nonempty)⟩
  -- the first character is that of the first word, the last one that of the rest
  | case3 w ws hmore ih =>
    obtain ⟨hw, hws⟩ := List.forall_mem_cons.1 h
    obtain ⟨-, d, hlast, hd⟩ := ih hmore hws
    refine ⟨⟨w.head hw.nonempty, ?_, hw.isBlank_of_mem (List.head_mem hw.nonempty)⟩, d, ?_, hd⟩
    · rw [List.head?_append_of_ne_nil _ hw.nonempty, List.head?_eq_some_head hw.nonempty]
    · rw [List.getLast?_append_of_ne_nil _ (List.cons_ne_nil _ _), List.getLast?_cons, List.getLast?_cons,
        hlast]
      rfl

/-- A line of plain words is decoded word for word. -/
theorem Instruction.ofLine_instructionLine {mnemonic : String} {words : List (List Char)}
    (hname : mnemonic.toList ≠ []) (hblank : mnemonic.toList.any Text.isBlank = false)
    (hne : words ≠ []) (h : ∀ w ∈ words, PlainWord w) {i : Instruction} :
    ofLine (instructionLine mnemonic words) = .ok i ↔
      decode mnemonic (words.map fun w => .word (String.ofList w)) = .ok i := by
  obtain ⟨⟨c, hfirst, hc⟩, d, hlast, hd⟩ := listed_ends hne h
  have hscan : Token.scanOperands (listed words) = .ok (words.map fun w => .word (String.ofList w)) := by
    rw [Token.scanOperands, Token.scan_listed h]
  -- since the operands have no blanks at their ends, the line is cut behind the mnemonic
  rw [ofLine_eq_ok_iff, instructionLine,
    splitMnemonic_append hname hblank (by decide) hfirst hc hlast hd, String.ofList_toList, hscan]
  simp

/-! ## The rule -/

namespace Machine

/-- The rule for an immediate in a field of `w` bits: a number that the field has room for is used, any
other is refused, which changes nothing. -/
structure Immediate (w : Nat) (v : Int64) (s : State) (outcome : State × Except Fault Flow)
    (used : Prop) : Prop where
  fits : -2 ^ (w - 1) ≤ v.toInt → v.toInt < 2 ^ (w - 1) → used
  above : 2 ^ (w - 1) ≤ v.toInt → outcome = (s, .error (.overflow v))
  below : v.toInt < -2 ^ (w - 1) → outcome = (s, .error (.underflow v))

/-- A literal is kept if its field has room for it, and refused above and below. -/
theorem narrowLiteral_eq {w : Nat} (hw : w ≤ 64) (v : Int64) :
    narrowLiteral ⟨v, w⟩ =
      if 2 ^ (w - 1) ≤ v.toInt then .error (.overflow v)
      else if v.toInt < -2 ^ (w - 1) then .error (.underflow v)
      else .ok v := by
  have hlow := v.le_toInt
  have hhigh := v.toInt_lt
  simp only [narrowLiteral, Nat.one_shiftLeft, Int.natCast_pow, Int.cast_ofNat_Int]
  split
  · next hwide =>
    -- in the widest field there is room for all numbers
    obtain rfl : w = 64 := by omega
    rw [if_neg (by omega), if_neg (by omega)]
  · rfl

variable {s : State} {v : Int64} {w : Nat}

/-- An instruction that first narrows its literal keeps to the rule. -/
theorem Immediate.of_narrow {k : Int64 → Except Fault Frame} {used : Prop} (hw : w ≤ 64)
    (hused : proceed s (narrowLiteral ⟨v, w⟩ >>= k) = proceed s (k v) →
      -2 ^ (w - 1) ≤ v.toInt → v.toInt < 2 ^ (w - 1) → used) :
    Immediate w v s (proceed s (narrowLiteral ⟨v, w⟩ >>= k)) used := by
  rw [narrowLiteral_eq hw] at hused ⊢
  refine ⟨fun hlow hhigh => ?_, fun habove => ?_, fun hbelow => ?_⟩
  · refine hused ?_ hlow hhigh
    rw [if_neg (by omega), if_neg (by omega)]
    rfl
  · rw [if_pos habove]
    rfl
  -- a number below the range is not above it as well
  · have hpos : (0 : Int) < 2 ^ (w - 1) := Int.pow_pos (by decide)
    rw [if_neg (by omega), if_pos hbelow]
    rfl

/-- A number of 32 bits is kept when it is cut to 32 bits. -/
theorem toInt_toInt32 {n : Int64} (h : Width.int.Holds n.toInt) : n.toInt32.toInt = n.toInt := by
  have hlow : -2 ^ 31 ≤ n.toInt := h.1
  have hhigh : n.toInt < 2 ^ 31 := h.2
  rw [Int64.toInt_toInt32]
  exact Int.bmod_eq_of_le (by omega) (by omega)

/-- Loading a constant into one slot keeps to the rule. -/
theorem exec_const (hw : w ≤ 32) (p : Program) (s : State) (f : Frame) (dest : Slot) (v : Int64) :
    Immediate w v s (exec p s f (.const dest ⟨v, w⟩)) (dest.index < (f.file dest).size →
      ∃ f' n, exec p s f (.const dest ⟨v, w⟩) = (s, .ok (.next f')) ∧
        f'.read dest = .ok (.int n) ∧ n.toInt = v.toInt) := by
  refine .of_narrow (k := fun n => f.write dest (.int n.toInt32)) (by omega) fun hexec hlow hhigh hroom => ?_
  -- a field of 32 bits at most has room for no more than the slot
  have hpow : (2 : Int) ^ (w - 1) ≤ 2 ^ 31 := by
    exact_mod_cast Nat.pow_le_pow_right (by decide) (show w - 1 ≤ 31 by omega)
  have hholds : Width.int.Holds v.toInt := ⟨by show -2 ^ 31 ≤ _; omega, by show _ < 2 ^ 31; omega⟩
  obtain ⟨f', hwrite⟩ := write_ok (v := .int v.toInt32) hroom (by simp [Value.variant])
  exact ⟨f', v.toInt32, hexec.trans (congrArg (proceed s) hwrite), read_of_write hwrite,
    toInt_toInt32 hholds⟩

/-- Loading a constant into two slots keeps to the rule. -/
theorem exec_constWide (hw : w ≤ 64) (p : Program) (s : State) (f : Frame) (dest : Slot) (v : Int64) :
    Immediate w v s (exec p s f (.constWide dest ⟨v, w⟩)) (dest.index + 1 < (f.file dest).size →
      ∃ f', exec p s f (.constWide dest ⟨v, w⟩) = (s, .ok (.next f')) ∧
        f'.readWide dest = .ok (.long v)) := by
  refine .of_narrow (k := fun n => f.writeWide dest (.long n)) hw fun hexec _ _ hroom => ?_
  obtain ⟨f', hwrite⟩ := writeWide_ok hroom v
  exact ⟨f', hexec.trans (congrArg (proceed s) hwrite), readWide_of_writeWide hwrite⟩

/-- An operation whose literal fits is computed with the literal as it stands. -/
theorem exec_literal (hw : w ≤ 64) (p : Program) (s : State) {f : Frame} {lhs : Slot} {a : Int32}
    (hlhs : f.read lhs = .ok (.int a)) (op : BinaryOp) (dest : Slot) (v : Int64) :
    Immediate w v s (exec p s f (.arithmetic op (.of op .int) dest lhs (.literal ⟨v, w⟩)))
      (((op = .div ∨ op = .rem) ∧ v = 0 →
        exec p s f (.arithmetic op (.of op .int) dest lhs (.literal ⟨v, w⟩)) =
          (s, .error .divisionByZero)) ∧
      (¬ ((op = .div ∨ op = .rem) ∧ v = 0) → dest.index < (f.file dest).size →
        ∃ f' n, exec p s f (.arithmetic op (.of op .int) dest lhs (.literal ⟨v, w⟩)) = (s, .ok (.next f')) ∧
          f'.read dest = .ok (.int n) ∧ n.toInt % 2 ^ 32 = op.meaning 32 a.toInt v.toInt % 2 ^ 32)) := by
  have hread : f.readWidth .int lhs = .ok a.toInt64 :=
    bind_eq_ok.2 ⟨a, bind_eq_ok.2 ⟨.int a, hlhs, rfl⟩, rfl⟩
  -- the left operand is read first, then the literal is narrowed
  have hexec : exec p s f (.arithmetic op (.of op .int) dest lhs (.literal ⟨v, w⟩)) =
      proceed s (narrowLiteral ⟨v, w⟩ >>= fun b => evaluate op .int a.toInt64 b >>= fun r =>
        f.writeWidth .int dest r) := by
    show proceed s (f.readWidth .int lhs >>= fun _ => _) = _
    rw [hread]
    rfl
  have hholds : Width.int.Holds a.toInt64.toInt := by
    rw [Int32.toInt_toInt64]
    exact ⟨a.le_toInt, a.toInt_lt⟩
  rw [hexec]
  refine .of_narrow hw fun hnarrow _ _ => ⟨fun hzero => ?_, fun hzero hroom => ?_⟩
  · rw [hnarrow, evaluate_of_zero hzero]
    rfl
  -- where the divisor is not zero the operation has a result, of 32 bits
  · have heval := evaluate_of_not op .int a.toInt64 hzero
    obtain ⟨-, hresult, hmeaning⟩ := (evaluate_eq_ok_iff hholds _).1 heval
    obtain ⟨f', hwrite⟩ := write_ok (v := .int (reduce .int (exactResult op .int a.toInt64 v)).toInt32) hroom
      (by simp [Value.variant])
    refine ⟨f', _, ?_, read_of_write hwrite, ?_⟩
    · rw [hnarrow, heval]
      exact congrArg (proceed s) hwrite
    · rw [toInt_toInt32 hresult]
      rwa [Int32.toInt_toInt64] at hmeaning

end Machine

/-! ## The mnemonics -/

/-- The mnemonics that load a constant into one slot, with the width of its field. -/
def constMnemonics : List (String × Nat) :=
  [("const/4", 4), ("const/16", 16), ("const", 32), ("const/high16", 32)]

/-- The mnemonics that load a constant into two slots, with the width of its field. -/
def constWideMnemonics : List (String × Nat) :=
  [("const-wide/16", 16), ("const-wide/32", 32), ("const-wide", 64), ("const-wide/high16", 64)]

/-- The mnemonics that compute with a literal, with the operation and the width of the field. -/
def literalMnemonics : List (String × BinaryOp × Nat) :=
  [("add-int/lit8", .add, 8), ("rsub-int/lit8", .rsub, 8), ("mul-int/lit8", .mul, 8),
    ("div-int/lit8", .div, 8), ("rem-int/lit8", .rem, 8), ("and-int/lit8", .and, 8),
    ("or-int/lit8", .or, 8), ("xor-int/lit8", .xor, 8), ("shl-int/lit8", .shl, 8),
    ("shr-int/lit8", .shr, 8), ("ushr-int/lit8", .ushr, 8), ("add-int/lit16", .add, 16),
    ("rsub-int", .rsub, 16), ("mul-int/lit16", .mul, 16), ("div-int/lit16", .div, 16),
    ("rem-int/lit16", .rem, 16), ("and-int/lit16", .and, 16), ("or-int/lit16", .or, 16),
    ("xor-int/lit16", .xor, 16)]

/-- A mnemonic that stands for a form and can be written in front of operands. -/
structure Form.Named (form : Form) (mnemonic : String) : Prop where
  form : Form.ofMnemonic? mnemonic = some form
  nonempty : mnemonic.toList ≠ []
  unbroken : mnemonic.toList.any Text.isBlank = false

instance (form : Form) (mnemonic : String) : Decidable (form.Named mnemonic) :=
  decidable_of_iff (Form.ofMnemonic? mnemonic = some form ∧ mnemonic.toList ≠ [] ∧
      mnemonic.toList.any Text.isBlank = false)
    ⟨fun h => ⟨h.1, h.2.1, h.2.2⟩, fun h => ⟨h.form, h.nonempty, h.unbroken⟩⟩

/-- The mnemonics that load a constant into one slot have that form. -/
theorem named_const : ∀ entry ∈ constMnemonics, (Form.const entry.2).Named entry.1 ∧ entry.2 ≤ 32 := by
  decide +kernel

/-- The mnemonics that load a constant into two slots have that form. -/
theorem named_constWide :
    ∀ entry ∈ constWideMnemonics, (Form.constWide entry.2).Named entry.1 ∧ entry.2 ≤ 64 := by
  decide +kernel

/-- The mnemonics that compute with a literal have that form. -/
theorem named_literal : ∀ entry ∈ literalMnemonics,
    (Form.literalArithmetic entry.2.1 entry.2.2).Named entry.1 ∧ entry.2.2 ≤ 64 := by
  decide +kernel

section Lines

variable {mnemonic : String} {text destText lhsText : List Char} {v : Int64} {dest lhs : Slot}

/-- A word that is the text of a slot is read as the slot. -/
theorem Operands.read_slot {ops : Operands} {index : Nat}
    (hword : ops.tokens[index]? = some (.word (String.ofList destText)))
    (h : Slot.parse? destText = some dest) : ops.read slot index = .ok dest := by
  refine read_eq_ok_iff.2 ⟨_, hword, ?_⟩
  simp only [slot, word, bind, Except.bind, String.toList_ofList, h]
  rfl

/-- A word that is the text of a number is read as the number. -/
theorem Operands.read_literal {ops : Operands} {index : Nat}
    (hword : ops.tokens[index]? = some (.word (String.ofList text)))
    (h : Literal.parse text = .ok v) (w : Nat) : ops.read (literal · · w) index = .ok ⟨v, w⟩ := by
  refine read_eq_ok_iff.2 ⟨_, hword, ?_⟩
  simp only [literal, word, bind, Except.bind, String.toList_ofList, h]
  rfl

/-- A line of plain words behind a mnemonic is read as its form says. -/
theorem ofLine_named {form : Form} (h : form.Named mnemonic) {words : List (List Char)} (hne : words ≠ [])
    (hwords : ∀ w ∈ words, PlainWord w) {i : Instruction} :
    Instruction.ofLine (instructionLine mnemonic words) = .ok i ↔
      form.build ⟨mnemonic, words.map fun w => .word (String.ofList w)⟩ = .ok i := by
  rw [Instruction.ofLine_instructionLine h.nonempty h.unbroken hne hwords, Instruction.decode, h.form]

/-- A slot and a literal behind a mnemonic. -/
theorem plain_slot_literal (hdest : Slot.parse? destText = some dest) (hvalue : Literal.parse text = .ok v) :
    ∀ w ∈ [destText, text], PlainWord w :=
  List.forall_mem_cons.2 ⟨Slot.plainWord_of_parse? hdest,
    List.forall_mem_singleton.2 (Literal.plainWord_of_parse hvalue)⟩

/-- A line that loads a constant into one slot. -/
theorem ofLine_const {w : Nat} (h : (Form.const w).Named mnemonic)
    (hdest : Slot.parse? destText = some dest) (hvalue : Literal.parse text = .ok v) :
    Instruction.ofLine (instructionLine mnemonic [destText, text]) = .ok (.const dest ⟨v, w⟩) := by
  rw [ofLine_named h (List.cons_ne_nil _ _) (plain_slot_literal hdest hvalue)]
  exact Machine.bind_eq_ok.2 ⟨(), rfl,
    Machine.bind_eq_ok.2 ⟨dest, Operands.read_slot rfl hdest,
      Machine.bind_eq_ok.2 ⟨_, Operands.read_literal rfl hvalue w, rfl⟩⟩⟩

/-- A line that loads a constant into two slots. -/
theorem ofLine_constWide {w : Nat} (h : (Form.constWide w).Named mnemonic)
    (hdest : Slot.parse? destText = some dest) (hvalue : Literal.parse text = .ok v) :
    Instruction.ofLine (instructionLine mnemonic [destText, text]) = .ok (.constWide dest ⟨v, w⟩) := by
  rw [ofLine_named h (List.cons_ne_nil _ _) (plain_slot_literal hdest hvalue)]
  exact Machine.bind_eq_ok.2 ⟨(), rfl,
    Machine.bind_eq_ok.2 ⟨dest, Operands.read_slot rfl hdest,
      Machine.bind_eq_ok.2 ⟨_, Operands.read_literal rfl hvalue w, rfl⟩⟩⟩

/-- A line that computes with a literal. -/
theorem ofLine_literal {op : BinaryOp} {w : Nat} (h : (Form.literalArithmetic op w).Named mnemonic)
    (hdest : Slot.parse? destText = some dest) (hlhs : Slot.parse? lhsText = some lhs)
    (hvalue : Literal.parse text = .ok v) :
    Instruction.ofLine (instructionLine mnemonic [destText, lhsText, text]) =
      .ok (.arithmetic op (.of op .int) dest lhs (.literal ⟨v, w⟩)) := by
  rw [ofLine_named h (List.cons_ne_nil _ _)
    (List.forall_mem_cons.2 ⟨Slot.plainWord_of_parse? hdest, plain_slot_literal hlhs hvalue⟩)]
  exact Machine.bind_eq_ok.2 ⟨(), rfl,
    Machine.bind_eq_ok.2 ⟨dest, Operands.read_slot rfl hdest,
      Machine.bind_eq_ok.2 ⟨lhs, Operands.read_slot rfl hlhs,
        Machine.bind_eq_ok.2 ⟨_, Operands.read_literal rfl hvalue w, rfl⟩⟩⟩⟩

end Lines

namespace Machine

/-- Immediates are used exactly or refused. Whatever text a number is written as, a line that loads it is
decoded, and executing it leaves the number itself in the destination if the field of the mnemonic has room
for it, and fails otherwise, above and below the range, with nothing changed. An operation with a literal
keeps to the same rule: it means the operation on the number itself. -/
theorem exec_immediate (p : Program) (s : State) (f : Frame) (text destText : List Char) (v : Int64)
    (dest : Slot) (hvalue : Literal.parse text = .ok v) (hdest : Slot.parse? destText = some dest) :
    (∀ entry ∈ constMnemonics, ∃ i,
      Instruction.ofLine (instructionLine entry.1 [destText, text]) = .ok i ∧
      Immediate entry.2 v s (exec p s f i) (dest.index < (f.file dest).size →
        ∃ f' n, exec p s f i = (s, .ok (.next f')) ∧ f'.read dest = .ok (.int n) ∧ n.toInt = v.toInt)) ∧
    (∀ entry ∈ constWideMnemonics, ∃ i,
      Instruction.ofLine (instructionLine entry.1 [destText, text]) = .ok i ∧
      Immediate entry.2 v s (exec p s f i) (dest.index + 1 < (f.file dest).size →
        ∃ f', exec p s f i = (s, .ok (.next f')) ∧ f'.readWide dest = .ok (.long v))) ∧
    ∀ entry ∈ literalMnemonics, ∀ (lhsText : List Char) (lhs : Slot) (a : Int32),
      Slot.parse? lhsText = some lhs → f.read lhs = .ok (.int a) → ∃ i,
      Instruction.ofLine (instructionLine entry.1 [destText, lhsText, text]) = .ok i ∧
      Immediate entry.2.2 v s (exec p s f i)
        (((entry.2.1 = .div ∨ entry.2.1 = .rem) ∧ v = 0 → exec p s f i = (s, .error .divisionByZero)) ∧
        (¬ ((entry.2.1 = .div ∨ entry.2.1 = .rem) ∧ v = 0) → dest.index < (f.file dest).size →
          ∃ f' n, exec p s f i = (s, .ok (.next f')) ∧ f'.read dest = .ok (.int n) ∧
            n.toInt % 2 ^ 32 = entry.2.1.meaning 32 a.toInt v.toInt % 2 ^ 32)) := by
  refine ⟨fun entry hentry => ?_, fun entry hentry => ?_, fun entry hentry lhsText lhs a hlhs hread => ?_⟩
  · obtain ⟨hnamed, hw⟩ := named_const entry hentry
    exact ⟨_, ofLine_const hnamed hdest hvalue, exec_const hw p s f dest v⟩
  · obtain ⟨hnamed, hw⟩ := named_constWide entry hentry
    exact ⟨_, ofLine_constWide hnamed hdest hvalue, exec_constWide hw p s f dest v⟩
  · obtain ⟨hnamed, hw⟩ := named_literal entry hentry
    exact ⟨_, ofLine_literal hnamed hdest hlhs hvalue, exec_literal hw p s hread entry.2.1 dest v⟩

/-- A call with three registers, of which the first holds five. -/
def threeRegisters : Frame where
  method := default
  code := default
  registers := ⟨#[some (.int 5), none, none]⟩
  parameters := ⟨#[]⟩

/-- One below the range of eight bits. -/
theorem threeRegisters_immediate :
    Literal.parse "-0x81t".toList = .ok (-129) ∧ Slot.parse? "v1".toList = some (.register 1) ∧
    (∃ i, Instruction.ofLine (instructionLine "const/4" ["v1".toList, "-0x81t".toList]) = .ok i ∧
      exec default default threeRegisters i = (default, .error (.underflow (-129)))) ∧
    (∃ i, Instruction.ofLine (instructionLine "const-wide/16" ["v1".toList, "-0x81t".toList]) = .ok i ∧
      ∃ f', exec default default threeRegisters i = (default, .ok (.next f')) ∧
        f'.readWide (.register 1) = .ok (.long (-129))) ∧
    ∃ i, Instruction.ofLine (instructionLine "rsub-int" ["v1".toList, "v0".toList, "-0x81t".toList]) = .ok i ∧
      ∃ f' n, exec default default threeRegisters i = (default, .ok (.next f')) ∧
        f'.read (.register 1) = .ok (.int n) ∧ n.toInt % 2 ^ 32 = (-129 - 5) % 2 ^ 32 := by
  have hvalue : Literal.parse "-0x81t".toList = .ok (-129) := by decide +kernel
  have hdest : Slot.parse? "v1".toList = some (.register 1) := by decide +kernel
  obtain ⟨hconst, hwide, hliteral⟩ := exec_immediate default default threeRegisters _ _ _ _ hvalue hdest
  refine ⟨hvalue, hdest, ?_, ?_, ?_⟩
  · obtain ⟨i, hi, h⟩ := hconst ("const/4", 4) (by decide)
    exact ⟨i, hi, h.below (by decide)⟩
  · obtain ⟨i, hi, h⟩ := hwide ("const-wide/16", 16) (by decide)
    exact ⟨i, hi, h.fits (by decide) (by decide) (by decide)⟩
  · obtain ⟨i, hi, h⟩ := hliteral ("rsub-int", .rsub, 16) (by decide) "v0".toList (.register 0) 5
      (by decide +kernel) rfl
    exact ⟨i, hi, (h.fits (by decide) (by decide)).2 (by decide) (by decide)⟩

end Machine

end Smali
