import Smali.ReadError
import Smali.Text.Blank
import Smali.Text.Cut
import Smali.Text.Numeral
import Smali.Text.Quoted

/-!
# Lines and their tokens

A source line loses its comment, then falls into a mnemonic and the text of its operands. The operands
are tokens separated by commas and blanks: plain words, quoted words, and groups in braces, which hold
either a list or a range.

`Token.scan` reads the tokens; `unescape` gives the text that a quoted word stands for.
-/

namespace Smali

/-- One operand of an instruction line, not yet understood. -/
inductive Token where
  | word (text : String)
  /-- `{v0, v1, p0}` -/
  | list (items : List String)
  /-- `{v0 .. v5}` -/
  | range (first last : String)
  deriving Repr, DecidableEq, Inhabited

/-! ## Comments and mnemonics -/

/-- Where a character stands with respect to quoted words. -/
inductive QuoteState where
  | outside
  | inside
  /-- Right behind a backslash in a quoted word. -/
  | escaped
  deriving Repr, DecidableEq, Inhabited

/-- Cuts the comment off the rest of a line. -/
def stripCommentFrom : QuoteState → List Char → List Char
  | _, [] => []
  | .outside, '#' :: _ => []
  | .outside, '"' :: r => '"' :: stripCommentFrom .inside r
  | .outside, c :: r => c :: stripCommentFrom .outside r
  | .inside, '\\' :: r => '\\' :: stripCommentFrom .escaped r
  | .inside, '"' :: r => '"' :: stripCommentFrom .outside r
  | .inside, c :: r => c :: stripCommentFrom .inside r
  | .escaped, c :: r => c :: stripCommentFrom .inside r

/-- Cuts a comment off a line: `#` and what follows, unless the `#` stands in a quoted word. -/
def stripComment (line : List Char) : List Char :=
  stripCommentFrom .outside line

/-- The first word of a line, and the trimmed rest. -/
def splitMnemonic (line : List Char) : List Char × List Char :=
  match Text.cutWhere Text.isBlank (Text.trim line) with
  | some (mnemonic, rest) => (mnemonic, Text.trim rest)
  | none => (Text.trim line, [])

namespace Token

/-! ## Reading tokens -/

/-- Whether the character separates tokens. -/
def isSeparator (c : Char) : Bool :=
  c == ',' || Text.isBlank c

/-- What stands between braces: a range if it has two dots, else a list. -/
def group (inner : List Char) : Token :=
  match Text.cut ['.', '.'] inner with
  | some (first, last) => .range (String.ofList (Text.trim first)) (String.ofList (Text.trim last))
  | none =>
    .list ((((inner.splitOnP (· == ',')).map Text.trim).filter (!·.isEmpty)).map String.ofList)

/-- Reads up to the quote that closes a quoted word, quote included, and gives the rest. -/
def closeQuote : (escaped : Bool) → List Char → Option (List Char × List Char)
  | _, [] => none
  | true, c :: r => (closeQuote false r).map fun (w, rest) => (c :: w, rest)
  | false, '\\' :: r => (closeQuote true r).map fun (w, rest) => ('\\' :: w, rest)
  | false, '"' :: r => some (['"'], r)
  | false, c :: r => (closeQuote false r).map fun (w, rest) => (c :: w, rest)

theorem eq_append_of_closeQuote {escaped : Bool} {s w rest : List Char}
    (h : closeQuote escaped s = some (w, rest)) : s = w ++ rest := by
  fun_induction closeQuote escaped s generalizing w with
  | case1 => simp at h
  | case4 =>
    obtain ⟨rfl, rfl⟩ := Prod.mk.inj (Option.some.inj h)
    rfl
  | case2 c r ih | case3 r ih | case5 c r _ _ ih =>
    obtain ⟨⟨v, t⟩, ht, hv⟩ := Option.map_eq_some_iff.1 h
    obtain ⟨rfl, rfl⟩ := Prod.mk.inj hv
    simpa using ih ht

theorem length_cutWhere_lt {p : Char → Bool} {s before after : List Char}
    (h : Text.cutWhere p s = some (before, after)) : after.length < s.length := by
  obtain ⟨c, -, rfl, -⟩ := Text.eq_append_of_cutWhere h
  simp
  omega

/-- Reads the tokens of an operand text, or nothing if a group or a quoted word is left open. -/
def scan (s : List Char) : Option (List Token) :=
  match s with
  | [] => some []
  | c :: r =>
    if isSeparator c then
      scan r
    else if c == '\x7b' then
      -- a group ends at the first closing brace, also inside of quotes
      match h : Text.cutWhere (· == '\x7d') r with
      | none => none
      | some (inner, rest) =>
        have := length_cutWhere_lt h
        (scan rest).map (group inner :: ·)
    else if c == '"' then
      -- what follows the closing quote directly is a token of its own
      match h : closeQuote false r with
      | none => none
      | some (w, rest) =>
        have := congrArg List.length (eq_append_of_closeQuote h)
        (scan rest).map (.word (String.ofList (c :: w)) :: ·)
    else
      -- inside of a plain word, quotes and braces are ordinary characters
      have := (List.dropWhile_sublist (l := r) (!isSeparator ·)).length_le
      (scan (r.dropWhile (!isSeparator ·))).map
        (.word (String.ofList (c :: r.takeWhile (!isSeparator ·))) :: ·)
termination_by s.length
decreasing_by all_goals simp_all <;> omega

/-- Reads the tokens of an operand text. -/
def scanOperands (s : List Char) : Except ReadError (List Token) :=
  match scan s with
  | some tokens => .ok tokens
  | none => .error (.unterminatedOperand (String.ofList s))

/-- How an error shows a token. -/
def shown : Token → String
  | word text => "Word(" ++ Text.quote text ++ ")"
  | list items => "List([" ++ ", ".intercalate (items.map Text.quote) ++ "])"
  | range first last => "Range(" ++ Text.quote first ++ ", " ++ Text.quote last ++ ")"

end Token

/-! ## Quoted words -/

/-- The character that an escape letter stands for. -/
def escapedChar? : Char → Option Char
  | 'n' => some '\n'
  | 't' => some '\t'
  | 'r' => some '\r'
  | 'b' => some '\x08'
  | 'f' => some '\x0c'
  | '0' => some '\x00'
  | '"' => some '"'
  | '\'' => some '\''
  | '\\' => some '\\'
  | _ => none

/-- The character with the code point, or the replacement character for a surrogate. -/
def charOfCode (n : Nat) : Char :=
  if n.isValidChar then Char.ofNat n else '�'

/-- The characters that the inside of a quoted word stands for. -/
def unescapeInside : List Char → Option (List Char)
  | [] => some []
  | '\\' :: 'u' :: a :: b :: c :: d :: r => do
    let code ← Text.readUnsigned 16 [a, b, c, d]
    return charOfCode code :: (← unescapeInside r)
  -- fewer than four characters behind `\u` end up here, and `u` is no escape letter
  | '\\' :: e :: r => do return (← escapedChar? e) :: (← unescapeInside r)
  | ['\\'] => none
  | c :: r => do return c :: (← unescapeInside r)

/-- The inside of a word that starts and ends with a double quote of its own. -/
def insideQuotes? : List Char → Option (List Char)
  | '"' :: r => if r.getLast? = some '"' then some r.dropLast else none
  | _ => none

/-- The text that a quoted word stands for. -/
def unescape (literal : List Char) : Except ReadError String :=
  match (insideQuotes? literal).bind unescapeInside with
  | some text => .ok (String.ofList text)
  | none => .error (.literal (String.ofList literal))

end Smali
