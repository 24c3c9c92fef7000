import Smali.Proofs.StringLiterals

/-!
# Character literals

The initial value of a field may be a character between single quotes. Nothing that happens to the line on
its way minds which character it is, blanks, colons and equals signs included, with one exception: comments
are cut off before anything else is looked at, and only double quotes keep a number sign. So `'#'` ends
behind its first quote.

## Key results

- `Constant.parse_character`: the value of a character between single quotes
- `bare_characterLine`, `bare_numberSignLine`: what is left of the line
- `Reader.readLines_character`: what the line adds to a class, and when it is refused
-/

namespace Smali

/-- The character between single quotes. -/
def characterLiteral (ch : Char) : List Char := ['\'', ch, '\'']

/-- `.field static f:C = '<ch>'` -/
def characterLine (ch : Char) : List Char :=
  ".field static f:C = ".toList ++ characterLiteral ch

/-- The field that the line declares. -/
def characterField (ch : Char) : Field :=
  ⟨.ofWords ["static"], "f", .char, some (.integer (Int64.ofNat ch.toNat))⟩

/-! ## The value -/

/-- A character other than a backslash stands for itself. -/
theorem unescape_character {ch : Char} (hescape : ch ≠ '\\') :
    unescape ['"', ch, '"'] = .ok (String.ofList [ch]) := by
  have hinside : unescapeInside [ch] = some [ch] := by
    rw [unescapeInside]
    · rfl
    all_goals simp [hescape]
  have hquotes : insideQuotes? ['"', ch, '"'] = some [ch] := rfl
  rw [unescape, hquotes, Option.bind_some, hinside]

/-- A character between single quotes is its code point. -/
theorem Constant.parse_character {ch : Char} (hescape : ch ≠ '\\') (type : Descriptor) :
    Constant.parse (characterLiteral ch) type = .ok (.integer (Int64.ofNat ch.toNat)) := by
  -- none of the words starts with a quote
  have hword {word : List Char} (h : word.head? ≠ some '\'') : characterLiteral ch ≠ word := by
    rintro rfl
    exact h rfl
  have htrue : characterLiteral ch ≠ "true".toList := hword (by decide)
  have hfalse : characterLiteral ch ≠ "false".toList := hword (by decide)
  have hnull : characterLiteral ch ≠ "null".toList := hword (by decide)
  unfold Constant.parse
  rw [if_neg htrue, if_neg hfalse, if_neg hnull]
  change Constant.ofCharacter.one (characterLiteral ch) [ch] = _
  refine Machine.bind_eq_ok.2 ⟨_, unescape_character hescape, ?_⟩
  rw [String.toList_ofList]
  rfl

/-! ## The line -/

theorem trim_characterLiteral (ch : Char) : Text.trim (characterLiteral ch) = characterLiteral ch :=
  Text.trim_of_ends (d := '\'') rfl (by decide) rfl (by decide)

theorem getLast?_append_character (start : List Char) (ch : Char) :
    (start ++ characterLiteral ch).getLast? = some '\'' := by
  rw [characterLiteral, List.getLast?_append_of_ne_nil _ (List.cons_ne_nil _ _)]
  rfl

/-- A number sign starts a comment, also between single quotes; all other characters stay. -/
theorem bare_characterLine {ch : Char} (hsign : ch ≠ '#') : bare (characterLine ch) = characterLine ch := by
  have hliteral : stripCommentFrom .outside (characterLiteral ch) = characterLiteral ch := by
    by_cases hquote : ch = '"'
    · -- the quote opens a word that goes on to the end of the line, where no comment starts
      subst hquote
      rfl
    · simp [characterLiteral, stripCommentFrom]
  have hquote : '"' ∉ ".field static f:C = ".toList := by decide
  have hstart : '#' ∉ ".field static f:C = ".toList := by decide
  have hkept : stripComment (characterLine ch) = characterLine ch :=
    (stripCommentFrom_plain hquote hstart _).trans (congrArg (_ ++ ·) hliteral)
  rw [bare, hkept]
  exact Text.trim_of_ends rfl (by decide) (getLast?_append_character _ ch) (by decide)

/-- Of `'#'` the first quote is left. -/
theorem bare_numberSignLine : bare (characterLine '#') = ".field static f:C = '".toList := by
  decide

namespace Reader

variable {r : Reader} {c : Class} {value : List Char}

theorem splitMnemonic_characterField (hlast : value.getLast? = some '\'') :
    splitMnemonic (fieldDirective "static f:C".toList value) =
      ("field".toList, "static f:C".toList ++ ' ' :: '=' :: ' ' :: value) :=
  splitMnemonic_fieldDirective (c := 's') rfl (by decide) hlast (by decide)

/-- The line is accepted if the value behind the equals sign can be read. -/
theorem accept_characterField (hblock : r.block = .none) (hclass : r.class? = some c)
    (hlast : value.getLast? = some '\'') :
    r.accept ('.' :: fieldDirective "static f:C".toList value) =
      (Constant.parse (Text.trim value) .char).map fun constant => { r with
        class? := some { c with
          fields := c.fields.insert "f" ⟨.ofWords ["static"], "f", .char, some constant⟩ } } := by
  -- in front of the equals sign stand the flags, the name and the type
  have hmember : lastWord? "static f:C".toList = some (.ofWords ["static"], ['f'] ++ ':' :: ['C']) := by
    decide
  have htype : Descriptor.parse ['C'] = .ok .char := rfl
  rw [accept_directive hblock, readDirective_field (splitMnemonic_characterField hlast)]
  exact readField_value hclass (by decide) hmember (by decide) htype

theorem characterLine_eq (value : List Char) :
    ".field static f:C = ".toList ++ value = '.' :: fieldDirective "static f:C".toList value := by
  have hstart : ".field static f:C = ".toList =
      '.' :: "field".toList ++ ' ' :: "static f:C".toList ++ [' ', '=', ' '] := by decide
  exact append_value hstart value

/-- A character between single quotes arrives as its code point, whatever character it is, except that
`'#'` is refused: what is left of it in front of the comment is a quote. -/
theorem readLines_character (r : Reader) (c : Class) (ch : Char) (rest : List Char)
    (hblock : r.block = .none) (hclass : r.class? = some c) (hfeed : ch ≠ '\n') (hescape : ch ≠ '\\') :
    r.readLines (Text.lines (characterLine ch ++ '\n' :: rest)) =
      if ch = '#' then ({ r with line := r.line + 1 }, some (.literal "'"))
      else { r with
        line := r.line + 1
        class? := some { c with fields := c.fields.insert "f" (characterField ch) }
      }.readLines (Text.lines rest) := by
  have hends : '\n' ∉ characterLine ch := by
    have hstart : '\n' ∉ ".field static f:C = ".toList := by decide
    have hliteral : '\n' ∉ characterLiteral ch := by simp [characterLiteral, Ne.symm hfeed]
    exact fun h => (List.mem_append.1 h).elim hstart hliteral
  split
  · next hsign =>
    subst hsign
    -- the comment starts inside the literal, so the value is its first quote alone
    have hbare : bare (characterLine '#') = '.' :: fieldDirective "static f:C".toList ['\''] :=
      bare_numberSignLine.trans (characterLine_eq ['\''])
    have hlast : ['\''].getLast? = some '\'' := rfl
    have hvalue : Constant.parse (Text.trim ['\'']) .char = .error (.literal "'") := rfl
    have haccept := accept_characterField (r := { r with line := r.line + 1 }) hblock hclass hlast
    rw [hvalue] at haccept
    exact readLines_refused_line hends hbare (List.cons_ne_nil _ _)
      (startsClass_field (splitMnemonic_characterField hlast)) rest haccept
  · next hsign =>
    have hlast : (characterLiteral ch).getLast? = some '\'' := rfl
    have hbare : bare (characterLine ch) = '.' :: fieldDirective "static f:C".toList (characterLiteral ch) :=
      (bare_characterLine hsign).trans (characterLine_eq (characterLiteral ch))
    have haccept := accept_characterField (r := { r with line := r.line + 1 }) hblock hclass hlast
    rw [trim_characterLiteral, Constant.parse_character hescape] at haccept
    exact readLines_line hends hbare (List.cons_ne_nil _ _)
      (startsClass_field (splitMnemonic_characterField hlast)) rest haccept

end Reader

/-- A class that is open. -/
def openClass : Reader where
  classes := {}
  journal := {}
  class? := some { flags := {}, name := "LMark;" }

/-- A line separator is a blank, and a double quote opens a word that nothing closes; both are kept. -/
theorem blank_and_quote_read :
    (openClass.readLines (Text.lines (characterLine '\u2028' ++ '\n' :: []))).1.class?.map
      (·.fields.values.map (·.initial?)) = some [some (.integer 8232)] ∧
    (openClass.readLines (Text.lines (characterLine '"' ++ '\n' :: []))).1.class?.map
      (·.fields.values.map (·.initial?)) = some [some (.integer 34)] := by
  constructor
  · rw [Reader.readLines_character openClass _ '\u2028' [] rfl rfl (by decide) (by decide)]
    decide
  · rw [Reader.readLines_character openClass _ '"' [] rfl rfl (by decide) (by decide)]
    decide

/-- A source with a number sign for the character is refused, one with its neighbour is not. -/
theorem number_sign_refused :
    Text.lines "\n.class LMark;\n.field static f:C = '#'\n".toList =
      [[], ".class LMark;".toList, characterLine '#'] ∧
    (ClassTable.readSource {} {} "\n.class LMark;\n.field static f:C = '#'\n").error? = some (.literal "'") ∧
    (ClassTable.readSource {} {} "\n.class LMark;\n.field static f:C = '$'\n").error? = none := by
  refine ⟨by decide, ?_, ?_⟩
  all_goals
    rw [ClassTable.readSource_eq_readAll]
    decide

end Smali
