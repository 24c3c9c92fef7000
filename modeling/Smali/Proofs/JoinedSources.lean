import Smali.Proofs.Loading
import Smali.Proofs.SourceText

/-!
# Sources in one file

Where a source ends nothing is open but a class, and what the next source has in front of its first class
does not look at that class: outside of classes only blocks and lines that are passed over are right. So
it makes no difference whether the class is finished there or is still open when the next source follows
in the same text.

## Key results

- `Opened.classes?_behind`: lines that are right by themselves are right behind an open class, and finish it
- `ClassTable.readSource_joined`: two sources in one text define what they define one after the other
-/

namespace Smali

/-! ## Lines outside of classes -/

namespace Reader

variable {r r' : Reader} {line : List Char}

/-! ### What needs a class -/

/-- Without a class none is changed. -/
theorem not_withClass (hclass : r.class? = none) (change : Class → Class) :
    r.withClass change ≠ .ok r' := by
  intro h
  obtain ⟨c, hc, _⟩ := withClass_ok h
  cases hclass.symm.trans hc

/-- Nor is a method. -/
theorem not_withDraft (hclass : r.class? = none) (change : Draft → Except ReadError Draft) :
    r.withDraft change ≠ .ok r' := by
  intro h
  obtain ⟨c, _, _, hc, _⟩ := withDraft_ok h
  cases hclass.symm.trans hc

/-- A field needs a class. -/
theorem not_readField (hclass : r.class? = none) (rest : List Char) :
    r.readField rest ≠ .ok r' := by
  intro h
  unfold readField at h
  dsimp only at h
  split at h
  · cases h
  · split at h
    · cases h
    · obtain ⟨_, _, h⟩ := Machine.bind_eq_ok.1 h
      obtain ⟨_, _, h⟩ := Machine.bind_eq_ok.1 h
      exact not_withClass hclass _ h

/-- A method needs a class. -/
theorem not_beginMethod (hclass : r.class? = none) (rest : List Char) :
    r.beginMethod rest ≠ .ok r' := by
  intro h
  unfold beginMethod at h
  rw [hclass] at h
  split at h
  · cases h
  · cases h

/-- The number of registers needs a method in a class. -/
theorem not_readRegisters (hclass : r.class? = none) (rest : List Char) :
    r.readRegisters rest ≠ .ok r' := by
  intro h
  obtain ⟨_, _, h⟩ := Machine.bind_eq_ok.1 h
  dsimp only at h
  split at h
  · exact not_withDraft hclass _ h
  · cases h

/-- A switch table needs a method in a class. -/
theorem not_beginSwitch (hclass : r.class? = none) (rest : List Char) :
    r.beginSwitch rest ≠ .ok r' := by
  intro h
  obtain ⟨_, _, h⟩ := Machine.bind_eq_ok.1 h
  dsimp only at h
  rw [hclass] at h
  split at h
  · cases h
  · cases h

/-- The end of a method needs a method. -/
theorem not_endMethod (hdraft : r.draft? = none) : r.endMethod ≠ .ok r' := by
  intro h
  unfold endMethod at h
  rw [hdraft] at h
  cases h

/-! ### What does not -/

/-- From `r`, where no class is open, `f` opens none, and it would do the same if a class were open. -/
def PassesOver (r : Reader) (f : Reader → Except ReadError Reader) (r' : Reader) : Prop :=
  ∃ block journal, r' = { r with block, journal } ∧
    ∀ c?, f { r with class? := c? } = .ok { r with class? := c?, block, journal }

/-- A line of a switch table outside of classes. -/
theorem readSwitchLine_outside (hclass : r.class? = none) {name : String} {table : SwitchTable}
    (h : r.readSwitchLine name table line = .ok r') :
    r.PassesOver (·.readSwitchLine name table line) r' := by
  unfold PassesOver
  unfold readSwitchLine at h ⊢
  split at h
  -- the end of a table would give it to a method
  · have hclosed : { r with block := .none }.class? = none := hclass
    exact absurd h (not_withDraft hclosed _)
  · next hend =>
    split at h
    · obtain rfl := Except.ok.inj h
      exact ⟨_, r.journal, rfl, fun c? => if_neg hend⟩
    · cases h

/-- A line of an annotation does not look at the class. -/
theorem readMetadataLine_outside (r : Reader) (depth : Nat) (line : List Char) :
    r.PassesOver (fun r => .ok (r.readMetadataLine depth line)) (r.readMetadataLine depth line) := by
  unfold PassesOver readMetadataLine
  split
  · exact ⟨_, r.journal, rfl, fun c? => rfl⟩
  · split
    · exact ⟨_, r.journal, rfl, fun c? => rfl⟩
    · exact ⟨r.block, r.journal, rfl, fun c? => rfl⟩

/-- Outside of classes a directive that is right starts a class, starts a block or is passed over. -/
theorem readDirective_outside (hclass : r.class? = none) (hdraft : r.draft? = none)
    {directive : List Char} (hname : (splitMnemonic directive).1 ≠ "class".toList)
    (h : r.readDirective directive = .ok r') : r.PassesOver (·.readDirective directive) r' := by
  unfold PassesOver
  -- one case for each directive; those that need a class are refused
  unfold readDirective at h ⊢
  dsimp only at h ⊢
  split at h
  · next hclassLine =>
    exact absurd (String.toList_ofList.symm.trans (congrArg String.toList hclassLine)) hname
  · obtain ⟨_, _, h⟩ := Machine.bind_eq_ok.1 h
    exact absurd h (not_withClass hclass _)
  · exact absurd h (not_readField hclass _)
  · exact absurd h (not_beginMethod hclass _)
  · exact absurd h (not_readRegisters hclass _)
  · exact absurd h (not_readRegisters hclass _)
  · exact absurd h (not_beginSwitch hclass _)
  iterate 4
    · obtain rfl := Except.ok.inj h
      exact ⟨_, r.journal, rfl, fun c? => rfl⟩
  · split at h
    · exact absurd h (not_endMethod hdraft)
    · next hend =>
      obtain rfl := Except.ok.inj h
      exact ⟨r.block, _, rfl, fun c? => if_neg hend⟩

/-- Where neither a class nor a method is open, a line that starts no class opens nothing but a block, and
it would do the same behind a class. -/
theorem accept_outside (hclass : r.class? = none) (hdraft : r.draft? = none)
    (hstart : r.startsClass line = false) (h : r.accept line = .ok r') :
    r.PassesOver (·.accept line) r' := by
  obtain ⟨classes, journal, class?, draft?, block, number⟩ := r
  obtain rfl : class? = none := hclass
  obtain rfl : draft? = none := hdraft
  -- one case for each block that may be open
  cases block with
  | switch name table => exact readSwitchLine_outside rfl h
  | metadata depth =>
    obtain rfl := Except.ok.inj h
    exact readMetadataLine_outside _ depth line
  | skipped closing =>
    obtain rfl := Except.ok.inj h
    by_cases hend : line = closing
    · exact ⟨.none, journal, by simp [hend], fun c? => by simp [accept, hend]⟩
    · exact ⟨.skipped closing, journal, by simp [hend], fun c? => by simp [accept, hend]⟩
  | none =>
    unfold accept at h
    dsimp only at h
    split at h
    · next directive =>
      exact readDirective_outside rfl rfl (of_decide_eq_false hstart) h
    -- a label and an instruction belong to a method
    · unfold readLabel at h
      obtain ⟨c, _, _, hc, _⟩ := withDraft_ok h
      cases hc
    · obtain ⟨_, _, h⟩ := Machine.bind_eq_ok.1 h
      obtain ⟨c, _, hc, _⟩ := withCode_ok h
      cases hc

end Reader

namespace Opened

variable {o o' : Opened} {line : List Char} {cs : List Class}

/-- Where neither a class nor a method is open, a line that starts no class leaves both alone, and does the
same behind a class. -/
theorem accept_outside (hclass : o.class? = none) (hdraft : o.draft? = none)
    (hstart : o.startsClass line = false) (h : o.accept line = some o') :
    o'.class? = none ∧ o'.draft? = none ∧
      ∀ c?, { o with class? := c? }.accept line = some { o' with class? := c? } := by
  have hopened := Reader.accept_opened (Reader.ofOpened o) line
  rw [Reader.opened_ofOpened, h] at hopened
  obtain ⟨r', hr', rfl⟩ := Option.map_eq_some_iff.1 hopened
  obtain ⟨block, journal, rfl, hsame⟩ :=
    Reader.accept_outside hclass hdraft hstart (ok_of_toOption hr')
  refine ⟨hclass, hdraft, fun c? => ?_⟩
  exact congrArg Reader.result (hsame c?)

/-- Lines that are right by themselves are right behind an open class too: either they finish it, and
otherwise do what they do by themselves, or they leave it open. -/
theorem readLine_behind (hclass : o.class? = none) (hdraft : o.draft? = none)
    (h : o.readLine line = some (cs, o')) (c? : Option Class) :
    { o with class? := c? }.readLine line = some (c?.toList ++ cs, o') ∨
      cs = [] ∧ o'.class? = none ∧ o'.draft? = none ∧
        { o with class? := c? }.readLine line = some ([], { o' with class? := c? }) := by
  -- whether a line starts a class does not hang on the class that is open
  have hsame : { o with class? := c? }.startsClass (bare line) = o.startsClass (bare line) := rfl
  cases hstart : o.startsClass (bare line) with
  | true =>
    obtain ⟨rfl, hempty⟩ := readLine_start h hstart
    refine .inl ?_
    rw [readLine_of_startsClass (hsame.trans hstart), hempty, hclass]
    rfl
  | false =>
    have hsettle : o.settle (bare line) = ([], o) := if_neg (by simp [hstart])
    have hsettle' : { o with class? := c? }.settle (bare line) = ([], { o with class? := c? }) :=
      if_neg (by simp [hsame, hstart])
    obtain ⟨hempty, rfl, rfl⟩ | ⟨hfull, hcs, haccept⟩ := readLine_cases h
    · exact .inr ⟨rfl, hclass, hdraft, if_pos (by rw [hempty]; rfl)⟩
    · rw [hsettle] at hcs haccept
      obtain ⟨hclass', hdraft', hheld⟩ := accept_outside hclass hdraft hstart haccept
      refine .inr ⟨hcs, hclass', hdraft', ?_⟩
      rw [readLine, if_neg (by simpa using hfull), hsettle', hheld c?]
      rfl

/-- Lines that are right by themselves are right behind an open class too, and finish it first. -/
theorem classes?_behind {lines : List (List Char)} (hclass : o.class? = none)
    (hdraft : o.draft? = none) (h : o.classes? lines = some cs) (c? : Option Class) :
    { o with class? := c? }.classes? lines = some (c?.toList ++ cs) := by
  -- the induction is on the lines; up to the one that finishes the class it stays open
  induction lines generalizing o cs with
  | nil =>
    rw [classes?_nil, finish] at h ⊢
    split at h
    · next hclosed =>
      obtain rfl : cs = [] := by simpa [hclass, eq_comm] using h
      rw [if_pos hclosed, List.append_nil]
    · cases h
  | cons line rest ih =>
    cases hline : o.readLine line with
    | none =>
      rw [classes?_cons_refused hline] at h
      cases h
    | some x =>
      obtain ⟨cs₁, o₁⟩ := x
      rw [classes?_cons hline] at h
      obtain ⟨cs₂, hrest, rfl⟩ := Option.map_eq_some_iff.1 h
      cases readLine_behind hclass hdraft hline c? with
      | inl hfinished =>
        rw [classes?_cons hfinished, hrest, Option.map_some, List.append_assoc]
      | inr hopen =>
        obtain ⟨rfl, hclass₁, hdraft₁, hopen⟩ := hopen
        rw [classes?_cons hopen, ih hclass₁ hdraft₁ hrest]
        rfl

end Opened

/-! ## Two sources in one text -/

/-- The classes of two sources in one text are those of the first, then those of the second. -/
theorem sourceClasses?_joined {s₁ s₂ : String} {cs₁ cs₂ : List Class}
    (h₁ : sourceClasses? s₁ = some cs₁) (h₂ : sourceClasses? s₂ = some cs₂) :
    sourceClasses? (s₁ ++ "\n" ++ s₂) = some (cs₁ ++ cs₂) := by
  obtain ⟨⟨cs, o⟩, hlines, hfinish⟩ := Option.bind_eq_some_iff.1 h₁
  obtain ⟨last, hlast, rfl⟩ := Option.map_eq_some_iff.1 hfinish
  unfold Opened.finish at hlast
  split at hlast
  · next hclosed =>
    obtain rfl := Option.some.inj hlast
    -- at the end of the first source nothing is open but its last class
    have hopen : o = { ({} : Opened) with class? := o.class? } := by
      obtain ⟨class?, draft?, block⟩ := o
      obtain ⟨rfl, rfl⟩ := hclosed
      rfl
    -- the lines of the second source are read with that class still open
    have hbehind : o.classes? (Text.lines s₂.toList) = some (o.class?.toList ++ cs₂) := by
      rw [hopen]
      exact Opened.classes?_behind rfl rfl h₂ o.class?
    have htext : (s₁ ++ "\n" ++ s₂).toList = s₁.toList ++ '\n' :: s₂.toList := by simp
    rw [← Opened.readLines_closedLines] at hlines
    rw [sourceClasses?, htext, Text.lines_append_newline, Opened.classes?_append hlines, hbehind,
      Option.map_some, List.append_assoc]
  · cases hlast

/-- Two sources that are right, into whatever tables they are read, are right in one text with a line feed
between them, and the text leaves exactly the table that they leave when they are read one after the
other. -/
theorem ClassTable.readSource_joined {t₁ t₂ : ClassTable} {journal₁ journal₂ : Journal}
    {s₁ s₂ : String} (h₁ : (t₁.readSource journal₁ s₁).error? = none)
    (h₂ : (t₂.readSource journal₂ s₂).error? = none) (t : ClassTable) (journal journal' : Journal) :
    (t.readSource journal s₁).error? = none ∧
      ((t.readSource journal s₁).classes.readSource journal' s₂).error? = none ∧
      (t.readSource journal (s₁ ++ "\n" ++ s₂)).error? = none ∧
      (t.readSource journal (s₁ ++ "\n" ++ s₂)).classes =
        ((t.readSource journal s₁).classes.readSource journal' s₂).classes := by
  obtain ⟨cs₁, hcs₁⟩ := readSource_accepted_iff.1 h₁
  obtain ⟨cs₂, hcs₂⟩ := readSource_accepted_iff.1 h₂
  obtain ⟨hfirst, hclasses₁⟩ := readSource_eq hcs₁ t journal
  obtain ⟨hsecond, hclasses₂⟩ := readSource_eq hcs₂ (t.readSource journal s₁).classes journal'
  obtain ⟨hjoined, hclasses⟩ := readSource_eq (sourceClasses?_joined hcs₁ hcs₂) t journal
  refine ⟨hfirst, hsecond, hjoined, ?_⟩
  rw [hclasses, hclasses₂, hclasses₁, addAll_append]

/-- A source with two classes that ends in a carriage return. -/
def twoClasses : String := ".class LFirst;\n.field x:I\n.class LSecond;\n.super LFirst;\r"

/-- A source that has a block with a class line in it in front of its class, which is one of the two. -/
def overriding : String :=
  "# notes\n.annotation LNote;\n.class LHidden;\n.end annotation\n.class LFirst;\n.field y:J\n"

/-- In one text too the later definition takes the place of the first class. -/
theorem overriding_joined :
    (ClassTable.readSource {} {} twoClasses).error? = none ∧
    (ClassTable.readSource {} {} overriding).error? = none ∧
    (ClassTable.readSource {} {} (twoClasses ++ "\n" ++ overriding)).error? = none ∧
    (ClassTable.readSource {} {} (twoClasses ++ "\n" ++ overriding)).classes.values.map
      (fun c => (c.name, c.fields.keys)) = [("LFirst;", ["y"]), ("LSecond;", [])] := by
  have hfirst : (ClassTable.readSource {} {} twoClasses).error? = none := by decide +kernel
  have hsecond : (ClassTable.readSource {} {} overriding).error? = none := by decide +kernel
  have hclasses : ((ClassTable.readSource {} {} twoClasses).classes.readSource {}
      overriding).classes.values.map (fun c => (c.name, c.fields.keys)) =
        [("LFirst;", ["y"]), ("LSecond;", [])] := by
    decide +kernel
  obtain ⟨_, _, hjoined, hsame⟩ := ClassTable.readSource_joined hfirst hsecond {} {} {}
  refine ⟨hfirst, hsecond, hjoined, ?_⟩
  rw [hsame]
  exact hclasses

end Smali
