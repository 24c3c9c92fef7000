import Smali.Identifier
import Smali.Proofs.DescriptorTexts
import Smali.Proofs.Scanners

/-!
# The texts of identifiers

An identifier is cut at the first place where each separator stands, and a name may hold the separators
that come later: `La:b;->c->d(I)V` is a method `c->d`, and `L(;->e(:I` a field `e(`. A part between two
cuts is free of the separator that ends it, and that is all that is asked of it. So an identifier is read
back from its text exactly if its parts are of this kind (`MethodId.Readable`, `FieldId.Readable`), and
what a text is read as prints as that text.

## Key results

- `Text.cutArrow_eq_some_iff`: where a text is cut at an arrow
- `MethodId.parse_eq_ok_iff`, `FieldId.parse_eq_ok_iff`: what a text is read as
- `identifier_round_trip`: reading and printing undo each other
-/

namespace Smali

/-! ## The arrow -/

namespace Text

/-- No arrow can begin in one text and end in the next. -/
theorem arrow_infix_concat {s : List Char} : ['-', '>'] <:+: s ++ ['-'] ↔ ['-', '>'] <:+: s := by
  rw [List.infix_concat_iff]
  refine or_iff_right ?_
  rintro ⟨front, hfront⟩
  have hlast := congrArg List.getLast? hfront
  simp at hlast

/-- A text is cut at its first arrow. -/
theorem cutArrow_eq_some_iff {s before after : List Char} :
    cut ['-', '>'] s = some (before, after) ↔
      s = before ++ '-' :: '>' :: after ∧ ¬ ['-', '>'] <:+: before := by
  rw [cut_eq_some_iff (List.cons_ne_nil _ _), List.append_assoc]
  exact and_congr_right fun _ => not_congr arrow_infix_concat

end Text

/-! ## Method identifiers -/

namespace MethodId

/-- The parts of the identifier are free of the separators that end them. -/
structure Readable (m : MethodId) : Prop where
  className_ne : m.className ≠ ""
  className_free : ¬ ['-', '>'] <:+: m.className.toList
  name_ne : m.name ≠ ""
  name_free : '(' ∉ m.name.toList
  params : ∀ d ∈ m.params, d.WellFormed
  params_free : ∀ d ∈ m.params, ')' ∉ d.text.toList
  returnType : m.returnType.WellFormed

theorem toList_text (m : MethodId) :
    m.text.toList = m.className.toList ++ '-' :: '>' :: (m.name.toList ++ '(' ::
      ((Descriptor.listText m.params).toList ++ ')' :: m.returnType.text.toList)) := by
  simp [text, signatureText]

/-- The parts of the text of a method: each ends at the first separator behind it. -/
theorem parts?_eq_some_iff {s className name params returnType : List Char} :
    parts? s = some (className, name, params, returnType) ↔
      s = className ++ '-' :: '>' :: (name ++ '(' :: (params ++ ')' :: returnType)) ∧
      (className ≠ [] ∧ ¬ ['-', '>'] <:+: className) ∧ (name ≠ [] ∧ '(' ∉ name) ∧ ')' ∉ params := by
  constructor
  · intro h
    obtain ⟨⟨c, member⟩, hclass, h⟩ := Option.bind_eq_some_iff.1 h
    obtain ⟨⟨n, signature⟩, hname, h⟩ := Option.bind_eq_some_iff.1 h
    obtain ⟨⟨p, r⟩, hparams, h⟩ := Option.bind_eq_some_iff.1 h
    dsimp only at h
    split at h
    · cases h
    · next hfull =>
      obtain ⟨hc, hn⟩ : c ≠ [] ∧ n ≠ [] := by simpa [not_or] using hfull
      simp only [Option.some.injEq, Prod.mk.injEq] at h
      obtain ⟨rfl, rfl, rfl, rfl⟩ := h
      -- each cut is at the first separator of its kind, so what stands in front is free of it
      obtain ⟨rfl, hclassFree⟩ := Text.cutArrow_eq_some_iff.1 hclass
      obtain ⟨rfl, hnameFree⟩ := Text.cutAt_eq_some_iff.1 hname
      obtain ⟨rfl, hparamsFree⟩ := Text.cutAt_eq_some_iff.1 hparams
      exact ⟨rfl, ⟨hc, hclassFree⟩, ⟨hn, hnameFree⟩, hparamsFree⟩
  · rintro ⟨rfl, ⟨hc, hclassFree⟩, ⟨hn, hnameFree⟩, hparamsFree⟩
    refine Option.bind_eq_some_iff.2 ⟨_, Text.cutArrow_eq_some_iff.2 ⟨rfl, hclassFree⟩, ?_⟩
    refine Option.bind_eq_some_iff.2 ⟨_, Text.cutAt_eq_some_iff.2 ⟨rfl, hnameFree⟩, ?_⟩
    refine Option.bind_eq_some_iff.2 ⟨_, Text.cutAt_eq_some_iff.2 ⟨rfl, hparamsFree⟩, ?_⟩
    simp [hc, hn]

/-- A text is read as the identifier that prints as it, and whose parts are free of the separators. -/
theorem parse_eq_ok_iff {s : List Char} {m : MethodId} :
    parse s = .ok m ↔ m.Readable ∧ m.text.toList = s := by
  constructor
  · intro h
    unfold parse at h
    split at h
    · cases h
    · next c n p r hparts =>
      obtain ⟨rfl, ⟨hc, hclass⟩, ⟨hn, hname⟩, hfree⟩ := parts?_eq_some_iff.1 hparts
      obtain ⟨params, hparams, h⟩ := Machine.bind_eq_ok.1 h
      obtain ⟨returnType, hreturn, h⟩ := Machine.bind_eq_ok.1 h
      obtain rfl := Except.ok.inj h
      obtain ⟨hwell, rfl⟩ := Descriptor.parseList_eq_ok_iff.1 hparams
      obtain ⟨hwell', rfl⟩ := Descriptor.parse_eq_ok_iff.1 hreturn
      -- the list of parameters has no text of its own: a parenthesis in it is in one of them
      rw [Descriptor.toList_listText, List.mem_flatMap] at hfree
      refine ⟨⟨?_, ?_, ?_, ?_, hwell, fun d hd hmem => hfree ⟨d, hd, hmem⟩, hwell'⟩, ?_⟩
      · simpa using hc
      · simpa using hclass
      · simpa using hn
      · simpa using hname
      · simp [toList_text]
  · rintro ⟨h, rfl⟩
    -- the text falls into the parts that it was made of
    have hparts : parts? m.text.toList = some (m.className.toList, m.name.toList,
        (Descriptor.listText m.params).toList, m.returnType.text.toList) := by
      refine parts?_eq_some_iff.2 ⟨m.toList_text, ⟨?_, h.className_free⟩, ⟨?_, h.name_free⟩, ?_⟩
      · simpa using h.className_ne
      · simpa using h.name_ne
      · rw [Descriptor.toList_listText, List.mem_flatMap]
        rintro ⟨d, hd, hmem⟩
        exact h.params_free d hd hmem
    rw [parse, hparts]
    refine Machine.bind_eq_ok.2 ⟨m.params, Descriptor.parseList_eq_ok_iff.2 ⟨h.params, rfl⟩, ?_⟩
    refine Machine.bind_eq_ok.2 ⟨m.returnType, Descriptor.parse_eq_ok_iff.2 ⟨h.returnType, rfl⟩, ?_⟩
    simp only [String.ofList_toList]
    rfl

end MethodId

/-! ## Field identifiers -/

namespace FieldId

/-- The parts of the identifier are free of the separators that end them. -/
structure Readable (f : FieldId) : Prop where
  className_ne : f.className ≠ ""
  className_free : ¬ ['-', '>'] <:+: f.className.toList
  name_ne : f.name ≠ ""
  name_free : ':' ∉ f.name.toList
  type : f.type.WellFormed

theorem toList_text (f : FieldId) :
    f.text.toList = f.className.toList ++ '-' :: '>' ::
      (f.name.toList ++ ':' :: f.type.text.toList) := by
  simp [text]

/-- The parts of the text of a field. -/
theorem parts?_eq_some_iff {s className name type : List Char} :
    parts? s = some (className, name, type) ↔
      s = className ++ '-' :: '>' :: (name ++ ':' :: type) ∧
      (className ≠ [] ∧ ¬ ['-', '>'] <:+: className) ∧ name ≠ [] ∧ ':' ∉ name := by
  constructor
  · intro h
    obtain ⟨⟨c, member⟩, hclass, h⟩ := Option.bind_eq_some_iff.1 h
    obtain ⟨⟨n, t⟩, hname, h⟩ := Option.bind_eq_some_iff.1 h
    dsimp only at h
    split at h
    · cases h
    · next hfull =>
      obtain ⟨hc, hn⟩ : c ≠ [] ∧ n ≠ [] := by simpa [not_or] using hfull
      simp only [Option.some.injEq, Prod.mk.injEq] at h
      obtain ⟨rfl, rfl, rfl⟩ := h
      obtain ⟨rfl, hclassFree⟩ := Text.cutArrow_eq_some_iff.1 hclass
      obtain ⟨rfl, hnameFree⟩ := Text.cutAt_eq_some_iff.1 hname
      exact ⟨rfl, ⟨hc, hclassFree⟩, hn, hnameFree⟩
  · rintro ⟨rfl, ⟨hc, hclassFree⟩, hn, hnameFree⟩
    refine Option.bind_eq_some_iff.2 ⟨_, Text.cutArrow_eq_some_iff.2 ⟨rfl, hclassFree⟩, ?_⟩
    refine Option.bind_eq_some_iff.2 ⟨_, Text.cutAt_eq_some_iff.2 ⟨rfl, hnameFree⟩, ?_⟩
    simp [hc, hn]

/-- A text is read as the identifier that prints as it, and whose parts are free of the separators. -/
theorem parse_eq_ok_iff {s : List Char} {f : FieldId} :
    parse s = .ok f ↔ f.Readable ∧ f.text.toList = s := by
  constructor
  · intro h
    unfold parse at h
    split at h
    · cases h
    · next c n t hparts =>
      obtain ⟨rfl, ⟨hc, hclass⟩, hn, hname⟩ := parts?_eq_some_iff.1 hparts
      obtain ⟨type, htype, h⟩ := Machine.bind_eq_ok.1 h
      obtain rfl := Except.ok.inj h
      obtain ⟨hwell, rfl⟩ := Descriptor.parse_eq_ok_iff.1 htype
      refine ⟨⟨?_, ?_, ?_, ?_, hwell⟩, ?_⟩
      · simpa using hc
      · simpa using hclass
      · simpa using hn
      · simpa using hname
      · simp [toList_text]
  · rintro ⟨h, rfl⟩
    have hparts : parts? f.text.toList =
        some (f.className.toList, f.name.toList, f.type.text.toList) := by
      refine parts?_eq_some_iff.2 ⟨f.toList_text, ⟨?_, h.className_free⟩, ?_, h.name_free⟩
      · simpa using h.className_ne
      · simpa using h.name_ne
    rw [parse, hparts]
    refine Machine.bind_eq_ok.2 ⟨f.type, Descriptor.parse_eq_ok_iff.2 ⟨h.type, rfl⟩, ?_⟩
    simp only [String.ofList_toList]
    rfl

end FieldId

/-! ## Both ways -/

/-- What a text is read as prints as that text, so that no two texts are read as the same identifier. The
identifiers that are read back from their own text are those whose parts are free of the separators that
end them: no arrow in the class name, no opening parenthesis in the name of a method, no closing one in its
parameters, and no colon in the name of a field. -/
theorem identifier_round_trip :
    (∀ s m, MethodId.parse s = .ok m → m.text.toList = s) ∧
    (∀ s s' m, MethodId.parse s = .ok m → MethodId.parse s' = .ok m → s = s') ∧
    (∀ m : MethodId, MethodId.parse m.text.toList = .ok m ↔ m.Readable) ∧
    (∀ s f, FieldId.parse s = .ok f → f.text.toList = s) ∧
    (∀ s s' f, FieldId.parse s = .ok f → FieldId.parse s' = .ok f → s = s') ∧
    (∀ f : FieldId, FieldId.parse f.text.toList = .ok f ↔ f.Readable) := by
  refine ⟨fun s m h => (MethodId.parse_eq_ok_iff.1 h).2, fun s s' m h h' => ?_, fun m => ?_,
    fun s f h => (FieldId.parse_eq_ok_iff.1 h).2, fun s s' f h h' => ?_, fun f => ?_⟩
  · exact (MethodId.parse_eq_ok_iff.1 h).2.symm.trans (MethodId.parse_eq_ok_iff.1 h').2
  · rw [MethodId.parse_eq_ok_iff, and_iff_left rfl]
  · exact (FieldId.parse_eq_ok_iff.1 h).2.symm.trans (FieldId.parse_eq_ok_iff.1 h').2
  · rw [FieldId.parse_eq_ok_iff, and_iff_left rfl]

/-- A method in whose parts the separators of the other parts stand. -/
def tangledMethod : MethodId where
  className := "L-(x:;"
  name := "c->d)"
  params := [.object "L(->;", .array .int]
  returnType := .object "L);"

/-- A field in whose name an arrow and a parenthesis stand. -/
def tangledField : FieldId where
  className := "Leg/щ;"
  name := "Ŭ->("
  type := .long

/-- Both are read back, and a method with an opening parenthesis in its name is not readable. -/
theorem tangled_round_trip :
    tangledMethod.Readable ∧
    MethodId.parse "L-(x:;->c->d)(L(->;[I)L);".toList = .ok tangledMethod ∧
    (∀ s, MethodId.parse s = .ok tangledMethod → s = "L-(x:;->c->d)(L(->;[I)L);".toList) ∧
    FieldId.parse "Leg/щ;->Ŭ->(:J".toList = .ok tangledField ∧ tangledField.Readable ∧
    ¬ MethodId.Readable { tangledMethod with name := "c(d" } := by
  obtain ⟨hprint, hunique, hread, -, -, hfield⟩ := identifier_round_trip
  have htext : tangledMethod.text.toList = "L-(x:;->c->d)(L(->;[I)L);".toList := by decide
  have hreadable : tangledMethod.Readable := by
    refine ⟨by decide, by decide, by decide, by decide, ?_, by decide, ?_⟩
    · rw [tangledMethod, List.forall_mem_cons, List.forall_mem_singleton]
      exact ⟨⟨"(->".toList, by decide, by decide, by decide⟩, by decide, trivial⟩
    · exact ⟨")".toList, by decide, by decide, by decide⟩
  have hmethod : MethodId.parse "L-(x:;->c->d)(L(->;[I)L);".toList = .ok tangledMethod := by
    rw [← htext]
    exact (hread tangledMethod).2 hreadable
  have hparse : FieldId.parse "Leg/щ;->Ŭ->(:J".toList = .ok tangledField := by decide
  have htext' : "Leg/щ;->Ŭ->(:J".toList = tangledField.text.toList := by decide
  refine ⟨hreadable, hmethod, fun s hs => hunique s _ _ hs hmethod, hparse, ?_, fun h => ?_⟩
  · exact (hfield tangledField).1 (htext' ▸ hparse)
  · exact absurd h.name_free (by decide)

end Smali
