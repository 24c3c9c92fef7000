import Mathlib.Data.List.Basic
import Smali.Descriptor

/-!
# The texts of descriptors

Descriptors have a grammar that is written down without the reader (`Descriptor.IsText`). The reader
takes a text if and only if it is one of the grammar, and what it makes of it is the one well-formed
descriptor that prints as that text. Reading stops where the descriptor ends, whatever follows: no text
of the grammar goes on to be another one. So a list of descriptors needs no separators, and a
concatenation falls apart in one way only.

## Key results

- `readOne_text_append`, `eq_text_append_of_readOne`: reading off the front of a text undoes printing
- `isText_iff`: the grammar has just the texts that well-formed descriptors print as
- `grammar_round_trip`: what is read, how it prints, and that a list falls apart in one way
-/

namespace Smali.Descriptor

/-! ## Grammar -/

/-- The texts that stand for a type: a letter, a class name between `L` and the first semicolon, or a
bracket and the text of an element type, which is not void. -/
inductive IsText : List Char → Prop
  | letter (c : Char) (h : c ∈ "ZBSCIJFDV".toList) : IsText [c]
  | object (name : List Char) (hname : name ≠ []) (hend : ';' ∉ name) : IsText ('L' :: name ++ [';'])
  | array (element : List Char) (h : IsText element) (hvoid : element ≠ ['V']) : IsText ('[' :: element)

/-- Descriptors that have a text of their own: a class name is written out in full, and no array, at any
depth, is one of void. -/
def WellFormed : Descriptor → Prop
  | object name => ∃ inner : List Char, inner ≠ [] ∧ ';' ∉ inner ∧ name.toList = 'L' :: inner ++ [';']
  | array element => element ≠ void ∧ element.WellFormed
  | _ => True

/-- The well-formed descriptors print as the texts of the grammar. -/
theorem isText_text {d : Descriptor} (h : d.WellFormed) : IsText d.text.toList := by
  induction d with
  | boolean | byte | short | char | int | long | float | double | void => exact .letter _ (by decide)
  | object name =>
    obtain ⟨inner, hinner, hend, hname⟩ := h
    rw [text, hname]
    exact .object inner hinner hend
  | array element ih =>
    obtain ⟨hvoid, helement⟩ := h
    have htext : (array element).text.toList = '[' :: element.text.toList := by simp [text]
    rw [htext]
    refine .array _ (ih helement) fun hV => hvoid ?_
    -- only void prints as `V`
    cases element with
    | void => rfl
    | object name =>
      obtain ⟨inner, -, -, hname⟩ := helement
      rw [text, hname] at hV
      simp at hV
    | array inner => simp [text] at hV
    | boolean | byte | short | char | int | long | float | double => exact absurd hV (by decide)

/-- Every text of the grammar is what some well-formed descriptor prints as. -/
theorem exists_of_isText {s : List Char} (h : IsText s) :
    ∃ d : Descriptor, d.WellFormed ∧ d.text.toList = s := by
  induction h with
  | letter c hc =>
    have hletters : "ZBSCIJFDV".toList = ['Z', 'B', 'S', 'C', 'I', 'J', 'F', 'D', 'V'] := rfl
    rw [hletters] at hc
    simp only [List.mem_cons, List.not_mem_nil, or_false] at hc
    rcases hc with rfl | rfl | rfl | rfl | rfl | rfl | rfl | rfl | rfl
    exacts [⟨boolean, trivial, rfl⟩, ⟨byte, trivial, rfl⟩, ⟨short, trivial, rfl⟩, ⟨char, trivial, rfl⟩,
      ⟨int, trivial, rfl⟩, ⟨long, trivial, rfl⟩, ⟨float, trivial, rfl⟩, ⟨double, trivial, rfl⟩,
      ⟨void, trivial, rfl⟩]
  | object name hname hend =>
    refine ⟨object (String.ofList ('L' :: name ++ [';'])), ?_, String.toList_ofList⟩
    exact ⟨name, hname, hend, String.toList_ofList⟩
  | array element _ hvoid ih =>
    obtain ⟨d, hd, rfl⟩ := ih
    refine ⟨.array d, ⟨?_, hd⟩, by simp [text]⟩
    rintro rfl
    exact hvoid rfl

theorem isText_iff {s : List Char} : IsText s ↔ ∃ d : Descriptor, d.WellFormed ∧ d.text.toList = s := by
  refine ⟨exists_of_isText, ?_⟩
  rintro ⟨d, hd, rfl⟩
  exact isText_text hd

/-! ## Reading off the front -/

/-- A class name is read up to its semicolon, whatever follows. -/
theorem readOne_object {inner : List Char} (hinner : inner ≠ []) (hend : ';' ∉ inner) (rest : List Char) :
    readOne ('L' :: inner ++ ';' :: rest) =
      .ok (object (String.ofList ('L' :: inner ++ [';'])), rest) := by
  have hpass : ∀ c ∈ inner, (c != ';') = true := by
    intro c hc
    rw [bne_iff_ne]
    rintro rfl
    exact hend hc
  obtain ⟨c, name, rfl⟩ := List.exists_cons_of_ne_nil hinner
  have htake : (c :: name ++ ';' :: rest).takeWhile (· != ';') = c :: name := by
    rw [List.takeWhile_append_of_pos hpass]
    simp
  have hdrop : (c :: name ++ ';' :: rest).dropWhile (· != ';') = ';' :: rest := by
    rw [List.dropWhile_append_of_pos hpass]
    simp
  simp only [List.cons_append] at htake hdrop ⊢
  rw [readOne, htake, hdrop]
  rfl

/-- Printing and then reading off the front gives the descriptor back, and leaves what follows. -/
theorem readOne_text_append {d : Descriptor} (h : d.WellFormed) (rest : List Char) :
    readOne (d.text.toList ++ rest) = .ok (d, rest) := by
  induction d with
  | boolean | byte | short | char | int | long | float | double | void => rfl
  | object name =>
    obtain ⟨inner, hinner, hend, hname⟩ := h
    have hread := readOne_object hinner hend rest
    rw [← hname, String.ofList_toList] at hread
    rw [text, hname, List.append_assoc]
    exact hread
  | array element ih =>
    obtain ⟨hvoid, helement⟩ := h
    have htext : (array element).text.toList ++ rest = '[' :: (element.text.toList ++ rest) := by
      simp [text]
    rw [htext, readOne, ih helement]
    cases element with
    | void => exact absurd rfl hvoid
    | _ => rfl

/-- What is read off the front of a text is well-formed, and the text is its print and the rest. -/
theorem eq_text_append_of_readOne {s rest : List Char} {d : Descriptor} (h : readOne s = .ok (d, rest)) :
    d.WellFormed ∧ s = d.text.toList ++ rest := by
  fun_induction readOne s generalizing d rest with
  | case1 | case2 | case3 | case4 | case5 | case6 | case7 | case8 | case9 =>
    obtain ⟨rfl, rfl⟩ := Prod.mk.inj (Except.ok.inj h)
    exact ⟨trivial, rfl⟩
  | case10 r c name semicolon after hdrop htake =>
    obtain ⟨rfl, rfl⟩ := Prod.mk.inj (Except.ok.inj h)
    -- the name stops at the first semicolon
    obtain rfl : semicolon = ';' := by
      have hhead := List.head?_dropWhile_not (· != ';') r
      simpa [hdrop] using hhead
    have hend : ';' ∉ c :: name := by
      intro hmem
      rw [← htake] at hmem
      simpa using List.all_eq_true.1 List.all_takeWhile _ hmem
    have hr : r = c :: name ++ ';' :: after := by
      rw [← htake, ← hdrop, List.takeWhile_append_dropWhile]
    refine ⟨⟨c :: name, List.cons_ne_nil c name, hend, String.toList_ofList⟩, ?_⟩
    rw [text, String.toList_ofList, hr]
    simp
  | case13 r element after hvoid hread ih =>
    obtain ⟨rfl, rfl⟩ := Prod.mk.inj (Except.ok.inj h)
    obtain ⟨helement, hr⟩ := ih hread
    refine ⟨⟨hvoid, helement⟩, ?_⟩
    rw [hr]
    simp [text]
  | case11 | case12 | case14 | case15 => cases h

/-! ## Whole texts -/

/-- A whole text is read as the well-formed descriptor that prints as it. -/
theorem parse_eq_ok_iff {s : List Char} {d : Descriptor} :
    parse s = .ok d ↔ d.WellFormed ∧ d.text.toList = s := by
  constructor
  · intro h
    unfold parse at h
    split at h
    · next hread =>
      obtain rfl := Except.ok.inj h
      obtain ⟨hd, hs⟩ := eq_text_append_of_readOne hread
      exact ⟨hd, by rw [hs, List.append_nil]⟩
    · cases h
    · cases h
  · rintro ⟨hd, rfl⟩
    have hread := readOne_text_append hd []
    rw [List.append_nil] at hread
    rw [parse, hread]

theorem toList_listText (ds : List Descriptor) :
    (listText ds).toList = ds.flatMap fun d => d.text.toList := by
  rw [listText, String.toList_join, List.flatMap_map]

/-- A descriptor's text is not empty. -/
theorem toList_text_ne_nil {d : Descriptor} (h : d.WellFormed) : d.text.toList ≠ [] := by
  intro hnil
  have hread := readOne_text_append h []
  rw [hnil] at hread
  cases hread

theorem parseList_listText {ds : List Descriptor} (h : ∀ d ∈ ds, d.WellFormed) :
    parseList (listText ds).toList = .ok ds := by
  rw [toList_listText]
  induction ds with
  | nil =>
    rw [List.flatMap_nil, parseList]
  | cons d ds ih =>
    have hd : d.WellFormed := h d List.mem_cons_self
    have hread := readOne_text_append hd (ds.flatMap fun d => d.text.toList)
    obtain ⟨c, r, htext⟩ := List.exists_cons_of_ne_nil (toList_text_ne_nil hd)
    rw [List.flatMap_cons]
    rw [htext, List.cons_append] at hread ⊢
    rw [parseList]
    split
    · next e herror => cases hread.symm.trans herror
    · next d' rest hok =>
      obtain ⟨rfl, rfl⟩ := Prod.mk.inj (Except.ok.inj (hread.symm.trans hok))
      rw [ih fun d' hd' => h d' (List.mem_cons_of_mem _ hd')]

theorem eq_listText_of_parseList {s : List Char} {ds : List Descriptor} (h : parseList s = .ok ds) :
    (∀ d ∈ ds, d.WellFormed) ∧ (listText ds).toList = s := by
  rw [toList_listText]
  fun_induction parseList s generalizing ds with
  | case1 =>
    obtain rfl := Except.ok.inj h
    exact ⟨fun d hd => absurd hd List.not_mem_nil, rfl⟩
  | case3 c r d rest hread _ ds' hrest ih =>
    obtain rfl := Except.ok.inj h
    obtain ⟨hd, hs⟩ := eq_text_append_of_readOne hread
    obtain ⟨hds, htext⟩ := ih hrest
    refine ⟨List.forall_mem_cons.2 ⟨hd, hds⟩, ?_⟩
    rw [List.flatMap_cons, htext, hs]
  | case2 | case4 => cases h

/-- A concatenation is read as the well-formed descriptors that print as it, one after the other. -/
theorem parseList_eq_ok_iff {s : List Char} {ds : List Descriptor} :
    parseList s = .ok ds ↔ (∀ d ∈ ds, d.WellFormed) ∧ (listText ds).toList = s := by
  refine ⟨eq_listText_of_parseList, ?_⟩
  rintro ⟨hds, rfl⟩
  exact parseList_listText hds

/-! ## Decompositions -/

/-- Texts of the grammar are the prints of well-formed descriptors, in order. -/
theorem exists_of_forall_isText {parts : List (List Char)} (h : ∀ part ∈ parts, IsText part) :
    ∃ ds : List Descriptor, (∀ d ∈ ds, d.WellFormed) ∧ ds.map (fun d => d.text.toList) = parts := by
  induction parts with
  | nil => exact ⟨[], fun d hd => absurd hd List.not_mem_nil, rfl⟩
  | cons part parts ih =>
    obtain ⟨hpart, hparts⟩ := List.forall_mem_cons.1 h
    obtain ⟨d, hd, rfl⟩ := exists_of_isText hpart
    obtain ⟨ds, hds, rfl⟩ := ih hparts
    exact ⟨d :: ds, List.forall_mem_cons.2 ⟨hd, hds⟩, rfl⟩

theorem parseList_flatten {ds : List Descriptor} (h : ∀ d ∈ ds, d.WellFormed) :
    parseList (ds.map fun d => d.text.toList).flatten = .ok ds := by
  rw [← List.flatMap_def, ← toList_listText]
  exact parseList_listText h

/-- A concatenation of texts of the grammar falls apart into them in one way only: reading it gives the
descriptors that they print. -/
theorem eq_of_flatten_eq {parts parts' : List (List Char)} (h : ∀ part ∈ parts, IsText part)
    (h' : ∀ part ∈ parts', IsText part) (heq : parts.flatten = parts'.flatten) : parts = parts' := by
  obtain ⟨ds, hds, rfl⟩ := exists_of_forall_isText h
  obtain ⟨ds', hds', rfl⟩ := exists_of_forall_isText h'
  have hread := parseList_flatten hds
  rw [heq, parseList_flatten hds'] at hread
  rw [Except.ok.inj hread]

theorem exists_parse_iff {s : List Char} : (∃ d, parse s = .ok d) ↔ IsText s := by
  simp only [parse_eq_ok_iff, isText_iff]

theorem exists_parseList_iff {s : List Char} :
    (∃ ds, parseList s = .ok ds) ↔
      ∃ parts : List (List Char), (∀ part ∈ parts, IsText part) ∧ parts.flatten = s := by
  constructor
  · rintro ⟨ds, hds⟩
    obtain ⟨hwell, rfl⟩ := parseList_eq_ok_iff.1 hds
    refine ⟨ds.map fun d => d.text.toList, ?_, by rw [toList_listText, List.flatMap_def]⟩
    rw [List.forall_mem_map]
    exact fun d hd => isText_text (hwell d hd)
  · rintro ⟨parts, hparts, rfl⟩
    obtain ⟨ds, hds, rfl⟩ := exists_of_forall_isText hparts
    exact ⟨ds, parseList_flatten hds⟩

/-- A text is read as a descriptor if and only if it is one of the grammar, and as a list of descriptors if
and only if it is a concatenation of such texts, which it is in one way only. What is read prints as the
text, and the descriptors and lists that are read back from their print are the well-formed ones. -/
theorem grammar_round_trip :
    (∀ s, (∃ d, parse s = .ok d) ↔ IsText s) ∧
    (∀ s, (∃ ds, parseList s = .ok ds) ↔
      ∃ parts : List (List Char), (∀ part ∈ parts, IsText part) ∧ parts.flatten = s) ∧
    (∀ parts parts' : List (List Char), (∀ part ∈ parts, IsText part) →
      (∀ part ∈ parts', IsText part) → parts.flatten = parts'.flatten → parts = parts') ∧
    (∀ s d, parse s = .ok d → d.text.toList = s) ∧
    (∀ s ds, parseList s = .ok ds → (listText ds).toList = s) ∧
    (∀ d, parse d.text.toList = .ok d ↔ d.WellFormed) ∧
    (∀ ds, parseList (listText ds).toList = .ok ds ↔ ∀ d ∈ ds, d.WellFormed) := by
  refine ⟨fun s => exists_parse_iff, fun s => exists_parseList_iff, ?_, ?_, ?_, ?_, ?_⟩
  · exact fun parts parts' h h' heq => eq_of_flatten_eq h h' heq
  · exact fun s d h => (parse_eq_ok_iff.1 h).2
  · exact fun s ds h => (parseList_eq_ok_iff.1 h).2
  · exact fun d => by simp [parse_eq_ok_iff]
  · exact fun ds => by simp [parseList_eq_ok_iff]

/-- A list of parameter types and its parts. An array of void is no part of any list. -/
theorem parameters_parts :
    (∀ part ∈ ["I", "J", "Lä b/C;", "[[B", "Z"].map String.toList, IsText part) ∧
    (∀ parts : List (List Char), (∀ part ∈ parts, IsText part) → parts.flatten = "IJLä b/C;[[BZ".toList →
      parts = ["I", "J", "Lä b/C;", "[[B", "Z"].map String.toList) ∧
    (∃ ds, parseList "IJLä b/C;[[BZ".toList = .ok ds ∧ (listText ds).toList = "IJLä b/C;[[BZ".toList) ∧
    ¬ ∃ parts : List (List Char), (∀ part ∈ parts, IsText part) ∧ parts.flatten = "I[[V".toList := by
  obtain ⟨htext, hlist, hunique, -, hprint, -, -⟩ := grammar_round_trip
  have hparts : ∀ part ∈ ["I", "J", "Lä b/C;", "[[B", "Z"].map String.toList, IsText part := by
    intro part hpart
    have hparse : ∀ part ∈ ["I", "J", "Lä b/C;", "[[B", "Z"].map String.toList, (parse part).isOk := by
      decide
    cases hread : parse part with
    | ok d => exact (htext part).1 ⟨d, hread⟩
    | error e =>
      have hok := hparse part hpart
      rw [hread] at hok
      cases hok
  have hflat : (["I", "J", "Lä b/C;", "[[B", "Z"].map String.toList).flatten =
      "IJLä b/C;[[BZ".toList := by decide
  obtain ⟨ds, hds⟩ := (hlist "IJLä b/C;[[BZ".toList).2 ⟨_, hparts, hflat⟩
  refine ⟨hparts, ?_, ⟨ds, hds, hprint _ ds hds⟩, ?_⟩
  · exact fun parts h heq => hunique parts _ h hparts (heq.trans hflat.symm)
  · intro hvoid
    obtain ⟨ds, hds⟩ := (hlist _).2 hvoid
    have hrefused : (parseList "I[[V".toList).isOk = false := by decide +kernel
    rw [hds] at hrefused
    cases hrefused

end Smali.Descriptor
