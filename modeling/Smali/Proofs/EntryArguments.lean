import Mathlib.Data.List.Forall2
import Smali.CommandLine
import Smali.Proofs.Elements

/-!
# The arguments of the entry method

The texts behind `--` become values before the entry method is called. A method that takes an array of
strings gets one with all texts. Any other gets one value for each parameter, and each value fits the type
of its parameter. A number for a byte, a short or a char is read like an int, though, so that it need not
be a number of that type: exactly the texts that denote one give a legal value. A boolean is `true` or
`false` and always legal.

## Key results

- `newStrings_eq`: the strings of an array of texts are new, one behind the other
- `readArgument_ok`: what is known of the value of one text
- `entry_arguments_legal_iff`: what the arguments are, and which of them are legal
-/

namespace Smali

/-- Whether a number is a value of the type: `-128` to `127` for bytes, `-32768` to `32767` for shorts, `0` to
`65535` for chars, zero and one for booleans. -/
def Descriptor.admits : Descriptor → Int → Bool
  | boolean, n => 0 ≤ n && n ≤ 1
  | d, n => d.inRange n

/-- Whether the number that the text denotes, if it denotes one, is a value of the type. -/
def Descriptor.admitsText (d : Descriptor) (text : String) : Bool :=
  ((Text.readSigned text.toList).map d.admits).getD true

/-- Whether the value is no number that the type does not admit. -/
def Machine.Value.isAdmitted (v : Value) (d : Descriptor) : Bool :=
  match v with
  | .int n => d.admits n.toInt
  | _ => true

/-- Whether the value fits the type and is admitted. -/
def Machine.Value.isLegal (v : Value) (d : Descriptor) : Bool :=
  v.fits d && v.isAdmitted d

namespace CommandLine

open Machine

/-! ## One text -/

/-- A type that admits every number admits every text. -/
theorem admitsText_of_admits {d : Descriptor} (h : ∀ n, d.admits n = true) (text : String) :
    d.admitsText text = true := by
  unfold Descriptor.admitsText
  cases Text.readSigned text.toList with
  | none => rfl
  | some n => exact h n

/-- Where the type admits every number, a value that fits is legal, whatever text it was read from. -/
theorem isLegal_of_admits {d : Descriptor} (h : ∀ n, d.admits n = true) {v : Value} (hfits : v.fits d = true)
    (text : String) : v.fits d = true ∧ v.isLegal d = d.admitsText text := by
  refine ⟨hfits, ?_⟩
  rw [admitsText_of_admits h, Value.isLegal, hfits, Bool.true_and]
  cases v with
  | int n => exact h n.toInt
  | long | object | array => rfl

/-- The number of a text that is read as an int. -/
theorem readInt_ok {text : String} {v : Value}
    (h : ((readInteger Int32.minValue.toInt Int32.maxValue.toInt text).map fun n =>
      Value.int (Int32.ofInt n)) = some v) :
    ∃ n : Int32, v = .int n ∧ Text.readSigned text.toList = some n.toInt := by
  obtain ⟨n, hn, rfl⟩ := Option.map_eq_some_iff.1 h
  obtain ⟨hread, hbounds⟩ := Option.filter_eq_some_iff.1 hn
  rw [Bool.and_eq_true, decide_eq_true_iff, decide_eq_true_iff] at hbounds
  refine ⟨Int32.ofInt n, rfl, ?_⟩
  -- within its bounds the number is kept as it is
  rw [hread, Int32.toInt_ofInt_of_le]
  · exact hbounds.1
  · exact Int.lt_add_one_of_le hbounds.2

/-- The value of a text for a primitive type fits, and is legal exactly if the type admits the text. -/
theorem readPrimitive?_ok {d : Descriptor} {text : String} {v : Value} (hd : d.isReference = false)
    (hvoid : d ≠ .void) (h : readPrimitive? d text = some v) :
    v.fits d = true ∧ v.isLegal d = d.admitsText text := by
  cases d with
  | boolean =>
    simp only [readPrimitive?] at h
    split at h
    · next htext =>
      obtain rfl := Option.some.inj h
      subst htext
      exact ⟨rfl, rfl⟩
    · split at h
      · next htext =>
        obtain rfl := Option.some.inj h
        subst htext
        exact ⟨rfl, rfl⟩
      · cases h
  -- all four are read like an int, so that only the range of the type decides
  | byte | short | char | int =>
    obtain ⟨n, rfl, hread⟩ := readInt_ok h
    refine ⟨rfl, ?_⟩
    rw [Descriptor.admitsText, hread]
    rfl
  | long | double | float =>
    obtain ⟨n, -, rfl⟩ := Option.map_eq_some_iff.1 h
    exact isLegal_of_admits (fun _ => rfl) rfl text
  | void => exact absurd rfl hvoid
  | object | array => cases hd

/-- The value of a text fits the type, and is legal exactly if the type admits the text. -/
theorem readArgument_ok {s s' : State} {d : Descriptor} {text : String} {v : Value}
    (h : readArgument s d text = (s', .ok v)) :
    v.fits d = true ∧ v.isLegal d = d.admitsText text := by
  cases d with
  | object name =>
    simp only [readArgument] at h
    split at h
    · obtain ⟨-, hv⟩ := Prod.mk.inj h
      obtain rfl := Except.ok.inj hv
      exact isLegal_of_admits (fun _ => rfl) rfl text
    · cases h
  | array | void => cases h
  | boolean | byte | short | char | int | long | float | double =>
    simp only [readArgument] at h
    split at h
    · next hread =>
      obtain ⟨-, hv⟩ := Prod.mk.inj h
      obtain rfl := Except.ok.inj hv
      exact readPrimitive?_ok rfl (by decide) hread
    · cases h

/-! ## All texts -/

/-- One value is read for each text. -/
theorem readArguments_ok {s s' : State} {texts : List (Descriptor × String)} {values : List Value}
    (h : readArguments s texts = (s', .ok values)) :
    List.Forall₂ (fun pair v => v.fits pair.1 = true ∧ v.isLegal pair.1 = pair.1.admitsText pair.2)
      texts values := by
  -- the induction is on the texts, with the state so far
  induction texts generalizing s s' values with
  | nil =>
    obtain ⟨-, hvalues⟩ := Prod.mk.inj h
    obtain rfl := Except.ok.inj hvalues
    exact .nil
  | cons pair rest ih =>
    obtain ⟨d, text⟩ := pair
    unfold readArguments at h
    split at h
    · cases h
    · next hfirst =>
      split at h
      · next hrest =>
        obtain ⟨-, hvalues⟩ := Prod.mk.inj h
        obtain rfl := Except.ok.inj hvalues
        exact .cons (readArgument_ok hfirst) (ih hrest)
      · cases h

/-- A string object with a text. -/
def stringObject (text : String) : Object :=
  ⟨stringClass, .host { contents? := some text }⟩

/-- New strings are put on the heap one behind the other. -/
theorem newStrings_eq (s : State) (texts : List String) :
    newStrings s texts =
      ({ s with heap := { s.heap with
          objects := s.heap.objects ++ (texts.map stringObject).toArray } },
        (List.range' s.heap.objects.size texts.length).map .object) := by
  -- the induction is on the texts, with the state so far
  induction texts generalizing s with
  | nil => simp [newStrings]
  | cons text rest ih =>
    simp only [newStrings, ih]
    simp [State.newString, State.allocHost, State.allocObject, Heap.allocObject, stringObject,
      List.range'_succ]

/-- The references are those of strings with the texts, in order, and none of them was in use before. -/
structure FreshStrings (s s' : State) (texts : List String) (refs : List Nat) : Prop where
  fresh : ∀ ref ∈ refs, s.heap.objects.size ≤ ref
  nodup : refs.Nodup
  texts : List.Forall₂ (fun ref text => s'.heap.objects[ref]? = some (stringObject text)) refs texts

/-- Strings that are put behind the objects of a heap are new. -/
theorem freshStrings_of_objects {s s' : State} {texts : List String}
    (h : s'.heap.objects = s.heap.objects ++ (texts.map stringObject).toArray) :
    FreshStrings s s' texts (List.range' s.heap.objects.size texts.length) := by
  refine ⟨fun ref href => (List.mem_range'_1.1 href).1, List.nodup_range', ?_⟩
  rw [List.forall₂_iff_get]
  refine ⟨List.length_range', fun k hk hk' => ?_⟩
  rw [h]
  simp [hk']

/-! ## The entry method -/

/-- A method whose only parameter is an array of strings gets a new array of new strings with the texts, in
order. Any other method gets one value for each parameter. Each of them fits the type of its parameter, and
it is a legal value of that type exactly if the number that its text denotes, if any, is one. -/
theorem entry_arguments_legal_iff {s s' : State} {entry : Method} {args : List String}
    {values : List Value} (h : entryArguments s entry args = (s', .ok values)) :
    (entry.params = [.array (.object stringClass)] →
      ∃ refs, values = [.array s.heap.arrays.size] ∧
        s'.heap.arrays = s.heap.arrays.push ⟨.object stringClass, (refs.map Value.object).toArray⟩ ∧
        FreshStrings s s' args refs) ∧
    (entry.params ≠ [.array (.object stringClass)] →
      entry.params.length = args.length ∧
      List.Forall₂ (fun d v => v.fits d = true) entry.params values ∧
      ∀ (k : Nat) d text v, entry.params[k]? = some d → args[k]? = some text → values[k]? = some v →
        (v.isLegal d = true ↔ d.admitsText text = true)) := by
  unfold entryArguments at h
  split at h
  · next hparams =>
    refine ⟨fun _ => ?_, fun hother => absurd hparams hother⟩
    rw [newStrings_eq] at h
    obtain ⟨rfl, hvalues⟩ := Prod.mk.inj h
    obtain rfl := Except.ok.inj hvalues
    exact ⟨_, rfl, rfl, freshStrings_of_objects rfl⟩
  · next hparams =>
    refine ⟨fun hstrings => absurd hstrings hparams, fun _ => ?_⟩
    split at h
    · cases h
    · next hcount =>
      have hlength : entry.params.length = args.length := by simpa using hcount
      -- each text is read for the parameter in its place
      have hread := readArguments_ok h
      have hfst : (entry.params.zip args).map Prod.fst = entry.params :=
        List.map_fst_zip (Nat.le_of_eq hlength)
      refine ⟨hlength, ?_, fun k d text v hd htext hv => ?_⟩
      · rw [← hfst, List.forall₂_map_left_iff]
        exact hread.imp fun _ _ hboth => hboth.1
      · have hpair : (entry.params.zip args)[k]? = some (d, text) :=
          List.getElem?_zip_eq_some.2 ⟨hd, htext⟩
        obtain ⟨hk, hpair⟩ := List.getElem?_eq_some_iff.1 hpair
        obtain ⟨hk', hv⟩ := List.getElem?_eq_some_iff.1 hv
        have hboth := (List.forall₂_iff_get.1 hread).2 k hk hk'
        simp only [List.get_eq_getElem, hpair, hv] at hboth
        rw [hboth.2]

/-- A method that takes a byte, a string and a char. -/
def mixedEntry : Method where
  className := "LMixed;"
  name := "run"
  flags := .ofWords ["static"]
  params := [.byte, .object stringClass, .char]
  returnType := .void
  body := .code {}

/-- Of three texts the first two give legal values; the third denotes a number that is just too large. -/
theorem mixed_arguments : ∃ s',
    entryArguments {} mixedEntry ["127", "x", "65536"] = (s', .ok [.int 127, .object 0, .int 65536]) ∧
    List.Forall₂ (fun d v => Value.fits v d = true) mixedEntry.params
      [.int 127, .object 0, .int 65536] ∧
    (Value.int 127).isLegal .byte = true ∧ (Value.int 65536).isLegal .char = false := by
  have hread : entryArguments {} mixedEntry ["127", "x", "65536"] =
      ((State.newString {} "x").1, .ok [.int 127, .object 0, .int 65536]) := by decide
  obtain ⟨-, hfits, hlegal⟩ := (entry_arguments_legal_iff hread).2 (by decide)
  refine ⟨_, hread, hfits, ?_, Bool.eq_false_iff.2 ?_⟩
  · exact (hlegal 0 .byte "127" (.int 127) rfl rfl rfl).2 (by decide)
  · rw [Ne, hlegal 2 .char "65536" (.int 65536) rfl rfl rfl]
    decide

/-- The text `300` is taken for a byte. -/
theorem wide_byte_accepted :
    entryArguments {} { mixedEntry with params := [.byte] } ["300"] = ({}, .ok [.int 300]) ∧
    (Value.int 300).isLegal .byte = false := by
  decide

end CommandLine

end Smali
