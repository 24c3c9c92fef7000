import Smali.Proofs.Flow

/-!
# Strings made of code points

The constructor of strings takes characters out of an array of integers, so many from an index on. It is
all or nothing: the string is written when all characters are there, and else nothing is written. The
indices that it looks at end in front of the largest 32-bit integer, however many were asked for. Up to
there it succeeds exactly if each index in the span lies in the array and holds a Unicode scalar value, and
the text is then the characters of the span. A span that goes on behind the largest integer is cut off: the
constructor succeeds on what is left, where it should have failed for want of an element.

## Key results

- `codePoints_eq_ok_iff`: what the loop over the array comes to
- `stringInit_eq`: what the constructor does to the state
- `construction_iff`: when the constructor does what it should
-/

namespace Smali.Machine

/-! ## Elements that are characters -/

/-- The index lies in the array and holds the code point of the character. -/
def ArrayObject.HasChar (a : ArrayObject) (index : Int) (c : Char) : Prop :=
  0 ≤ index ∧ ∃ v : Int32, a.values[index.toNat]? = some (.int v) ∧ v.toInt = c.toNat

/-- From an index on the array holds the characters, in order. -/
def ArrayObject.Spells (a : ArrayObject) (index : Int) (cs : List Char) : Prop :=
  ∀ (k : Nat) (c : Char), cs[k]? = some c → a.HasChar (index + k) c

variable {a : ArrayObject} {index : Int} {c : Char} {cs : List Char}

/-- An element is read if the index is not negative and lies in the array. -/
theorem ArrayObject.get_eq_ok_iff {v : Value} :
    a.get index = .ok v ↔ 0 ≤ index ∧ a.values[index.toNat]? = some v := by
  constructor
  · intro h
    obtain ⟨i, hplace, h⟩ := bind_eq_ok.1 h
    unfold ArrayObject.place at hplace
    split at hplace
    · next hinside =>
      obtain rfl := Except.ok.inj hplace
      split at h
      · next hfound => exact ⟨hinside.1, hfound.trans (congrArg some (Except.ok.inj h))⟩
      · cases h
    · cases hplace
  · rintro ⟨hnonneg, hfound⟩
    have hlt : index.toNat < a.values.size := (Array.getElem?_eq_some_iff.1 hfound).1
    refine bind_eq_ok.2 ⟨index.toNat, if_pos ⟨hnonneg, by omega⟩, ?_⟩
    rw [hfound]
    rfl

/-- A 32-bit integer without its sign is a character exactly if it was one with its sign: a negative one is
far beyond the last character. -/
theorem char_of_toUInt32_iff {v : Int32} :
    (v.toUInt32.toNat.isValidChar ∧ Char.ofNat v.toUInt32.toNat = c) ↔ v.toInt = c.toNat := by
  -- without its sign a negative number is half of the range or more
  have hbits : v.toInt = v.toUInt32.toNat ∨ (v.toInt < 0 ∧ 2147483648 ≤ v.toUInt32.toNat) := by
    have hint : v.toInt = v.toBitVec.toInt := rfl
    have hnat : v.toUInt32.toNat = v.toBitVec.toNat := rfl
    rw [hint, hnat, BitVec.toInt_eq_toNat_cond]
    split <;> omega
  constructor
  · rintro ⟨hvalid, rfl⟩
    have hchar : (Char.ofNat v.toUInt32.toNat).toNat = v.toUInt32.toNat := by
      rw [Char.ofNat, dif_pos hvalid]
      rfl
    rw [hchar]
    unfold Nat.isValidChar at hvalid
    omega
  · intro hv
    have hsame : v.toUInt32.toNat = c.toNat := by omega
    rw [hsame]
    exact ⟨c.valid, Char.ofNat_toNat c⟩

/-- The loop body succeeds exactly on an index that holds a character. -/
theorem codePointAt_eq_ok_iff : codePointAt a index = .ok c ↔ a.HasChar index c := by
  unfold codePointAt
  simp only [bind_eq_ok, ArrayObject.get_eq_ok_iff]
  constructor
  · rintro ⟨w, ⟨hnonneg, hfound⟩, v, hv, h⟩
    cases w with
    | int v' =>
      obtain rfl := Except.ok.inj hv
      split at h
      · next hvalid =>
        exact ⟨hnonneg, v', hfound, char_of_toUInt32_iff.1 ⟨hvalid, Except.ok.inj h⟩⟩
      · cases h
    | long | object | array => cases hv
  · rintro ⟨hnonneg, v, hfound, hv⟩
    obtain ⟨hvalid, hchar⟩ := char_of_toUInt32_iff.2 hv
    refine ⟨.int v, ⟨hnonneg, hfound⟩, v, rfl, ?_⟩
    rw [if_pos hvalid, hchar]
    rfl

/-! ## The loop -/

/-- A text is spelled by its first character and then by the rest. -/
theorem ArrayObject.spells_cons :
    a.Spells index (c :: cs) ↔ a.HasChar index c ∧ a.Spells (index + 1) cs := by
  constructor
  · intro h
    refine ⟨?_, fun k c' hk => ?_⟩
    · simpa using h 0 c rfl
    · have hnext := h (k + 1) c' hk
      rwa [show index + ((k + 1 : Nat) : Int) = index + 1 + k by omega] at hnext
  · rintro ⟨hfirst, hrest⟩ k c' hk
    cases k with
    | zero =>
      obtain rfl : c = c' := Option.some.inj hk
      simpa using hfirst
    | succ k =>
      rw [show index + ((k + 1 : Nat) : Int) = index + 1 + k by omega]
      exact hrest k c' hk

/-- The loop gives the characters that the array holds from the index on, so many as it is told. -/
theorem codePoints_eq_ok_iff {count : Nat} :
    codePoints a count index = .ok cs ↔ cs.length = count ∧ a.Spells index cs := by
  -- the induction is on the count, as the loop goes
  induction count generalizing index cs with
  | zero =>
    constructor
    · intro h
      obtain rfl := Except.ok.inj h
      exact ⟨rfl, fun k c hk => by cases hk⟩
    · rintro ⟨hlength, -⟩
      rw [List.eq_nil_of_length_eq_zero hlength]
      rfl
  | succ count ih =>
    simp only [codePoints, bind_eq_ok, codePointAt_eq_ok_iff]
    constructor
    · rintro ⟨c, hc, rest, hrest, h⟩
      obtain rfl := Except.ok.inj h
      obtain ⟨hlength, hspells⟩ := ih.1 hrest
      exact ⟨by simp [hlength], ArrayObject.spells_cons.2 ⟨hc, hspells⟩⟩
    · rintro ⟨hlength, hspells⟩
      obtain ⟨c, rest, rfl⟩ := List.exists_cons_of_length_eq_add_one hlength
      obtain ⟨hc, hrest⟩ := ArrayObject.spells_cons.1 hspells
      exact ⟨c, hc, rest, ih.2 ⟨by simpa using hlength, hrest⟩, rfl⟩

/-- Where each index of a span holds a character, the span is some text. -/
theorem ArrayObject.exists_spells {count : Nat} :
    (∃ cs, cs.length = count ∧ a.Spells index cs) ↔
      ∀ i : Int, index ≤ i → i < index + count → ∃ c, a.HasChar i c := by
  constructor
  · rintro ⟨cs, hlength, hspells⟩ i hfrom hto
    have hk : (i - index).toNat < cs.length := by omega
    have hchar := hspells (i - index).toNat _ (List.getElem?_eq_getElem hk)
    rw [show index + ((i - index).toNat : Int) = i by omega] at hchar
    exact ⟨_, hchar⟩
  -- the first index holds a character, and so does each index behind it
  · intro h
    induction count generalizing index with
    | zero => exact ⟨[], rfl, fun k c hk => by cases hk⟩
    | succ count ih =>
      obtain ⟨c, hc⟩ := h index (Int.le_refl index) (by omega)
      have hbehind : ∀ i : Int, index + 1 ≤ i → i < index + 1 + count → ∃ c, a.HasChar i c :=
        fun i hfrom hto => h i (by omega) (by omega)
      obtain ⟨cs, hlength, hspells⟩ := ih hbehind
      exact ⟨c :: cs, by simp [hlength], ArrayObject.spells_cons.2 ⟨hc, hspells⟩⟩

/-- Where it is none, some index of the span holds no character. -/
theorem ArrayObject.exists_missing {count : Nat}
    (h : ¬ ∃ cs : List Char, cs.length = count ∧ a.Spells index cs) :
    ∃ i : Int, index ≤ i ∧ i < index + count ∧ ∀ c, ¬ a.HasChar i c := by
  rw [ArrayObject.exists_spells] at h
  simpa only [Classical.not_forall, not_exists, exists_prop] using h

theorem ArrayObject.HasChar.lt_size (h : a.HasChar index c) : index < a.values.size := by
  obtain ⟨hnonneg, v, hfound, -⟩ := h
  have hlt : index.toNat < a.values.size := (Array.getElem?_eq_some_iff.1 hfound).1
  omega

/-! ## The constructor -/

/-- The call of the constructor on an object, with an array, an offset and a count. -/
def constructorCall (r x : Nat) (offset count : Int32) (depth : Nat) : HostCall where
  receiver? := some (.object r)
  args := [.array x, .int offset, .int count]
  depth := depth

/-- The state in which the string with these properties has got a text. -/
def State.withText (s : State) (r : Nat) (data : HostData) (text : String) : State :=
  { s with heap := { s.heap with
      objects := s.heap.objects.setIfInBounds r
        ⟨stringClass, .host { data with contents? := some text }⟩ } }

section Constructor

variable {s : State} {r x depth : Nat} {data : HostData} {offset count : Int32}

/-- What a string holds can be read off the state. -/
theorem State.withText_inj (hr : s.heap.objects[r]? = some ⟨stringClass, .host data⟩)
    {text text' : String} (h : s.withText r data text = s.withText r data text') : text = text' := by
  have hlt : r < s.heap.objects.size := (Array.getElem?_eq_some_iff.1 hr).1
  have hobjects := congrArg (fun s : State => s.heap.objects[r]?) h
  simpa [State.withText, hlt] using hobjects

/-- The span as it was asked for, if it ends in time. -/
theorem spanLength_of_le (h : offset.toInt + count.toInt ≤ Int32.maxValue.toInt) :
    spanLength offset count = count.toInt.toNat := by
  unfold spanLength
  rw [Int.min_eq_left h]
  omega

/-- Else it is cut off in front of the largest integer. -/
theorem spanLength_of_lt (h : Int32.maxValue.toInt < offset.toInt + count.toInt) :
    (spanLength offset count : Int) = Int32.maxValue.toInt - offset.toInt := by
  have hoffset : offset.toInt ≤ Int32.maxValue.toInt := Int32.toInt_le offset
  unfold spanLength
  rw [Int.min_eq_right (by omega), Int.toNat_of_nonneg (by omega)]

/-- Before the loop the constructor looks for its arguments, behind it it writes the text. -/
theorem stringInit_eq (p : Program) (hx : s.heap.arrays[x]? = some a) :
    stringInit p (constructorCall r x offset count depth) s =
      HostMethod.writing (fun _ _ s => codePoints a (spanLength offset count) offset.toInt >>= fun cs =>
        s.heap.setHostData r (fun data => { data with contents? := some (String.ofList cs) }) >>=
          fun heap => .ok ({ s with heap }, .finish none)) p (constructorCall r x offset count depth) s := by
  have harray : s.heap.array x = .ok a := by
    unfold Heap.array
    rw [hx]
  unfold stringInit HostMethod.writing
  simp only [constructorCall, HostCall.receiver, HostCall.arg, Value.asObject, Value.asArray, Value.asInt,
    List.getElem?_cons_zero, List.getElem?_cons_succ, harray, bind, Except.bind, pure, Except.pure]

/-- Characters that the array holds all along the span become the text. -/
theorem stringInit_of_spells (p : Program) (hr : s.heap.objects[r]? = some ⟨stringClass, .host data⟩)
    (hx : s.heap.arrays[x]? = some a) (hlength : cs.length = spanLength offset count)
    (hspells : a.Spells offset.toInt cs) :
    stringInit p (constructorCall r x offset count depth) s =
      (s.withText r data (String.ofList cs), .finish none) := by
  have hwrite : s.heap.setHostData r (fun data => { data with contents? := some (String.ofList cs) }) =
      .ok (s.withText r data (String.ofList cs)).heap := by
    unfold Heap.setHostData Heap.object
    rw [hr]
    rfl
  rw [stringInit_eq p hx]
  simp only [HostMethod.writing, codePoints_eq_ok_iff.2 ⟨hlength, hspells⟩, bind, Except.bind, hwrite]
  rfl

/-- The constructor writes the characters of the span that it looks at, or fails and writes nothing. -/
theorem stringInit_cases (p : Program) (offset count : Int32) (depth : Nat)
    (hr : s.heap.objects[r]? = some ⟨stringClass, .host data⟩)
    (hx : s.heap.arrays[x]? = some a) :
    (∃ cs : List Char, cs.length = spanLength offset count ∧ a.Spells offset.toInt cs ∧
      stringInit p (constructorCall r x offset count depth) s =
        (s.withText r data (String.ofList cs), .finish none)) ∨
    ((¬ ∃ cs : List Char, cs.length = spanLength offset count ∧ a.Spells offset.toInt cs) ∧
      ∃ e, stringInit p (constructorCall r x offset count depth) s = (s, .fail e)) := by
  -- the loop comes to its end, or an index lacks a character
  cases hspan : codePoints a (spanLength offset count) offset.toInt with
  | ok cs =>
    obtain ⟨hlength, hspells⟩ := codePoints_eq_ok_iff.1 hspan
    exact .inl ⟨cs, hlength, hspells, stringInit_of_spells p hr hx hlength hspells⟩
  | error e =>
    refine .inr ⟨?_, e, ?_⟩
    · rintro ⟨cs, hcs⟩
      rw [codePoints_eq_ok_iff.2 hcs] at hspan
      cases hspan
    · rw [stringInit_eq p hx]
      simp only [HostMethod.writing, hspan, bind, Except.bind]

/-! ## All or nothing -/

/-- What the constructor should come to: it succeeds exactly if every index of the span, as it was asked
for, lies in the array and holds a character; the text is then the characters of the span, and else nothing
has changed. -/
structure AllOrNothing (s : State) (r : Nat) (data : HostData) (a : ArrayObject) (offset count : Int32)
    (result : State × Reply) : Prop where
  succeeds_iff : result.2 = .finish none ↔
    ∀ i : Int, offset.toInt ≤ i → i < offset.toInt + count.toInt → ∃ c, a.HasChar i c
  contents : result.2 = .finish none → ∃ cs : List Char, cs.length = count.toInt.toNat ∧
    a.Spells offset.toInt cs ∧ result.1 = s.withText r data (String.ofList cs)
  unchanged : result.2 ≠ .finish none → result.1 = s ∧ ∃ e, result.2 = .fail e

/-- An index of the span holds no character, and this is noticed. -/
theorem AllOrNothing.of_fail {e : Fault} {result : State × Reply} (hresult : result = (s, .fail e))
    {i : Int} (hfrom : offset.toInt ≤ i) (hto : i < offset.toInt + count.toInt)
    (hmissing : ∀ c, ¬ a.HasChar i c) : AllOrNothing s r data a offset count result := by
  subst hresult
  have hfailed : Reply.fail e ≠ .finish none := by
    intro h
    cases h
  refine ⟨⟨fun h => absurd h hfailed, fun h => ?_⟩, fun h => absurd h hfailed, fun _ => ⟨rfl, e, rfl⟩⟩
  obtain ⟨c, hc⟩ := h i hfrom hto
  exact absurd hc (hmissing c)

/-- A span that ends in time is looked at as a whole. -/
theorem allOrNothing_of_le (p : Program) (depth : Nat)
    (hr : s.heap.objects[r]? = some ⟨stringClass, .host data⟩)
    (hx : s.heap.arrays[x]? = some a)
    (hend : offset.toInt + count.toInt ≤ Int32.maxValue.toInt) :
    AllOrNothing s r data a offset count
      (stringInit p (constructorCall r x offset count depth) s) := by
  have hspan := spanLength_of_le hend
  cases stringInit_cases p offset count depth hr hx with
  | inl hok =>
    obtain ⟨cs, hlength, hspells, hresult⟩ := hok
    rw [hspan] at hlength
    rw [hresult]
    refine ⟨⟨fun _ i hfrom hto => ?_, fun _ => rfl⟩, fun _ => ⟨cs, hlength, hspells, rfl⟩,
      fun h => absurd rfl h⟩
    exact ArrayObject.exists_spells.1 ⟨cs, hlength, hspells⟩ i hfrom (by omega)
  | inr hfail =>
    obtain ⟨hnone, e, hresult⟩ := hfail
    rw [hspan] at hnone
    obtain ⟨i, hfrom, hto, hmissing⟩ := ArrayObject.exists_missing hnone
    exact .of_fail hresult hfrom (by omega) hmissing

/-- A span that is cut off lacks a character already in what is left of it. -/
theorem allOrNothing_of_missing (p : Program) (depth : Nat)
    (hr : s.heap.objects[r]? = some ⟨stringClass, .host data⟩) (hx : s.heap.arrays[x]? = some a)
    (hend : Int32.maxValue.toInt < offset.toInt + count.toInt) {i : Int} (hfrom : offset.toInt ≤ i)
    (hto : i < Int32.maxValue.toInt) (hmissing : ∀ c, ¬ a.HasChar i c) :
    AllOrNothing s r data a offset count
      (stringInit p (constructorCall r x offset count depth) s) := by
  have hspan := spanLength_of_lt hend
  cases stringInit_cases p offset count depth hr hx with
  | inl hok =>
    obtain ⟨cs, hlength, hspells, -⟩ := hok
    obtain ⟨c, hc⟩ := ArrayObject.exists_spells.1 ⟨cs, hlength, hspells⟩ i hfrom (by omega)
    exact absurd hc (hmissing c)
  | inr hfail =>
    obtain ⟨-, e, hresult⟩ := hfail
    exact .of_fail hresult hfrom (by omega) hmissing

/-- Where all that is left of a span that is cut off is there, it becomes the text. -/
theorem stringInit_cut (p : Program) (depth : Nat)
    (hr : s.heap.objects[r]? = some ⟨stringClass, .host data⟩) (hx : s.heap.arrays[x]? = some a)
    (hend : Int32.maxValue.toInt < offset.toInt + count.toInt)
    (hleft : ∀ i : Int, offset.toInt ≤ i → i < Int32.maxValue.toInt → ∃ c, a.HasChar i c) :
    ∃ cs : List Char, (cs.length : Int) = Int32.maxValue.toInt - offset.toInt ∧
      a.Spells offset.toInt cs ∧
      stringInit p (constructorCall r x offset count depth) s =
        (s.withText r data (String.ofList cs), .finish none) := by
  have hspan := spanLength_of_lt hend
  cases stringInit_cases p offset count depth hr hx with
  | inl hok =>
    obtain ⟨cs, hlength, hspells, hresult⟩ := hok
    exact ⟨cs, by omega, hspells, hresult⟩
  | inr hfail =>
    obtain ⟨hnone, -⟩ := hfail
    refine absurd (ArrayObject.exists_spells.2 fun i hfrom hto => ?_) hnone
    exact hleft i hfrom (by omega)

/-- That is not what should happen: the text is too short. -/
theorem not_allOrNothing_of_cut {p : Program} {depth : Nat}
    (hr : s.heap.objects[r]? = some ⟨stringClass, .host data⟩)
    (hend : Int32.maxValue.toInt < offset.toInt + count.toInt) {cs : List Char}
    (hlength : (cs.length : Int) = Int32.maxValue.toInt - offset.toInt)
    (hresult : stringInit p (constructorCall r x offset count depth) s =
      (s.withText r data (String.ofList cs), .finish none)) :
    ¬ AllOrNothing s r data a offset count
      (stringInit p (constructorCall r x offset count depth) s) := by
  intro h
  rw [hresult] at h
  obtain ⟨cs', hlength', -, hsame⟩ := h.contents rfl
  have htext := State.withText_inj hr hsame
  rw [String.ofList_inj] at htext
  subst htext
  omega

/-- A span in which no index lacks a character. -/
theorem ArrayObject.hasChar_of_not_missing {start stop : Int}
    (h : ¬ ∃ i : Int, start ≤ i ∧ i < stop ∧ ∀ c, ¬ a.HasChar i c) :
    ∀ i : Int, start ≤ i → i < stop → ∃ c, a.HasChar i c := by
  simpa only [not_exists, not_and, Classical.not_forall, Classical.not_not] using h

/-- The constructor does what it should exactly if the span ends in time or what is left of it lacks a
character. -/
theorem allOrNothing_iff (p : Program) (depth : Nat) (offset count : Int32)
    (hr : s.heap.objects[r]? = some ⟨stringClass, .host data⟩) (hx : s.heap.arrays[x]? = some a) :
    AllOrNothing s r data a offset count
        (stringInit p (constructorCall r x offset count depth) s) ↔
      offset.toInt + count.toInt ≤ Int32.maxValue.toInt ∨
      ∃ i : Int, offset.toInt ≤ i ∧ i < Int32.maxValue.toInt ∧ ∀ c, ¬ a.HasChar i c := by
  -- the span ends in time, is cut off and lacks a character, or is cut off and complete
  by_cases hend : offset.toInt + count.toInt ≤ Int32.maxValue.toInt
  · exact iff_of_true (allOrNothing_of_le p depth hr hx hend) (.inl hend)
  · have hlong : Int32.maxValue.toInt < offset.toInt + count.toInt := by omega
    by_cases hmissing : ∃ i : Int, offset.toInt ≤ i ∧ i < Int32.maxValue.toInt ∧ ∀ c, ¬ a.HasChar i c
    · obtain ⟨i, hfrom, hto, hnone⟩ := hmissing
      exact iff_of_true (allOrNothing_of_missing p depth hr hx hlong hfrom hto hnone)
        (.inr ⟨i, hfrom, hto, hnone⟩)
    · obtain ⟨cs, hlength, -, hresult⟩ :=
        stringInit_cut p depth hr hx hlong (ArrayObject.hasChar_of_not_missing hmissing)
      refine iff_of_false (not_allOrNothing_of_cut hr hlong hlength hresult) ?_
      rintro (hle | hnone)
      · exact hend hle
      · exact hmissing hnone

/-- An array that is not as long as the largest integer has no element in front of it. -/
theorem ArrayObject.not_hasChar_of_short (hshort : (a.values.size : Int) < Int32.maxValue.toInt) (c : Char) :
    ¬ a.HasChar (Int32.maxValue.toInt - 1) c := by
  intro h
  have hlt := h.lt_size
  omega

end Constructor

/-- The constructor, called on a string with any properties, does what it should exactly if the span ends
in time or what is left of it lacks a character. Else it succeeds: the text is what is left of the span, in
front of the largest integer, although the rest was asked for too. In an array of fewer elements there is
one case only: the offset is the largest integer, nothing is left, and the string becomes empty. -/
theorem construction_iff (p : Program) (s : State) (r x depth : Nat) (data : HostData) (a : ArrayObject)
    (offset count : Int32) (hr : s.heap.objects[r]? = some ⟨stringClass, .host data⟩)
    (hx : s.heap.arrays[x]? = some a) :
    (AllOrNothing s r data a offset count
        (stringInit p (constructorCall r x offset count depth) s) ↔
      offset.toInt + count.toInt ≤ Int32.maxValue.toInt ∨
      ∃ i : Int, offset.toInt ≤ i ∧ i < Int32.maxValue.toInt ∧ ∀ c, ¬ a.HasChar i c) ∧
    (¬ AllOrNothing s r data a offset count
        (stringInit p (constructorCall r x offset count depth) s) →
      ∃ cs : List Char, (cs.length : Int) = Int32.maxValue.toInt - offset.toInt ∧
        a.Spells offset.toInt cs ∧
        stringInit p (constructorCall r x offset count depth) s =
          (s.withText r data (String.ofList cs), .finish none)) ∧
    ((a.values.size : Int) < Int32.maxValue.toInt →
      (AllOrNothing s r data a offset count
          (stringInit p (constructorCall r x offset count depth) s) ↔
        ¬ (offset = Int32.maxValue ∧ 0 < count.toInt))) := by
  have hiff := allOrNothing_iff p depth offset count hr hx
  refine ⟨hiff, fun h => ?_, fun hshort => ?_⟩
  · rw [hiff, not_or] at h
    exact stringInit_cut p depth hr hx (by omega) (ArrayObject.hasChar_of_not_missing h.2)
  · rw [hiff]
    have hoffset : offset.toInt ≤ Int32.maxValue.toInt := Int32.toInt_le offset
    constructor
    · rintro (hle | ⟨i, hfrom, hto, -⟩) ⟨rfl, hcount⟩ <;> omega
    · intro h
      by_cases hend : offset.toInt + count.toInt ≤ Int32.maxValue.toInt
      · exact .inl hend
      -- the offset is smaller than the largest integer, in front of which a short array has no element
      · have hne : offset.toInt ≠ Int32.maxValue.toInt := by
          intro heq
          exact h ⟨Int32.toInt_inj.1 heq, by omega⟩
        exact .inr ⟨Int32.maxValue.toInt - 1, by omega, by omega,
          ArrayObject.not_hasChar_of_short hshort⟩

/-- Three integers: a letter, a character beyond U+FFFF and half of a surrogate pair. -/
def lettersArray : ArrayObject where
  elementType := .int
  values := #[.int 72, .int 0x1F600, .int 0xD800]

/-- A heap with a string that nobody has written, and with the array. -/
def lettersState : State where
  heap := { objects := #[⟨stringClass, .host {}⟩], arrays := #[lettersArray] }

/-- The first two integers make a text, and all three make none; neither is affected by where spans are cut
off. -/
theorem letters_construction :
    lettersState.heap.objects[0]? = some ⟨stringClass, .host {}⟩ ∧
    lettersState.heap.arrays[0]? = some lettersArray ∧
    AllOrNothing lettersState 0 {} lettersArray 0 2
      (stringInit default (constructorCall 0 0 0 2 1) lettersState) ∧
    (stringInit default (constructorCall 0 0 0 2 1) lettersState).2 = .finish none ∧
    AllOrNothing lettersState 0 {} lettersArray 0 3
      (stringInit default (constructorCall 0 0 0 3 1) lettersState) ∧
    (stringInit default (constructorCall 0 0 0 3 1) lettersState).2 =
      .fail (.typeMismatch (.notACodePoint 0xD800)) ∧
    ¬ AllOrNothing lettersState 0 {} lettersArray Int32.maxValue 1
      (stringInit default (constructorCall 0 0 Int32.maxValue 1 1) lettersState) := by
  have hr : lettersState.heap.objects[0]? = some ⟨stringClass, .host {}⟩ := rfl
  have hx : lettersState.heap.arrays[0]? = some lettersArray := rfl
  have hshort : (lettersArray.values.size : Int) < Int32.maxValue.toInt := by decide
  refine ⟨hr, hx, ?_, by decide, ?_, by decide, ?_⟩
  · exact (construction_iff default lettersState 0 0 1 {} lettersArray 0 2 hr hx).1.2
      (.inl (by decide))
  · exact (construction_iff default lettersState 0 0 1 {} lettersArray 0 3 hr hx).1.2
      (.inl (by decide))
  · rw [(construction_iff default lettersState 0 0 1 {} lettersArray Int32.maxValue 1 hr hx).2.2 hshort]
    exact fun h => h ⟨rfl, by decide⟩

/-- One character is asked for from the largest integer on, where the array has no element, and the
constructor succeeds with none. -/
theorem largest_offset_accepted :
    stringInit default (constructorCall 0 0 Int32.maxValue 1 1) lettersState =
      (lettersState.withText 0 {} "", .finish none) ∧
    ¬ AllOrNothing lettersState 0 {} lettersArray Int32.maxValue 1
      (stringInit default (constructorCall 0 0 Int32.maxValue 1 1) lettersState) := by
  have hresult : stringInit default (constructorCall 0 0 Int32.maxValue 1 1) lettersState =
      (lettersState.withText 0 {} "", .finish none) := by decide
  refine ⟨hresult, fun h => ?_⟩
  -- one character was asked for, so one would have to be there
  obtain ⟨c, hc⟩ := h.succeeds_iff.1 (congrArg Prod.snd hresult) Int32.maxValue.toInt (by decide) (by decide)
  exact absurd hc.lt_size (by decide)

end Smali.Machine
