import Smali.Proofs.CodePoints
import Smali.Proofs.HeapTyping

/-!
# Strings in UTF-16

A string is made of code points and is counted and indexed in sixteen-bit units. UTF-16 is stated here as a
relation between characters and units (`Text.Utf16`): a character up to U+FFFF is its own unit, any other
is a high surrogate and a low one. The units that `length` and `charAt` see are related to the characters
in that way, whatever the string held before it was written.

A span of an array never ends behind the largest 32-bit integer, as the lengths of arrays are 32-bit
integers themselves. Nothing in a session makes a longer one (`measured_history`). The units of a span may
be twice as many as its characters, though, and `length` counts them in 32 bits: it gives their number
exactly if that is a 32-bit integer, and a negative number else, while `charAt` still finds every unit.

## Key results

- `Text.utf16_iff`: the units of a text are the one list that is related to it
- `measured_history`: the lengths of arrays are 32-bit integers
- `showsUnits_withText`: what `length` and `charAt` see of a text
- `string_units`: what they see of code points that a string was made of, and when the length is right
-/

namespace Smali

/-! ## UTF-16 -/

namespace Text

/-- The units of characters. A surrogate carries ten bits of the distance from U+10000, the high one the
upper ten. -/
inductive Utf16 : List Char → List Nat → Prop
  | nil : Utf16 [] []
  | single (c cs us) (hc : c.toNat ≤ 0xFFFF) (h : Utf16 cs us) : Utf16 (c :: cs) (c.toNat :: us)
  | pair (c cs us high low) (hhigh : 0xD800 ≤ high ∧ high ≤ 0xDBFF) (hlow : 0xDC00 ≤ low ∧ low ≤ 0xDFFF)
    (hc : c.toNat = 0x10000 + (high - 0xD800) * 0x400 + (low - 0xDC00)) (h : Utf16 cs us) :
    Utf16 (c :: cs) (high :: low :: us)

variable {cs : List Char} {us : List Nat}

/-- The last character is U+10FFFF. -/
theorem toNat_lt (c : Char) : c.toNat < 0x110000 := by
  have hvalid : c.toNat.isValidChar := c.valid
  unfold Nat.isValidChar at hvalid
  omega

/-- Put one after the other, the units of the characters are the units of the text. -/
theorem utf16_flatMap (cs : List Char) : Utf16 cs (cs.flatMap charUnits) := by
  -- the induction is on the characters
  induction cs with
  | nil => exact .nil
  | cons c cs ih =>
    rw [List.flatMap_cons, charUnits]
    split
    · exact .single c cs _ (by omega) ih
    · -- the distance from U+10000 has twenty bits
      have hlt := toNat_lt c
      exact .pair c cs _ _ _ (by omega) (by omega) (by omega) ih

/-- There are no others. -/
theorem eq_flatMap_of_utf16 (h : Utf16 cs us) : us = cs.flatMap charUnits := by
  induction h with
  | nil => rfl
  | single c cs us hc _ ih =>
    rw [List.flatMap_cons, charUnits, if_pos (by omega), ← ih]
    rfl
  | pair c cs us high low hhigh hlow hc _ ih =>
    rw [List.flatMap_cons, charUnits, if_neg (by omega), ← ih]
    -- the two surrogates carry the upper and the lower ten bits of the distance
    have hfirst : 0xD800 + (c.toNat - 0x10000) / 0x400 = high := by omega
    have hsecond : 0xDC00 + (c.toNat - 0x10000) % 0x400 = low := by omega
    rw [hfirst, hsecond]
    rfl

/-- The units of a text are what UTF-16 says, and nothing else is. -/
theorem utf16_iff : Utf16 cs us ↔ us = units (String.ofList cs) := by
  rw [units, String.toList_ofList]
  refine ⟨eq_flatMap_of_utf16, ?_⟩
  rintro rfl
  exact utf16_flatMap cs

/-- A character beyond U+FFFF counts twice. -/
theorem Utf16.length_eq (h : Utf16 cs us) :
    us.length = cs.length + cs.countP fun c => 0xFFFF < c.toNat := by
  induction h with
  | nil => rfl
  | single c cs us hc _ ih =>
    rw [List.countP_cons_of_neg (by simpa using hc)]
    simp only [List.length_cons]
    omega
  | pair c cs us high low hhigh hlow hc _ ih =>
    rw [List.countP_cons_of_pos (by rw [decide_eq_true_iff]; omega)]
    simp only [List.length_cons]
    omega

/-- A unit has sixteen bits. -/
theorem Utf16.lt_of_mem (h : Utf16 cs us) : ∀ u ∈ us, u < 0x10000 := by
  induction h with
  | nil => exact fun u hu => absurd hu List.not_mem_nil
  | single c cs us hc _ ih => exact List.forall_mem_cons.2 ⟨by omega, ih⟩
  | pair c cs us high low hhigh hlow hc _ ih =>
    exact List.forall_mem_cons.2 ⟨by omega, List.forall_mem_cons.2 ⟨by omega, ih⟩⟩

end Text

namespace Machine

/-! ## The lengths of arrays -/

/-- The lengths of the arrays are 32-bit integers. -/
def Heap.Measured (h : Heap) : Prop :=
  ∀ a ∈ h.arrays, (a.values.size : Int) ≤ Int32.maxValue.toInt

/-- What is done from outside makes only arrays whose lengths are 32-bit integers. -/
def Operation.Measured : Operation → Prop
  | .newArray _ values => (values.size : Int) ≤ Int32.maxValue.toInt
  | _ => True

section Lengths

variable {s : State} {setup : Setup}

/-- The lengths stay 32-bit integers, if those of the arrays that may be made are. -/
theorem measured_arrays {W : Allowance}
    (hW : ∀ type values, W.array type values → (values.size : Int) ≤ Int32.maxValue.toInt) :
    ArrayInvariant W fun a => (a.values.size : Int) ≤ Int32.maxValue.toInt where
  made := hW
  set a i v ha _ := by
    rw [Array.size_setIfInBounds]
    exact ha

/-- From one moment to the next no array is made whose length is not a 32-bit integer: the running code
gives a length in a slot. -/
theorem Next.measured (hn : setup.natives = .standard) {o o' : Outcome}
    (hnext : Next setup Operation.Measured o o') (hm : o.state.heap.Measured) :
    o'.state.heap.Measured := by
  refine (measured_arrays fun type values hmake => ?_).becomes (next_becomes hn hnext) hm
  cases o with
  | unfinished m =>
    obtain ⟨f, i, -, -, -, -, hlength⟩ := hmake
    exact hlength
  | returned | failed => exact hmake

/-- The lengths of arrays are 32-bit integers at every moment of a session. -/
theorem measured_history (hn : setup.natives = .standard) (hs : s.heap.Measured)
    {ops : List (Operation × Nat)} (hops : ∀ op ∈ ops, op.1.Measured) :
    ∀ o ∈ (.returned s none :: history setup s ops : List Outcome), o.state.heap.Measured := by
  have hchain : List.IsChain (Next setup Operation.Measured)
      (.returned s none :: history setup s ops) := isChain_history hops rfl
  refine List.forall_mem_cons.2 ⟨hs, fun o ho => ?_⟩
  exact hchain.cons_induction _ _ (fun _ _ hnext => Next.measured hn hnext) hs o ho

end Lengths

/-! ## What is seen of a text -/

/-- The methods of strings, called on the object, see these units: `length` counts them in 32 bits, and
`charAt` gives the one at an index inside and fails with the number of units outside. -/
structure ShowsUnits (p : Program) (s : State) (r : Nat) (us : List Nat) : Prop where
  length : ∀ depth, stringLength p ⟨some (.object r), [], depth⟩ s =
    (s, .finish (some (.int (Int32.ofNat us.length))))
  inside : ∀ depth (i : Int32) u, 0 ≤ i.toInt → us[i.toInt.toNat]? = some u →
    ∃ v : Int32, v.toInt = u ∧
      stringCharAt p ⟨some (.object r), [.int i], depth⟩ s = (s, .finish (some (.int v)))
  outside : ∀ depth (i : Int32), ¬ (0 ≤ i.toInt ∧ i.toInt < us.length) →
    stringCharAt p ⟨some (.object r), [.int i], depth⟩ s = (s, .fail (.outOfBounds i.toInt us.length))

section Text

variable {p : Program} {s : State} {r depth : Nat} {text : String}

/-- `length` counts the units in 32 bits. -/
theorem stringLength_eq {call : HostCall} (htext : receiverText call s = .ok text) :
    stringLength p call s = (s, .finish (some (.int (Int32.ofNat (Text.units text).length)))) := by
  simp only [stringLength, HostMethod.reading, htext, bind, Except.bind, pure, Except.pure,
    Reply.ofExcept]

/-- Inside, `charAt` gives the unit at the index. -/
theorem stringCharAt_inside {i : Int32} {u : Nat}
    (htext : receiverText ⟨some (.object r), [.int i], depth⟩ s = .ok text) (hi : 0 ≤ i.toInt)
    (hu : (Text.units text)[i.toInt.toNat]? = some u) :
    stringCharAt p ⟨some (.object r), [.int i], depth⟩ s =
      (s, .finish (some (.int (Int32.ofNat u)))) := by
  simp only [stringCharAt, HostMethod.reading, htext, bind, Except.bind, HostCall.arg,
    List.getElem?_cons_zero, Value.asInt, if_pos hi, hu, pure, Except.pure, Reply.ofExcept]

/-- Outside, `charAt` fails with the number of units. -/
theorem stringCharAt_outside {i : Int32}
    (htext : receiverText ⟨some (.object r), [.int i], depth⟩ s = .ok text)
    (hi : ¬ (0 ≤ i.toInt ∧ i.toInt < (Text.units text).length)) :
    stringCharAt p ⟨some (.object r), [.int i], depth⟩ s =
      (s, .fail (.outOfBounds i.toInt (Text.units text).length)) := by
  -- a negative index is no place, and a place behind the last unit holds none
  have hnone : (if 0 ≤ i.toInt then (Text.units text)[i.toInt.toNat]? else none) = none := by
    split
    · exact List.getElem?_eq_none (by omega)
    · rfl
  simp only [stringCharAt, HostMethod.reading, htext, bind, Except.bind, HostCall.arg,
    List.getElem?_cons_zero, Value.asInt, hnone, Reply.ofExcept]

/-- A number that is a 32-bit integer is kept. -/
theorem toInt_ofNat_of_le {n : Nat} (h : (n : Int) ≤ Int32.maxValue.toInt) :
    (Int32.ofNat n).toInt = n := by
  have hmax : Int32.maxValue.toInt = 2147483647 := rfl
  exact Int32.toInt_ofNat_of_lt (by omega)

/-- A number with one bit too many becomes negative. -/
theorem toInt_ofNat_of_lt {n : Nat} (hlow : Int32.maxValue.toInt < n) (hhigh : n < 4294967296) :
    (Int32.ofNat n).toInt = n - 4294967296 := by
  have hmax : Int32.maxValue.toInt = 2147483647 := rfl
  have hsize : (Int32.size : Int) = 4294967296 := rfl
  rw [Int32.toInt_ofNat', Int.bmod_def, hsize]
  omega

/-- Once a string has a text, all methods see the units of that text. -/
theorem showsUnits_withText {data : HostData} (p : Program)
    (hr : s.heap.objects[r]? = some ⟨stringClass, .host data⟩) {cs : List Char} {us : List Nat}
    (hus : Text.Utf16 cs us) : ShowsUnits p (s.withText r data (String.ofList cs)) r us := by
  have hlt : r < s.heap.objects.size := (Array.getElem?_eq_some_iff.1 hr).1
  have htext : ∀ args depth, receiverText ⟨some (.object r), args, depth⟩
      (s.withText r data (String.ofList cs)) = .ok (String.ofList cs) := by
    intro args depth
    -- the object has been overwritten in its place
    have hobject : (s.withText r data (String.ofList cs)).heap.object r =
        .ok ⟨stringClass, .host { data with contents? := some (String.ofList cs) }⟩ := by
      unfold Heap.object State.withText
      rw [Array.getElem?_setIfInBounds_self_of_lt hlt]
    exact bind_eq_ok.2 ⟨r, rfl, bind_eq_ok.2 ⟨_, hobject, rfl⟩⟩
  have hunits : us = Text.units (String.ofList cs) := Text.utf16_iff.1 hus
  constructor
  · intro depth
    rw [stringLength_eq (htext [] depth), ← hunits]
  · intro depth i u hi hu
    have hsmall : u < 0x10000 := hus.lt_of_mem u (List.mem_of_getElem? hu)
    have hmax : Int32.maxValue.toInt = 2147483647 := rfl
    rw [hunits] at hu
    exact ⟨Int32.ofNat u, toInt_ofNat_of_le (by omega), stringCharAt_inside (htext _ depth) hi hu⟩
  · intro depth i hi
    rw [hunits] at hi ⊢
    exact stringCharAt_outside (htext _ depth) hi

/-- The string gets the characters that the array holds all along the span, and shows their units. -/
theorem stringInit_shows {data : HostData} {a : ArrayObject} {x : Nat} {offset count : Int32}
    {cs : List Char} (p : Program) (depth : Nat)
    (hr : s.heap.objects[r]? = some ⟨stringClass, .host data⟩) (hx : s.heap.arrays[x]? = some a)
    (hsize : (a.values.size : Int) ≤ Int32.maxValue.toInt)
    (hend : offset.toInt + count.toInt ≤ a.values.size) (hcount : (cs.length : Int) = count.toInt)
    (hspells : a.Spells offset.toInt cs) :
    ∃ s', stringInit p (constructorCall r x offset count depth) s = (s', .finish none) ∧
      ShowsUnits p s' r (Text.units (String.ofList cs)) := by
  have hspan : spanLength offset count = cs.length := by
    rw [spanLength_of_le (by omega)]
    omega
  exact ⟨s.withText r data (String.ofList cs), stringInit_of_spells p hr hx hspan.symm hspells,
    showsUnits_withText p hr (Text.utf16_iff.2 rfl)⟩

/-- Whether a string says how many units it shows. -/
def CountsUnits (p : Program) (s : State) (r : Nat) (us : List Nat) : Prop :=
  ∀ depth, ∃ n : Int32, stringLength p ⟨some (.object r), [], depth⟩ s = (s, .finish (some (.int n))) ∧
    n.toInt = us.length

/-- The length is right if it is a 32-bit integer, and only then. -/
theorem ShowsUnits.countsUnits_iff {us : List Nat} (h : ShowsUnits p s r us) :
    CountsUnits p s r us ↔ (us.length : Int) ≤ Int32.maxValue.toInt := by
  constructor
  · intro hcounts
    obtain ⟨n, hlength, hn⟩ := hcounts 0
    rw [← hn]
    exact Int32.toInt_le n
  · exact fun hle depth => ⟨_, h.length depth, toInt_ofNat_of_le hle⟩

end Text

/-- In any session the lengths of arrays are 32-bit integers, unless a longer array is put on the heap from
outside.

Take any string and an array of such a length that holds characters from an offset on. Made of these, the
string shows their units in UTF-16: they are as many as the characters, those beyond U+FFFF counted twice,
and `charAt` gives them in order, and fails with their number outside. Their number is what `length` gives
if and only if it is a 32-bit integer. Else `length` gives the number less 2³², which is negative. -/
theorem string_units (p : Program) :
    (∀ maxDepth (s : State) ops, s.heap.Measured → (∀ op ∈ ops, op.1.Measured) →
      ∀ o ∈ (.returned s none :: history { program := p, maxDepth } s ops : List Outcome),
        o.state.heap.Measured) ∧
    ∀ (s : State) (r x depth : Nat) (data : HostData) (a : ArrayObject) (offset count : Int32)
      (cs : List Char), s.heap.objects[r]? = some ⟨stringClass, .host data⟩ →
      s.heap.arrays[x]? = some a → (a.values.size : Int) ≤ Int32.maxValue.toInt →
      0 ≤ offset.toInt → offset.toInt + count.toInt ≤ a.values.size →
      (cs.length : Int) = count.toInt → a.Spells offset.toInt cs →
      ∃ s' us, stringInit p (constructorCall r x offset count depth) s = (s', .finish none) ∧
        Text.Utf16 cs us ∧
        (us.length : Int) = count.toInt + cs.countP (fun c => 0xFFFF < c.toNat) ∧
        ShowsUnits p s' r us ∧
        (CountsUnits p s' r us ↔ (us.length : Int) ≤ Int32.maxValue.toInt) ∧
        (Int32.maxValue.toInt < us.length → ∀ depth, ∃ n : Int32,
          stringLength p ⟨some (.object r), [], depth⟩ s' = (s', .finish (some (.int n))) ∧
          n.toInt = us.length - 4294967296 ∧ n.toInt < 0) := by
  refine ⟨fun maxDepth s ops hs hops => measured_history rfl hs hops, ?_⟩
  intro s r x depth data a offset count cs hr hx hsize _ hend hcount hspells
  obtain ⟨s', hrun, hshows⟩ := stringInit_shows p depth hr hx hsize hend hcount hspells
  have hus : Text.Utf16 cs (Text.units (String.ofList cs)) := Text.utf16_iff.2 rfl
  have hlength := hus.length_eq
  -- no character is more than two units, and a span has less than 2³¹ characters
  have hbound : (Text.units (String.ofList cs)).length < 4294967296 := by
    have hmost := List.countP_le_length (p := fun c : Char => decide (0xFFFF < c.toNat)) (l := cs)
    have hmax : Int32.maxValue.toInt = 2147483647 := rfl
    have hle : count.toInt ≤ Int32.maxValue.toInt := Int32.toInt_le count
    omega
  refine ⟨s', _, hrun, hus, by omega, hshows, hshows.countsUnits_iff, fun hlarge depth => ?_⟩
  have hwrapped := toInt_ofNat_of_lt hlarge hbound
  exact ⟨_, hshows.length depth, hwrapped, by omega⟩

/-- A letter and a character beyond U+FFFF are three units. -/
theorem letters_units : lettersArray.Spells 0 ['H', '😀'] ∧ ∃ s',
    stringInit default (constructorCall 0 0 0 2 1) lettersState = (s', .finish none) ∧
    ShowsUnits default s' 0 [72, 0xD83D, 0xDE00] ∧ CountsUnits default s' 0 [72, 0xD83D, 0xDE00] ∧
    stringLength default ⟨some (.object 0), [], 1⟩ s' = (s', .finish (some (.int 3))) ∧
    stringCharAt default ⟨some (.object 0), [.int (-1)], 1⟩ s' = (s', .fail (.outOfBounds (-1) 3)) := by
  have hspells : lettersArray.Spells 0 ['H', '😀'] := by
    refine ArrayObject.spells_cons.2 ⟨⟨by decide, 72, rfl, by decide⟩, ?_⟩
    refine ArrayObject.spells_cons.2 ⟨⟨by decide, 0x1F600, rfl, by decide⟩, ?_⟩
    exact fun k c hk => by cases hk
  obtain ⟨s', us, hrun, hus, -, hshows, hcounts, -⟩ := (string_units default).2 lettersState 0 0 1 {}
    lettersArray 0 2 ['H', '😀'] rfl rfl (by decide) (by decide) (by decide) (by decide) hspells
  obtain rfl : us = [72, 0xD83D, 0xDE00] := Text.eq_flatMap_of_utf16 hus
  exact ⟨hspells, s', hrun, hshows, hcounts.2 (by decide), hshows.length 1, hshows.outside 1 (-1) (by decide)⟩

/-! ## A text that is too long -/

/-- A heap with a string that nobody has written, and with an array that holds one character beyond U+FFFF
so many times. -/
def repeatedState (n : Nat) : State where
  heap := { objects := #[⟨stringClass, .host {}⟩],
            arrays := #[⟨.int, Array.replicate n (.int 0x1F600)⟩] }

/-- The array holds the character all along. The number of times is a variable, since an array of the size
that matters is never to be computed. -/
theorem spells_repeated (n : Nat) :
    ArrayObject.Spells ⟨.int, Array.replicate n (.int 0x1F600)⟩ 0 (List.replicate n '😀') := by
  intro k c hk
  obtain ⟨hlt, rfl⟩ : k < n ∧ '😀' = c := by
    simpa [List.getElem?_replicate] using hk
  refine ⟨by omega, 0x1F600, ?_, rfl⟩
  have hindex : ((0 : Int) + k).toNat = k := by omega
  rw [hindex]
  simp [hlt]

/-- Each time is two units, of which the first is a high surrogate. -/
theorem units_repeated {n : Nat} (hn : 0 < n) :
    (Text.units (String.ofList (List.replicate n '😀'))).length = 2 * n ∧
      (Text.units (String.ofList (List.replicate n '😀')))[0]? = some 0xD83D := by
  have hus : Text.Utf16 (List.replicate n '😀') (Text.units (String.ofList (List.replicate n '😀'))) :=
    Text.utf16_iff.2 rfl
  constructor
  · have hbeyond : decide (0xFFFF < '😀'.toNat) = true := by decide
    have hlength := hus.length_eq
    rw [List.length_replicate, List.countP_replicate, if_pos hbeyond] at hlength
    omega
  -- at least one character is there, and its first unit comes first
  · obtain ⟨m, rfl⟩ := Nat.exists_eq_succ_of_ne_zero (Nat.ne_of_gt hn)
    rw [Text.units, String.toList_ofList, List.replicate_succ, List.flatMap_cons]
    rfl

/-- The string gets the character so many times. -/
theorem repeated_shows {n : Nat} {count : Int32} (hcount : (n : Int) = count.toInt) :
    ∃ s', stringInit default (constructorCall 0 0 0 count 1) (repeatedState n) = (s', .finish none) ∧
      ShowsUnits default s' 0 (Text.units (String.ofList (List.replicate n '😀'))) := by
  have hle : count.toInt ≤ Int32.maxValue.toInt := Int32.toInt_le count
  have hzero : (0 : Int32).toInt = 0 := rfl
  refine stringInit_shows (a := ⟨.int, Array.replicate n (.int 0x1F600)⟩) default 1 rfl rfl ?_ ?_ ?_
    (spells_repeated n)
  · rw [Array.size_replicate]
    omega
  · rw [Array.size_replicate]
    omega
  · rw [List.length_replicate]
    exact hcount

/-- A string of 2³⁰ characters beyond U+FFFF has 2³¹ units. It says that its length is -2147483648, and
still has a unit at index 0. -/
theorem long_text_negative : ∃ s',
    stringInit default (constructorCall 0 0 0 1073741824 1) (repeatedState 1073741824) =
      (s', .finish none) ∧
    (Text.units (String.ofList (List.replicate 1073741824 '😀'))).length = 2147483648 ∧
    stringLength default ⟨some (.object 0), [], 1⟩ s' = (s', .finish (some (.int (-2147483648)))) ∧
    stringCharAt default ⟨some (.object 0), [.int 0], 1⟩ s' = (s', .finish (some (.int 0xD83D))) := by
  obtain ⟨hlength, hfirst⟩ := units_repeated (n := 1073741824) (by decide)
  have hcount : ((1073741824 : Nat) : Int) = (1073741824 : Int32).toInt := by decide
  obtain ⟨s', hrun, hshows⟩ := repeated_shows hcount
  obtain ⟨v, hv, hchar⟩ := hshows.inside 1 0 0xD83D (by decide) hfirst
  obtain rfl : v = 0xD83D := Int32.toInt_inj.1 hv
  refine ⟨s', hrun, hlength, ?_, hchar⟩
  rw [hshows.length 1, hlength]
  rfl

end Machine

end Smali
