import Mathlib.Algebra.Group.Int.Defs
import Mathlib.Algebra.Group.Nat.Defs
import Smali.Machine.Arithmetic

/-!
# Two's complement

What an operation on integers means is said on numbers without bounds and on patterns of bits
(`BinaryOp.meaning`): sums, products, quotients and remainders are those of the numbers, the bitwise
operations and the shifts are those of the patterns of the width. The result of `evaluate` is the number of
the width that is congruent to it.

The exact results are compared with the meaning as patterns: two numbers are congruent modulo `2 ^ w` if and
only if they have the same pattern of `w` bits (`ofInt_eq_iff`), and cutting a longer pattern commutes with
the bitwise operations.

## Key results

- `ofInt_exactResult`: the exact result and the meaning have the same pattern
- `natAbs_exactResult_le`: the exact result needs at most 128 bits
- `evaluate_twos_complement`: which results there are, and when there is none
- `ofInt_exactResult_congr`: operations that factor through the residues of their operands
- `reduction_commutes`: which operations allow to reduce the operands first
-/

namespace Smali

/-- Whether the width has room for a number with sign. -/
def Width.Holds (width : Width) (n : Int) : Prop :=
  -2 ^ (width.bits - 1) ≤ n ∧ n < 2 ^ (width.bits - 1)

instance (width : Width) (n : Int) : Decidable (width.Holds n) :=
  inferInstanceAs (Decidable (_ ∧ _))

/-- No width has more than 64 bits. -/
theorem Width.bits_le (width : Width) : width.bits ≤ 64 := by
  cases width <;> decide

/-- The modulus of a width is a power of two. -/
theorem Width.modulus_eq (width : Width) : width.modulus = 2 ^ width.bits :=
  Nat.one_shiftLeft _

/-- What an operation means for numbers of `w` bits. The divisor is not zero. -/
def BinaryOp.meaning (w : Nat) (a b : Int) : BinaryOp → Int
  | .add => a + b
  | .sub => a - b
  | .rsub => b - a
  | .mul => a * b
  | .div => a.tdiv b
  | .rem => a.tmod b
  | .and => (BitVec.ofInt w a &&& BitVec.ofInt w b).toInt
  | .or => (BitVec.ofInt w a ||| BitVec.ofInt w b).toInt
  | .xor => (BitVec.ofInt w a ^^^ BitVec.ofInt w b).toInt
  | .shl => (BitVec.ofInt w a <<< (b % w).toNat).toInt
  | .shr => ((BitVec.ofInt w a).sshiftRight (b % w).toNat).toInt
  | .ushr => (BitVec.ofInt w a >>> (b % w).toNat).toInt

namespace Machine

variable {op : BinaryOp} {width : Width} {lhs rhs : Int64}

/-! ## Patterns of bits -/

/-- Numbers are congruent if and only if they have the same pattern. -/
theorem ofInt_eq_iff (w : Nat) (a b : Int) :
    BitVec.ofInt w a = BitVec.ofInt w b ↔ a % 2 ^ w = b % 2 ^ w := by
  rw [← BitVec.toInt_inj, BitVec.toInt_ofInt, BitVec.toInt_ofInt]
  have hcast : ((2 ^ w : Nat) : Int) = 2 ^ w := by simp
  constructor
  · intro h
    rw [← hcast, ← Int.bmod_emod, h, Int.bmod_emod]
  · intro h
    rw [← Int.emod_bmod, hcast, h, ← hcast, Int.emod_bmod]

/-- The pattern of a 64-bit number in fewer bits is the lower part of its pattern. -/
theorem ofInt_toInt_of_le {w : Nat} (hw : w ≤ 64) (n : Int64) :
    BitVec.ofInt w n.toInt = n.toBitVec.setWidth w :=
  BitVec.signExtend_eq_setWidth_of_le _ hw

/-- The number of a pattern of the width is the number it was made of. -/
theorem toInt_ofInt_of_holds {n : Int} (h : width.Holds n) :
    (BitVec.ofInt width.bits n).toInt = n := by
  rw [BitVec.toInt_ofInt]
  unfold Width.Holds at h
  cases width <;> simp only [Width.bits] at h ⊢ <;> exact Int.bmod_eq_of_le (by omega) (by omega)

/-- A number that is multiplied by a power of two has the shifted pattern. -/
theorem ofInt_shl (w d : Nat) (a : Int) :
    BitVec.ofInt w (a * (1 <<< d : Nat)) = BitVec.ofInt w a <<< d := by
  have hpow : BitVec.ofNat w (2 ^ d) = BitVec.twoPow w d := by
    apply BitVec.eq_of_toNat_eq
    rw [BitVec.toNat_ofNat, BitVec.toNat_twoPow]
  rw [BitVec.ofInt_mul, BitVec.ofInt_natCast, Nat.one_shiftLeft, hpow,
    BitVec.shiftLeft_eq_mul_twoPow]

/-- A number without sign that is shifted to the right has the shifted pattern. -/
theorem ofInt_ushr (w d : Nat) (a : Int) :
    BitVec.ofInt w (((a % (2 ^ w : Nat)).toNat >>> d : Nat) : Int) = BitVec.ofInt w a >>> d := by
  rw [BitVec.ofInt_natCast, ← BitVec.toNat_ofInt, ← BitVec.toNat_ushiftRight, BitVec.ofNat_toNat,
    BitVec.setWidth_eq]

/-- The exact result has the pattern of the meaning. -/
theorem ofInt_exactResult (op : BinaryOp) (hlhs : width.Holds lhs.toInt) :
    BitVec.ofInt width.bits (exactResult op width lhs rhs) =
      BitVec.ofInt width.bits (op.meaning width.bits lhs.toInt rhs.toInt) := by
  have hcut := ofInt_toInt_of_le width.bits_le
  cases op with
  | add | sub | rsub | mul | div | rem => rfl
  -- both sides are patterns of 64 bits that are cut
  | and =>
    rw [BinaryOp.meaning, exactResult, BitVec.ofInt_toInt, hcut, hcut, hcut]
    exact BitVec.setWidth_and
  | or =>
    rw [BinaryOp.meaning, exactResult, BitVec.ofInt_toInt, hcut, hcut, hcut]
    exact BitVec.setWidth_or
  | xor =>
    rw [BinaryOp.meaning, exactResult, BitVec.ofInt_toInt, hcut, hcut, hcut]
    exact BitVec.setWidth_xor
  | shl =>
    rw [BinaryOp.meaning, exactResult, BitVec.ofInt_toInt, ofInt_shl]
    rfl
  -- the sign of the left operand is that of the width
  | shr =>
    rw [BinaryOp.meaning, exactResult, BitVec.toInt_sshiftRight, toInt_ofInt_of_holds hlhs]
    rfl
  | ushr =>
    rw [BinaryOp.meaning, exactResult, BitVec.ofInt_toInt, Width.modulus_eq, ofInt_ushr]
    rfl

/-! ## Range -/

/-- The reduced number is in the range of the width. -/
theorem toInt_reduce (width : Width) (n : Int) :
    (reduce width n).toInt = n.bmod (2 ^ width.bits) := by
  rw [reduce, Int64.toInt_ofInt, Width.modulus_eq]
  have hlow := Int.le_bmod (x := n) (m := 2 ^ width.bits) (Nat.two_pow_pos _)
  have hhigh := Int.bmod_lt (x := n) (m := 2 ^ width.bits) (Nat.two_pow_pos _)
  cases width <;> simp only [Width.bits] at hlow hhigh ⊢ <;>
    exact Int.bmod_eq_of_le (by simp only [Int64.size]; omega) (by simp only [Int64.size]; omega)

/-- The residue nearest to zero is a number of the width. -/
theorem holds_bmod (width : Width) (n : Int) : width.Holds (n.bmod (2 ^ width.bits)) := by
  have hlow := Int.le_bmod (x := n) (m := 2 ^ width.bits) (Nat.two_pow_pos _)
  have hhigh := Int.bmod_lt (x := n) (m := 2 ^ width.bits) (Nat.two_pow_pos _)
  unfold Width.Holds
  cases width <;> simp only [Width.bits] at hlow hhigh ⊢ <;> omega

/-- Reduction finds the number of the width that is congruent. -/
theorem reduce_eq_iff (width : Width) (n : Int) (r : Int64) :
    reduce width n = r ↔ width.Holds r.toInt ∧ r.toInt % 2 ^ width.bits = n % 2 ^ width.bits := by
  rw [← ofInt_eq_iff, ← Int64.toInt_inj, toInt_reduce]
  constructor
  · intro h
    refine ⟨h ▸ holds_bmod width n, ?_⟩
    rw [← h, ← BitVec.toInt_ofInt, BitVec.ofInt_toInt]
  · rintro ⟨hholds, hsame⟩
    rw [← BitVec.toInt_ofInt, ← hsame, toInt_ofInt_of_holds hholds]

/-- No distance is longer than the width. -/
theorem shiftDistance_lt (width : Width) (rhs : Int64) : shiftDistance width rhs < 64 := by
  unfold shiftDistance
  cases width <;> simp only [Width.bits] <;> omega

/-- The size of a 64-bit number. -/
theorem natAbs_toInt_le (n : Int64) : n.toInt.natAbs ≤ 2 ^ 63 := by
  have hlow := n.le_toInt
  have hhigh := n.toInt_lt
  omega

/-- The exact result of an operation on 64-bit numbers has at most twice as many bits. -/
theorem natAbs_exactResult_le (op : BinaryOp) (width : Width) (lhs rhs : Int64) :
    (exactResult op width lhs rhs).natAbs ≤ 2 ^ 126 := by
  have hl := natAbs_toInt_le lhs
  have hr := natAbs_toInt_le rhs
  have hpow : 2 ^ shiftDistance width rhs ≤ 2 ^ 63 :=
    Nat.pow_le_pow_right (by decide) (Nat.le_of_lt_succ (shiftDistance_lt width rhs))
  cases op with
  | add | sub | rsub => simp only [exactResult]; omega
  -- only a product and a shift to the left may need more than 64 bits
  | mul =>
    rw [exactResult, Int.natAbs_mul]
    exact Nat.le_trans (Nat.mul_le_mul hl hr) (by decide)
  | div =>
    have hquot := Int.natAbs_tdiv_le_natAbs lhs.toInt rhs.toInt
    simp only [exactResult]
    omega
  | rem =>
    have hrem := Nat.mod_le lhs.toInt.natAbs rhs.toInt.natAbs
    rw [exactResult, Int.natAbs_tmod]
    omega
  | and => exact Nat.le_trans (natAbs_toInt_le (lhs &&& rhs)) (by decide)
  | or => exact Nat.le_trans (natAbs_toInt_le (lhs ||| rhs)) (by decide)
  | xor => exact Nat.le_trans (natAbs_toInt_le (lhs ^^^ rhs)) (by decide)
  | shl =>
    rw [exactResult, Int.natAbs_mul, Int.natAbs_natCast, Nat.one_shiftLeft]
    exact Nat.le_trans (Nat.mul_le_mul hl hpow) (by decide)
  | shr =>
    have hquot := Int.natAbs_ediv_le_natAbs lhs.toInt (2 ^ shiftDistance width rhs : Nat)
    rw [exactResult, Int.shiftRight_eq_div_pow]
    omega
  -- what is shifted is a residue without sign
  | ushr =>
    have hquot := Nat.div_le_self (lhs.toInt % width.modulus).toNat (2 ^ shiftDistance width rhs)
    have hmod := Int.emod_lt_of_pos lhs.toInt (b := width.modulus) (by cases width <;> decide)
    have hmodulus : width.modulus ≤ 2 ^ 64 := by cases width <;> decide
    rw [exactResult, Int.natAbs_natCast, Nat.shiftRight_eq_div_pow]
    omega

/-! ## Evaluation -/

/-- The operations that divide. -/
theorem divides_iff (op : BinaryOp) : divides op = true ↔ op = .div ∨ op = .rem := by
  cases op <;> decide

/-- Without a division by zero the result is the exact one, reduced. -/
theorem evaluate_of_not (op : BinaryOp) (width : Width) (lhs : Int64)
    (h : ¬ ((op = .div ∨ op = .rem) ∧ rhs = 0)) :
    evaluate op width lhs rhs = .ok (reduce width (exactResult op width lhs rhs)) := by
  rw [evaluate, if_neg]
  simpa only [Bool.and_eq_true, divides_iff, beq_iff_eq] using h

/-- A division by zero fails. -/
theorem evaluate_of_zero (h : (op = .div ∨ op = .rem) ∧ rhs = 0) :
    evaluate op width lhs rhs = .error .divisionByZero := by
  rw [evaluate, if_pos]
  simpa only [Bool.and_eq_true, divides_iff, beq_iff_eq] using h

/-- The only failure is the division by zero. -/
theorem evaluate_eq_error_iff (e : Fault) :
    evaluate op width lhs rhs = .error e ↔
      e = .divisionByZero ∧ (op = .div ∨ op = .rem) ∧ rhs = 0 := by
  by_cases h : (op = .div ∨ op = .rem) ∧ rhs = 0
  · rw [evaluate_of_zero h]
    constructor
    · rintro ⟨⟩
      exact ⟨rfl, h⟩
    · rintro ⟨rfl, -⟩
      rfl
  · rw [evaluate_of_not op width lhs h]
    constructor
    · intro he
      cases he
    · rintro ⟨-, hzero⟩
      exact absurd hzero h

/-- The result is the number of the width that is congruent to the meaning. -/
theorem evaluate_eq_ok_iff (hlhs : width.Holds lhs.toInt) (r : Int64) :
    evaluate op width lhs rhs = .ok r ↔
      ¬ ((op = .div ∨ op = .rem) ∧ rhs = 0) ∧ width.Holds r.toInt ∧
        r.toInt % 2 ^ width.bits =
          op.meaning width.bits lhs.toInt rhs.toInt % 2 ^ width.bits := by
  by_cases h : (op = .div ∨ op = .rem) ∧ rhs = 0
  · rw [evaluate_of_zero h]
    constructor
    · intro he
      cases he
    · rintro ⟨hzero, -⟩
      exact absurd h hzero
  · rw [evaluate_of_not op width lhs h, Except.ok.injEq, reduce_eq_iff,
      (ofInt_eq_iff ..).1 (ofInt_exactResult op hlhs)]
    exact ⟨fun hr => ⟨h, hr⟩, fun hr => hr.2⟩

/-! ## Quotient and remainder -/

/-- A divisor other than zero is a number other than zero. -/
theorem toInt_ne_zero (h : rhs ≠ 0) : rhs.toInt ≠ 0 := fun hzero =>
  h (Int64.toInt_inj.1 hzero)

/-- A remainder is smaller than the divisor and has the sign of the dividend. -/
theorem tmod_bounds (a : Int) {b : Int} (hb : b ≠ 0) :
    (a.tmod b).natAbs < b.natAbs ∧ (0 ≤ a → 0 ≤ a.tmod b) ∧ (a ≤ 0 → a.tmod b ≤ 0) := by
  refine ⟨?_, Int.tmod_nonneg b, fun ha => ?_⟩
  · rw [Int.natAbs_tmod]
    exact Nat.mod_lt _ (by omega)
  -- the remainder of a negative number is that of its opposite, negated
  · have hneg := Int.tmod_nonneg b (Int.neg_nonneg_of_nonpos ha)
    rw [Int.neg_tmod] at hneg
    omega

/-- The remainder needs no reduction. -/
theorem toInt_of_evaluate_rem (hlhs : width.Holds lhs.toInt) (hzero : rhs ≠ 0) {r : Int64}
    (h : evaluate .rem width lhs rhs = .ok r) : r.toInt = lhs.toInt.tmod rhs.toInt := by
  rw [evaluate_of_not _ _ _ fun hdiv => hzero hdiv.2, Except.ok.injEq] at h
  -- the remainder lies between zero and the dividend
  have hholds : width.Holds (lhs.toInt.tmod rhs.toInt) := by
    obtain ⟨-, hpos, hneg⟩ := tmod_bounds lhs.toInt (toInt_ne_zero hzero)
    have hle := Nat.mod_le lhs.toInt.natAbs rhs.toInt.natAbs
    rw [← Int.natAbs_tmod] at hle
    unfold Width.Holds at hlhs ⊢
    omega
  rw [← h, toInt_reduce, exactResult, ← BitVec.toInt_ofInt, toInt_ofInt_of_holds hholds]

/-- The dividend is the quotient times the divisor and the remainder, up to a multiple of `2 ^ w`. -/
theorem quotient_mul_add_remainder (hlhs : width.Holds lhs.toInt) (hzero : rhs ≠ 0) {q r : Int64}
    (hq : evaluate .div width lhs rhs = .ok q) (hr : evaluate .rem width lhs rhs = .ok r) :
    (q.toInt * rhs.toInt + r.toInt) % 2 ^ width.bits = lhs.toInt % 2 ^ width.bits := by
  obtain ⟨-, -, hquot⟩ := (evaluate_eq_ok_iff hlhs q).1 hq
  rw [toInt_of_evaluate_rem hlhs hzero hr, Int.add_emod, Int.mul_emod, hquot, ← Int.mul_emod,
    ← Int.add_emod, BinaryOp.meaning, Int.tdiv_mul_add_tmod]

/-- Arithmetic is that of two's complement. Only a division by zero fails. Every other operation on numbers
of a width results in the one number of the width that is congruent to the meaning modulo `2 ^ w`; so the
quotient and the remainder make up the dividend, where the remainder is smaller than the divisor and has the
sign of the dividend. The exact result on the way is a number of 128 bits. The second number need not be of
the width. -/
theorem evaluate_twos_complement (op : BinaryOp) (width : Width) (lhs rhs : Int64)
    (hlhs : width.Holds lhs.toInt) :
    (∀ e, evaluate op width lhs rhs = .error e ↔
      e = .divisionByZero ∧ (op = .div ∨ op = .rem) ∧ rhs = 0) ∧
    (∀ r, evaluate op width lhs rhs = .ok r ↔
      ¬ ((op = .div ∨ op = .rem) ∧ rhs = 0) ∧ width.Holds r.toInt ∧
        r.toInt % 2 ^ width.bits =
          op.meaning width.bits lhs.toInt rhs.toInt % 2 ^ width.bits) ∧
    (rhs ≠ 0 → ∃ q r, evaluate .div width lhs rhs = .ok q ∧ evaluate .rem width lhs rhs = .ok r ∧
      (q.toInt * rhs.toInt + r.toInt) % 2 ^ width.bits = lhs.toInt % 2 ^ width.bits ∧
      r.toInt.natAbs < rhs.toInt.natAbs ∧ (0 ≤ lhs.toInt → 0 ≤ r.toInt) ∧
      (lhs.toInt ≤ 0 → r.toInt ≤ 0)) ∧
    -2 ^ 127 ≤ exactResult op width lhs rhs ∧ exactResult op width lhs rhs < 2 ^ 127 := by
  refine ⟨evaluate_eq_error_iff, evaluate_eq_ok_iff hlhs, fun hzero => ?_, ?_⟩
  · have hq := evaluate_of_not .div width lhs fun h => hzero h.2
    have hr := evaluate_of_not .rem width lhs fun h => hzero h.2
    refine ⟨_, _, hq, hr, quotient_mul_add_remainder hlhs hzero hq hr, ?_⟩
    rw [toInt_of_evaluate_rem hlhs hzero hr]
    exact tmod_bounds lhs.toInt (toInt_ne_zero hzero)
  · have habs := natAbs_exactResult_le op width lhs rhs
    omega

/-- The smallest number divided by `-1` is itself, without remainder; a distance of `-4` counts as 28. -/
theorem evaluate_twos_complement_smallest :
    Width.int.Holds (Int64.toInt (-0x80000000)) ∧
    evaluate .div .int (-0x80000000) (-1) = .ok (-0x80000000) ∧
    evaluate .rem .int (-0x80000000) (-1) = .ok 0 ∧
    evaluate .ushr .int (-0x80000000) (-4) = .ok 8 := by
  have hholds : Width.int.Holds (Int64.toInt (-0x80000000)) := by decide
  exact ⟨hholds, ((evaluate_twos_complement .div .int _ (-1) hholds).2.1 _).2 (by decide),
    ((evaluate_twos_complement .rem .int _ (-1) hholds).2.1 _).2 (by decide),
    ((evaluate_twos_complement .ushr .int _ (-4) hholds).2.1 _).2 (by decide)⟩

/-! ## Operands outside of the width

An operation may get numbers that the width has no room for. Of such a number the ring operations, the bitwise
ones and two of the shifts use only its residue. Quotient, remainder and the shift that keeps the sign use all
of it.
-/

/-- The operations that factor through the residues of their operands. -/
def modularOps : List BinaryOp :=
  [.add, .sub, .rsub, .mul, .and, .or, .xor, .shl, .ushr]

/-- Reducing a number to 32 bits is the conversion to a 32-bit number. -/
theorem reduce_int (n : Int64) : reduce .int n.toInt = n.toInt32.toInt64 := by
  apply Int64.toInt_inj.1
  rw [toInt_reduce, Int32.toInt_toInt64, Int64.toInt_toInt32]
  rfl

/-- A reduced number has the pattern that it had before. -/
theorem ofInt_toInt_reduce (width : Width) (n : Int) :
    BitVec.ofInt width.bits (reduce width n).toInt = BitVec.ofInt width.bits n := by
  rw [toInt_reduce, ← BitVec.toInt_ofInt, BitVec.ofInt_toInt]

/-- Numbers with the same pattern are the same distance. -/
theorem shiftDistance_congr {rhs' : Int64}
    (hrhs : BitVec.ofInt width.bits rhs'.toInt = BitVec.ofInt width.bits rhs.toInt) :
    shiftDistance width rhs' = shiftDistance width rhs := by
  -- the number of bits divides the modulus, so the residue tells the distance
  have hdvd : (width.bits : Int) ∣ 2 ^ width.bits := by cases width <;> decide
  have hmod := (ofInt_eq_iff ..).1 hrhs
  rw [shiftDistance, shiftDistance, ← Int.emod_emod_of_dvd _ hdvd, hmod, Int.emod_emod_of_dvd _ hdvd]

/-- Operands with the same patterns have results with the same pattern. -/
theorem ofInt_exactResult_congr {lhs' rhs' : Int64} (hop : op ∈ modularOps)
    (hlhs : BitVec.ofInt width.bits lhs'.toInt = BitVec.ofInt width.bits lhs.toInt)
    (hrhs : BitVec.ofInt width.bits rhs'.toInt = BitVec.ofInt width.bits rhs.toInt) :
    BitVec.ofInt width.bits (exactResult op width lhs' rhs') =
      BitVec.ofInt width.bits (exactResult op width lhs rhs) := by
  have hcut := ofInt_toInt_of_le width.bits_le
  have hl := (ofInt_eq_iff ..).1 hlhs
  have hr := (ofInt_eq_iff ..).1 hrhs
  have hdistance := shiftDistance_congr hrhs
  cases op with
  -- the ring operations are compared as residues
  | add =>
    rw [ofInt_eq_iff]
    show (lhs'.toInt + rhs'.toInt) % _ = (lhs.toInt + rhs.toInt) % _
    rw [Int.add_emod, hl, hr, ← Int.add_emod]
  | sub =>
    rw [ofInt_eq_iff]
    show (lhs'.toInt - rhs'.toInt) % _ = (lhs.toInt - rhs.toInt) % _
    rw [Int.sub_emod, hl, hr, ← Int.sub_emod]
  | rsub =>
    rw [ofInt_eq_iff]
    show (rhs'.toInt - lhs'.toInt) % _ = (rhs.toInt - lhs.toInt) % _
    rw [Int.sub_emod, hl, hr, ← Int.sub_emod]
  | mul =>
    rw [ofInt_eq_iff]
    show (lhs'.toInt * rhs'.toInt) % _ = (lhs.toInt * rhs.toInt) % _
    rw [Int.mul_emod, hl, hr, ← Int.mul_emod]
  | and =>
    -- cutting a pattern commutes with the operation on its bits
    simp only [exactResult, hcut] at hlhs hrhs ⊢
    rw [Int64.toBitVec_and, Int64.toBitVec_and, BitVec.setWidth_and, BitVec.setWidth_and, hlhs, hrhs]
  | or =>
    simp only [exactResult, hcut] at hlhs hrhs ⊢
    rw [Int64.toBitVec_or, Int64.toBitVec_or, BitVec.setWidth_or, BitVec.setWidth_or, hlhs, hrhs]
  | xor =>
    simp only [exactResult, hcut] at hlhs hrhs ⊢
    rw [Int64.toBitVec_xor, Int64.toBitVec_xor, BitVec.setWidth_xor, BitVec.setWidth_xor, hlhs, hrhs]
  | shl => rw [exactResult, exactResult, ofInt_shl, ofInt_shl, hlhs, hdistance]
  | ushr =>
    rw [exactResult, exactResult, Width.modulus_eq, ofInt_ushr, ofInt_ushr, hlhs, hdistance]
  -- these use more than the residues
  | div | rem | shr => exact absurd hop (by decide)

/-- Numbers with the same pattern are reduced to the same number. -/
theorem reduce_congr {a b : Int} (h : BitVec.ofInt width.bits a = BitVec.ofInt width.bits b) :
    reduce width a = reduce width b := by
  apply Int64.toInt_inj.1
  rw [toInt_reduce, toInt_reduce, ← BitVec.toInt_ofInt, h, BitVec.toInt_ofInt]

/-- The other operations do not fail. -/
theorem evaluate_modular (hop : op ∈ modularOps) (width : Width) (lhs rhs : Int64) :
    evaluate op width lhs rhs = .ok (reduce width (exactResult op width lhs rhs)) := by
  apply evaluate_of_not
  rintro ⟨rfl | rfl, -⟩ <;> exact absurd hop (by decide)

/-- The operands may be reduced before an operation that uses only their residues. -/
theorem evaluate_reduce (hop : op ∈ modularOps) (width : Width) (lhs rhs : Int64) :
    evaluate op width (reduce width lhs.toInt) (reduce width rhs.toInt) =
      evaluate op width lhs rhs := by
  have hsame := ofInt_exactResult_congr hop (ofInt_toInt_reduce width lhs.toInt)
    (ofInt_toInt_reduce width rhs.toInt)
  rw [evaluate_modular hop, evaluate_modular hop, reduce_congr hsame]

/-- A result is a number of the width, whatever the operands are. -/
theorem holds_of_evaluate {r : Int64} (h : evaluate op width lhs rhs = .ok r) :
    width.Holds r.toInt := by
  by_cases hzero : (op = .div ∨ op = .rem) ∧ rhs = 0
  · rw [evaluate_of_zero hzero] at h
    cases h
  · rw [evaluate_of_not op width lhs hzero, Except.ok.injEq] at h
    rw [← h, toInt_reduce]
    exact holds_bmod width _

/-- Reduction commutes with the ring operations, the bitwise ones, the left shift and the shift without sign,
and with no other: to reduce any operands to 32 bits first, which is their conversion to 32-bit numbers, does
not change the result. All results are in the range of their width. -/
theorem reduction_commutes (op : BinaryOp) :
    (∀ n : Int64, reduce .int n.toInt = n.toInt32.toInt64) ∧
    ((∀ lhs rhs : Int64, ∃ r, evaluate op .int lhs rhs = .ok r ∧
        evaluate op .int (reduce .int lhs.toInt) (reduce .int rhs.toInt) = .ok r) ↔
      op ∈ modularOps) ∧
    ∀ (width : Width) (lhs rhs r : Int64), evaluate op width lhs rhs = .ok r →
      width.Holds r.toInt := by
  refine ⟨reduce_int, ⟨fun hall => ?_, fun hop lhs rhs => ?_⟩, fun _ _ _ _ => holds_of_evaluate⟩
  · -- the residue of `2 ^ 32` is zero, and so is what the other operations make of zero
    obtain ⟨r, hr, hreduced⟩ := hall 0x100000000 3
    cases op with
    | div | rem | shr =>
      rw [evaluate_of_not _ _ _ (by decide), Except.ok.injEq] at hr hreduced
      exact absurd (hr.trans hreduced.symm) (by decide)
    | _ => decide
  · rw [evaluate_reduce hop]
    exact ⟨_, evaluate_modular hop .int lhs rhs, evaluate_modular hop .int lhs rhs⟩

/-- A logical shift of a number above the range by a negative distance, and a product at the end of the
range. -/
theorem reduction_commutes_large :
    (∃ r, evaluate .ushr .int 0x1f0000000 (-4) = .ok r ∧
      evaluate .ushr .int (reduce .int (Int64.toInt 0x1f0000000)) (reduce .int (Int64.toInt (-4))) =
        .ok r) ∧
    evaluate .mul .long (-0x8000000000000000) (-1) = .ok (-0x8000000000000000) ∧
    Width.long.Holds (Int64.toInt (-0x8000000000000000)) := by
  have hresult : evaluate .mul .long (-0x8000000000000000) (-1) = .ok (-0x8000000000000000) := by
    rw [evaluate_modular (by decide), Except.ok.injEq]
    decide
  exact ⟨(reduction_commutes .ushr).2.1.2 (by decide) 0x1f0000000 (-4), hresult,
    (reduction_commutes .mul).2.2 _ _ _ _ hresult⟩

end Machine

end Smali
