import Mathlib.Tactic.ByContra
import SealedLedger.Binary64

/-!
# Whole numbers in double precision

A whole number is exact in double precision if it is a significand of 53 bits, shifted. A number in double precision without its
fraction is such a whole number, so turning it into a 64-bit integer loses nothing that turning the integer back could miss; only
the greatest 64-bit integer is not exact, and it comes back from the number above it because that one is out of range. Main
statement: `Binary64.kept_toInt64`.
-/

namespace SealedLedger

namespace Binary64

/-- A natural number is a significand of 53 bits, shifted. -/
def Exact (n : Nat) : Prop :=
  ∃ significand shift : Nat, significand < 2 ^ 53 ∧ n = significand * 2 ^ shift

/-- The whole part of a number with a short significand is exact. -/
theorem exact_wholeMagnitude {significand : Nat} (short : significand < 2 ^ 53) (exponent : Int) :
    Exact (wholeMagnitude significand exponent) := by
  rcases Int.le_total 0 exponent with h | h
  · refine ⟨significand, exponent.toNat, short, ?_⟩
    have none : (-exponent).toNat = 0 := by omega
    rw [wholeMagnitude, none, Nat.pow_zero, Nat.div_one]
  · refine ⟨wholeMagnitude significand exponent, 0, ?_, (Nat.mul_one _).symm⟩
    have none : exponent.toNat = 0 := by omega
    rw [wholeMagnitude, none, Nat.pow_zero, Nat.mul_one]
    exact Nat.lt_of_le_of_lt (Nat.div_le_self _ _) short

theorem floorLog2_one {n : Nat} (positive : n ≠ 0) : floorLog2 n 1 = n.log2 := by
  have low := Nat.log2_self_le positive
  have difference : (n.log2 : Int) - (Nat.log2 1 : Nat) = n.log2 := Int.sub_zero _
  have shifts : (n.log2 : Int).toNat = n.log2 ∧ (-(n.log2 : Int)).toNat = 0 := by omega
  simp only [floorLog2, difference, shifts, Nat.pow_zero, Nat.mul_one, if_pos low]

/-- The leading 53 bits of an exact number are all of it. -/
theorem Exact.leading {n : Nat} (exact : Exact n) (positive : n ≠ 0) :
    ∃ significand < 2 ^ 53, n * 2 ^ (52 - n.log2) = significand * 2 ^ (n.log2 - 52) := by
  have low := Nat.log2_self_le positive
  have high : n < 2 ^ (n.log2 + 1) := Nat.lt_log2_self
  rcases Nat.le_total n.log2 52 with small | large
  · refine ⟨n * 2 ^ (52 - n.log2), ?_, by rw [Nat.sub_eq_zero_of_le small, Nat.pow_zero, Nat.mul_one]⟩
    calc n * 2 ^ (52 - n.log2) < 2 ^ (n.log2 + 1) * 2 ^ (52 - n.log2) := Nat.mul_lt_mul_of_pos_right high (Nat.two_pow_pos _)
      _ = 2 ^ 53 := by rw [← Nat.pow_add]; congr 1; omega
  · obtain ⟨significand, shift, short, written⟩ := exact
    have enough : n.log2 - 52 ≤ shift := by
      by_contra few
      have : n < 2 ^ n.log2 :=
        calc n = significand * 2 ^ shift := written
          _ < 2 ^ 53 * 2 ^ shift := Nat.mul_lt_mul_of_pos_right short (Nat.two_pow_pos _)
          _ = 2 ^ (53 + shift) := (Nat.pow_add ..).symm
          _ ≤ 2 ^ n.log2 := Nat.pow_le_pow_right (by decide) (by omega)
      omega
    have whole : n = significand * 2 ^ (shift - (n.log2 - 52)) * 2 ^ (n.log2 - 52) := by
      rw [Nat.mul_assoc, ← Nat.pow_add, Nat.sub_add_cancel enough, written]
    refine ⟨significand * 2 ^ (shift - (n.log2 - 52)), ?_, ?_⟩
    · refine Nat.lt_of_mul_lt_mul_right (a := 2 ^ (n.log2 - 52)) ?_
      rw [← whole, ← Nat.pow_add]
      exact Nat.lt_of_lt_of_eq high (congrArg _ (by omega))
    · rw [Nat.sub_eq_zero_of_le large, Nat.pow_zero, Nat.mul_one, ← whole]

/-- An exact number is rounded to its leading 53 bits, which are all of it. -/
theorem Exact.rounded_one {n : Nat} (exact : Exact n) (positive : n ≠ 0) :
    ∃ significand, rounded n 1 = (significand, (n.log2 : Int) - 52) ∧ wholeMagnitude significand ((n.log2 : Int) - 52) = n := by
  obtain ⟨significand, short, leading⟩ := exact.leading positive
  have exponent : max (floorLog2 n 1 - 52) leastExponent = (n.log2 : Int) - 52 := by
    rw [floorLog2_one positive, leastExponent]
    omega
  have up : ((n.log2 : Int) - 52).toNat = n.log2 - 52 := by omega
  have down : (-((n.log2 : Int) - 52)).toNat = 52 - n.log2 := by omega
  have nearest : roundQuotient (n * 2 ^ (52 - n.log2)) (1 * 2 ^ (n.log2 - 52)) = significand := by
    rw [leading, Nat.one_mul, roundQuotient_mul _ (Nat.two_pow_pos _)]
  refine ⟨significand, ?_, ?_⟩
  · simp only [rounded, exponent, up, down, nearest, if_neg (Nat.ne_of_lt short)]
  · rw [wholeMagnitude, up, down, ← leading, Nat.mul_div_cancel _ (Nat.two_pow_pos _)]

/-- An exact number in range is kept as it is. -/
theorem Exact.ofRatio_one {n : Nat} (exact : Exact n) (positive : n ≠ 0) (bounded : n < 2 ^ 1024) (negative : Bool) :
    ∃ significand exponent form, ofRatio negative n 1 = finite negative significand exponent form ∧
      wholeMagnitude significand exponent = n := by
  obtain ⟨significand, nearest, whole⟩ := exact.rounded_one positive
  have room : n.log2 < 1024 := (Nat.log2_lt positive).2 bounded
  have fits : (rounded n 1).2 ≤ greatestExponent := by
    rw [nearest, greatestExponent]
    omega
  refine ⟨(rounded n 1).1, (rounded n 1).2, rounded_spec positive Nat.one_ne_zero fits, ?_, ?_⟩
  · rw [ofRatio, dif_pos ⟨positive, Nat.one_ne_zero⟩, dif_pos fits]
  · rw [nearest, whole]

/-! ## 64-bit integers -/

/-- An integer as a 64-bit integer, or the nearest of these. -/
def clampToInt64 (n : Int) : Int64 :=
  Int64.ofInt (max Int64.minValue.toInt (min Int64.maxValue.toInt n))

theorem clampToInt64_of_lt {n : Int} (below : n < -2 ^ 63) : clampToInt64 n = Int64.minValue := by
  rw [clampToInt64, Int64.toInt_minValue, Int64.toInt_maxValue, Int.min_eq_right (by omega), Int.max_eq_left (by omega)]
  rfl

theorem clampToInt64_of_mem {n : Int} (low : -2 ^ 63 ≤ n) (high : n < 2 ^ 63) : clampToInt64 n = Int64.ofInt n := by
  rw [clampToInt64, Int64.toInt_minValue, Int64.toInt_maxValue, Int.min_eq_right (by omega), Int.max_eq_right low]

theorem clampToInt64_of_le {n : Int} (above : 2 ^ 63 ≤ n) : clampToInt64 n = Int64.maxValue := by
  rw [clampToInt64, Int64.toInt_minValue, Int64.toInt_maxValue, Int.min_eq_left (by omega), Int.max_eq_right (by omega)]
  rfl

theorem signed_natAbs (n : Int) : (if decide (n < 0) then -(n.natAbs : Int) else n.natAbs) = n := by
  by_cases negative : n < 0
  · rw [decide_eq_true negative, if_pos rfl]
    omega
  · rw [decide_eq_false negative, if_neg Bool.false_ne_true]
    omega

/-- An integer that is exact in double precision comes back from it. -/
theorem toInt64_ofInt {n : Int} (exact : Exact n.natAbs) (bounded : n.natAbs < 2 ^ 1024) :
    (ofInt n).toInt64 = clampToInt64 n := by
  by_cases zero : n = 0
  · subst zero
    decide +kernel
  · obtain ⟨significand, exponent, form, kept, whole⟩ := exact.ofRatio_one (by omega) bounded (n < 0)
    rw [ofInt, kept, toInt64, whole]
    exact congrArg clampToInt64 (signed_natAbs n)

/-- A 64-bit integer comes back from double precision. -/
def Kept (n : Int64) : Prop :=
  (ofInt n.toInt).toInt64 = n

theorem kept_minValue : Kept Int64.minValue := by
  unfold Kept
  decide +kernel

/-- The greatest 64-bit integer is rounded up, out of range, and comes back as the nearest. -/
theorem kept_maxValue : Kept Int64.maxValue := by
  unfold Kept
  decide +kernel

theorem kept_clampToInt64 {n : Int} (exact : Exact n.natAbs) : Kept (clampToInt64 n) := by
  rcases Int.lt_or_le n (-2 ^ 63) with below | low
  · rw [clampToInt64_of_lt below]
    exact kept_minValue
  rcases Int.lt_or_le n (2 ^ 63) with high | above
  · have inside := clampToInt64_of_mem low high
    rw [Kept, inside, Int64.toInt_ofInt_of_le low high, toInt64_ofInt exact (by omega), inside]
  · rw [clampToInt64_of_le above]
    exact kept_maxValue

/-- A number without its fraction, cut to the range of 64-bit integers, comes back from double precision. -/
theorem kept_toInt64 (x : Binary64) : Kept x.toInt64 := by
  cases x with
  | nan =>
    unfold Kept
    decide +kernel
  | infinity negative =>
    cases negative
    · exact kept_maxValue
    · exact kept_minValue
  | finite negative significand exponent form =>
    refine kept_clampToInt64 ?_
    have magnitude : ∀ n : Nat, (if negative then -(n : Int) else n).natAbs = n := by
      intro n
      split <;> omega
    rw [magnitude]
    exact exact_wholeMagnitude form.short exponent

/-- No number in double precision is the integer after `2 ^ 53`, and it does not come back. -/
example : ¬Kept 9007199254740993 := by
  unfold Kept
  decide +kernel

end Binary64

end SealedLedger
