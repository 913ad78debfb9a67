/-!
# Powers and quotients of natural numbers

Bytes are digits in base 256, and numbers in double precision are shifted by powers of two. A quotient of natural numbers is rounded to
the nearest one, and its leading binary digit is the power of two below it, whose exponent may be negative (`BelowPower`). Main
statement: `floorLog2_spec`.
-/

namespace SealedLedger

-- powers are the core library's, whatever other powers are in sight
attribute [instance (high), default_instance 20000] instPowNat

/-! ## Rounding -/

/-- The quotient rounded to the nearest natural number, a half to the even neighbour. -/
def roundQuotient (numerator denominator : Nat) : Nat :=
  let quotient := numerator / denominator
  let rest := 2 * (numerator % denominator)
  if denominator < rest ∨ (rest = denominator ∧ quotient % 2 = 1) then quotient + 1 else quotient

/-- A rounded quotient is the exact one or the next natural number. -/
theorem roundQuotient_bounds (numerator denominator : Nat) :
    numerator / denominator ≤ roundQuotient numerator denominator ∧
      roundQuotient numerator denominator ≤ numerator / denominator + 1 := by
  unfold roundQuotient
  dsimp only
  split <;> omega

/-- A quotient without a rest is not changed by rounding. -/
theorem roundQuotient_mul (n : Nat) {denominator : Nat} (h : 0 < denominator) :
    roundQuotient (n * denominator) denominator = n := by
  unfold roundQuotient
  simp only [Nat.mul_div_cancel _ h, Nat.mul_mod_left]
  split <;> omega

variable {numerator denominator : Nat}

/-- A rounded quotient lies between whole bounds of the exact one. -/
theorem roundQuotient_mem {low high : Nat} (positive : 0 < denominator) (above : low * denominator ≤ numerator)
    (below : numerator < high * denominator) :
    low ≤ roundQuotient numerator denominator ∧ roundQuotient numerator denominator ≤ high := by
  have bounds := roundQuotient_bounds numerator denominator
  have least := (Nat.le_div_iff_mul_le positive).2 above
  have greatest := (Nat.div_lt_iff_lt_mul positive).2 below
  omega

/-! ## The leading digit of a quotient -/

/-- The greatest `k` with `2 ^ k * denominator ≤ numerator`, for positive numbers. -/
def floorLog2 (numerator denominator : Nat) : Int :=
  let k : Int := (numerator.log2 : Int) - denominator.log2
  if 2 ^ k.toNat * denominator ≤ numerator * 2 ^ (-k).toNat then k else k - 1

/-- A quotient of natural numbers is below a power of two, whose exponent may be negative. -/
def BelowPower (numerator denominator : Nat) (k : Int) : Prop :=
  numerator * 2 ^ (-k).toNat < 2 ^ k.toNat * denominator

/-- The exponent may be any difference of natural numbers that comes to the same. -/
theorem belowPower_iff {k : Int} (up down : Nat) (difference : k = up - down) :
    BelowPower numerator denominator k ↔ numerator * 2 ^ down < 2 ^ up * denominator := by
  obtain ⟨common, rfl, rfl⟩ : ∃ common, up = k.toNat + common ∧ down = (-k).toNat + common :=
    ⟨min up down, by omega, by omega⟩
  rw [BelowPower, Nat.pow_add, Nat.pow_add, ← Nat.mul_assoc, Nat.mul_right_comm (2 ^ k.toNat),
    Nat.mul_lt_mul_right (Nat.two_pow_pos _)]

theorem BelowPower.mono {k l : Int} (below : BelowPower numerator denominator k) (le : k ≤ l) :
    BelowPower numerator denominator l := by
  obtain ⟨up, rfl⟩ : ∃ up : Nat, l = k + up := ⟨(l - k).toNat, by omega⟩
  have difference : k + up = ((k.toNat + up : Nat) : Int) - (-k).toNat := by omega
  refine (belowPower_iff _ _ difference).2 (Nat.lt_of_lt_of_le below (Nat.mul_le_mul_right _ ?_))
  exact Nat.pow_le_pow_right (by decide) (Nat.le_add_right _ _)

/-- Shifting by an exponent moves the powers of two that a quotient is below. -/
theorem scaled_lt_iff (exponent : Int) (bits : Nat) :
    numerator * 2 ^ (-exponent).toNat < 2 ^ bits * (denominator * 2 ^ exponent.toNat) ↔
      BelowPower numerator denominator (exponent + bits) := by
  rw [belowPower_iff (bits + exponent.toNat) (-exponent).toNat (by omega), Nat.pow_add, Nat.mul_right_comm, Nat.mul_assoc]

/-- A quotient lies between two powers of two, one after the other. -/
theorem floorLog2_spec (positive : numerator ≠ 0) (proper : denominator ≠ 0) :
    ¬BelowPower numerator denominator (floorLog2 numerator denominator) ∧
      BelowPower numerator denominator (floorLog2 numerator denominator + 1) := by
  have above : BelowPower numerator denominator (numerator.log2 - denominator.log2 + 1) := by
    refine (belowPower_iff (numerator.log2 + 1) denominator.log2 (by omega)).2 ?_
    exact Nat.mul_lt_mul_of_lt_of_le Nat.lt_log2_self (Nat.log2_self_le proper) (Nat.pos_of_ne_zero proper)
  have beneath : ¬BelowPower numerator denominator (numerator.log2 - denominator.log2 - 1) := by
    rw [belowPower_iff numerator.log2 (denominator.log2 + 1) (by omega)]
    exact Nat.not_lt.2 (Nat.mul_le_mul (Nat.log2_self_le positive) (Nat.le_of_lt Nat.lt_log2_self))
  unfold floorLog2
  dsimp only
  split
  · next fits => exact ⟨Nat.not_lt.2 fits, above⟩
  · next misfits =>
    refine ⟨beneath, ?_⟩
    rw [Int.sub_add_cancel]
    exact Nat.lt_of_not_le misfits

end SealedLedger
