import SealedLedger.Natural

/-!
# Numbers in double precision

A finite number is a sign, a significand below `2 ^ 53` and an exponent of two, kept in the one form in which the significand is
at least `2 ^ 52` or the exponent is the least, `-1074`; the form is part of the number. Every exact result is rounded once, to the
nearest number, and of two equally near ones to the one with the even significand. The exponent is chosen by the leading digit of the
exact result, so what is rounded is in the form, also where rounding carries over to the next power of two (`Binary64.rounded_spec`).
Zero has a sign of its own.
-/

namespace SealedLedger

namespace Binary64

/-- The exponent of the least positive number. -/
def leastExponent : Int := -1074

/-- The greatest exponent of a finite number. -/
def greatestExponent : Int := 971

/-- The form in which a significand and an exponent are kept. -/
structure InForm (significand : Nat) (exponent : Int) : Prop where
  short : significand < 2 ^ 53
  normal : 2 ^ 52 ≤ significand ∨ exponent = leastExponent
  least : leastExponent ≤ exponent
  greatest : exponent ≤ greatestExponent

end Binary64

/-- A number in double precision. -/
inductive Binary64 where
  | nan
  | infinity (negative : Bool)
  /-- The number `significand * 2 ^ exponent`, with its sign. -/
  | finite (negative : Bool) (significand : Nat) (exponent : Int) (form : Binary64.InForm significand exponent)
  deriving DecidableEq, Inhabited

namespace Binary64

/-- Zero, with its sign. -/
def zero (negative : Bool) : Binary64 :=
  .finite negative 0 leastExponent ⟨by decide, .inr rfl, by decide, by decide⟩

/-! ## Rounding -/

/-- The significand and the exponent nearest to a quotient of natural numbers, where no exponent is too great. Rounding up may reach the
next power of two, which the next exponent has room for. -/
def rounded (numerator denominator : Nat) : Nat × Int :=
  let exponent := max (floorLog2 numerator denominator - 52) leastExponent
  let significand := roundQuotient (numerator * 2 ^ (-exponent).toNat) (denominator * 2 ^ exponent.toNat)
  if significand = 2 ^ 53 then (2 ^ 52, exponent + 1) else (significand, exponent)

/-- The exponent that is chosen leaves 53 bits of a quotient before rounding, and fewer only where it is the least. -/
theorem roundQuotient_scaled {numerator denominator : Nat} (positive : numerator ≠ 0) (proper : denominator ≠ 0) :
    let exponent := max (floorLog2 numerator denominator - 52) leastExponent
    let significand := roundQuotient (numerator * 2 ^ (-exponent).toNat) (denominator * 2 ^ exponent.toNat)
    significand ≤ 2 ^ 53 ∧ (2 ^ 52 ≤ significand ∨ exponent = leastExponent) := by
  intro exponent significand
  obtain ⟨beneath, above⟩ := floorLog2_spec positive proper
  have scale : 0 < denominator * 2 ^ exponent.toNat := Nat.mul_pos (Nat.pos_of_ne_zero proper) (Nat.two_pow_pos _)
  have below := (scaled_lt_iff exponent 53).2 (above.mono (by omega))
  refine ⟨(roundQuotient_mem scale (Nat.zero_mul _ ▸ Nat.zero_le _) below).2, ?_⟩
  by_cases least : exponent = leastExponent
  · exact .inr least
  · have chosen : exponent + (52 : Nat) = floorLog2 numerator denominator := by omega
    have full := mt (scaled_lt_iff exponent 52).1 (chosen ▸ beneath)
    exact .inl (roundQuotient_mem scale (Nat.not_lt.1 full) below).1

/-- What is rounded is in the form, up to the greatest exponent. -/
theorem rounded_spec {numerator denominator : Nat} (positive : numerator ≠ 0) (proper : denominator ≠ 0)
    (fits : (rounded numerator denominator).2 ≤ greatestExponent) :
    InForm (rounded numerator denominator).1 (rounded numerator denominator).2 := by
  obtain ⟨short, normal⟩ := roundQuotient_scaled positive proper
  have least : leastExponent ≤ max (floorLog2 numerator denominator - 52) leastExponent := Int.le_max_right ..
  unfold rounded at fits ⊢
  dsimp only at fits ⊢
  split
  · next carried =>
    have room : 2 ^ 52 < 2 ^ 53 := by decide
    rw [if_pos carried] at fits
    exact ⟨room, .inl (Nat.le_refl _), Int.le_trans least (Int.le_of_lt (Int.lt_succ _)), fits⟩
  · next inside =>
    rw [if_neg inside] at fits
    exact ⟨Nat.lt_of_le_of_ne short inside, normal, least, fits⟩

/-- The number nearest to a quotient of natural numbers, with a sign; a quotient by zero is zero. -/
def ofRatio (negative : Bool) (numerator denominator : Nat) : Binary64 :=
  if positive : numerator ≠ 0 ∧ denominator ≠ 0 then
    if fits : (rounded numerator denominator).2 ≤ greatestExponent then
      .finite negative (rounded numerator denominator).1 (rounded numerator denominator).2
        (rounded_spec positive.1 positive.2 fits)
    else .infinity negative
  else zero negative

/-- The number nearest to `significand * 2 ^ exponent`, with a sign. -/
def ofScaled (negative : Bool) (significand : Nat) (exponent : Int) : Binary64 :=
  ofRatio negative (significand * 2 ^ exponent.toNat) (2 ^ (-exponent).toNat)

/-- The number nearest to an integer; zero is positive. -/
def ofInt (n : Int) : Binary64 :=
  ofRatio (n < 0) n.natAbs 1

/-- The number with the other sign. -/
def neg : Binary64 → Binary64
  | nan => nan
  | infinity negative => infinity (!negative)
  | finite negative significand exponent form => finite (!negative) significand exponent form

/-- Whether the number is one of the two zeros. -/
def isZero : Binary64 → Bool
  | finite _ significand _ _ => significand = 0
  | _ => false

/-- The product. -/
def mul : Binary64 → Binary64 → Binary64
  | nan, _ | _, nan => nan
  | infinity a, infinity b => infinity (a != b)
  | infinity a, finite b m _ _ => if m = 0 then nan else infinity (a != b)
  | finite a m _ _, infinity b => if m = 0 then nan else infinity (a != b)
  | finite a m e _, finite b n f _ => ofScaled (a != b) (m * n) (e + f)

/-- The quotient. -/
def div : Binary64 → Binary64 → Binary64
  | nan, _ | _, nan => nan
  | infinity _, infinity _ => nan
  | infinity a, finite b _ _ _ => infinity (a != b)
  | finite a _ _ _, infinity b => zero (a != b)
  | finite a m e _, finite b n f _ =>
    if n = 0 then if m = 0 then nan else infinity (a != b)
    else ofRatio (a != b) (m * 2 ^ (e - f).toNat) (n * 2 ^ (f - e).toNat)

/-- The whole part of the absolute value of a finite number. -/
def wholeMagnitude (significand : Nat) (exponent : Int) : Nat :=
  significand * 2 ^ exponent.toNat / 2 ^ (-exponent).toNat

/-- The number without its fraction as a 64-bit integer, or the nearest of these where it is out of their range; not-a-number
becomes zero. -/
def toInt64 : Binary64 → Int64
  | nan => 0
  | infinity negative => if negative then Int64.minValue else Int64.maxValue
  | finite negative significand exponent _ =>
    let magnitude : Int := wholeMagnitude significand exponent
    let whole := if negative then -magnitude else magnitude
    Int64.ofInt (max Int64.minValue.toInt (min Int64.maxValue.toInt whole))

end Binary64

end SealedLedger
