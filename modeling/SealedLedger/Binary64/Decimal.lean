import SealedLedger.Binary64

/-!
# Decimal forms of numbers in double precision

Two forms are written: the exact value rounded to a fixed number of places, and the shortest digits that read back as the same
number. For the shortest form the decimal grids are tried from the coarsest on: the first grid with a point that rounds to the
number wins, and of two such points the nearer.
-/

namespace SealedLedger.Binary64

/-- The sign before a written number. -/
def signText (negative : Bool) : String :=
  if negative then "-" else ""

/-- The decimal digits of a natural number, with leading zeros up to a width. -/
def paddedDigits (width n : Nat) : List Char :=
  let digits := Nat.toDigits 10 n
  List.replicate (width - digits.length) '0' ++ digits

/-- The exact value rounded to `places` digits after the point, a half to the even neighbour. -/
def fixed (places : Nat) : Binary64 → String
  | nan => "NaN"
  | infinity negative => signText negative ++ "inf"
  | finite negative significand exponent _ =>
    let scaled := roundQuotient (significand * 2 ^ exponent.toNat * 10 ^ places) (2 ^ (-exponent).toNat)
    let digits := paddedDigits (places + 1) scaled
    let whole := digits.length - places
    signText negative ++ String.ofList (digits.take whole) ++ "." ++ String.ofList (digits.drop whole)

/-! ## Shortest digits -/

/-- The real numbers that round to one positive number, as multiples of `1 / denominator`. -/
structure Interval where
  low : Nat
  middle : Nat
  high : Nat
  denominator : Nat
  /-- Whether the two ends belong to the interval. -/
  closed : Bool

/-- The interval around `significand * 2 ^ exponent`: it reaches half way to the neighbours, and its ends, which are ties, belong
to it if the significand is even. Below a power of two the neighbour is half as far. -/
def Interval.around (significand : Nat) (exponent : Int) : Interval :=
  let unit := 2 ^ (exponent - 2).toNat
  let below := if significand = 2 ^ 52 ∧ leastExponent < exponent then 1 else 2
  { low := (4 * significand - below) * unit
    middle := 4 * significand * unit
    high := (4 * significand + 2) * unit
    denominator := 2 ^ (2 - exponent).toNat
    closed := significand % 2 = 0 }

/-- Whether the decimal `digits * 10 ^ power` lies in the interval. -/
def Interval.contains (i : Interval) (digits : Nat) (power : Int) : Bool :=
  let point := digits * 10 ^ power.toNat * i.denominator
  let scale := 10 ^ (-power).toNat
  if i.closed then i.low * scale ≤ point && point ≤ i.high * scale
  else i.low * scale < point && point < i.high * scale

/-- The greatest `k` with `10 ^ k * denominator ≤ numerator`, for positive numbers. -/
def floorLog10 (numerator denominator : Nat) : Int :=
  let k : Int := ((Nat.toDigits 10 numerator).length : Int) - (Nat.toDigits 10 denominator).length
  if 10 ^ k.toNat * denominator ≤ numerator * 10 ^ (-k).toNat then k else k - 1

/-- The multiple of `10 ^ power` nearest to the middle among its two neighbours that lie in the interval. -/
def Interval.nearestOn? (i : Interval) (power : Int) : Option Nat :=
  let numerator := i.middle * 10 ^ (-power).toNat
  let denominator := i.denominator * 10 ^ power.toNat
  let nearest := roundQuotient numerator denominator
  if i.contains nearest power then some nearest
  else
    let floor := numerator / denominator
    [floor, floor + 1].find? fun digits => i.contains digits power

/-- The shortest decimal in the interval, as digits and a power of ten: grids from the leading digit's on, at most `fuel` of
them. -/
def Interval.shortest (i : Interval) : Nat → Int → Nat × Int
  | 0, power => (i.middle / i.denominator, power)
  | fuel + 1, power =>
    match i.nearestOn? power with
    | some digits => (digits, power)
    | none => i.shortest fuel (power - 1)

/-- The digits without trailing zeros, and the power of ten that makes up for them. -/
def dropZeros (digits : List Char) (power : Int) : List Char × Int :=
  let kept := (digits.reverse.dropWhile (· = '0')).reverse
  (kept, power + (digits.length - kept.length : Nat))

/-- The shortest decimal digits that round to a positive number, and the power of ten of the last one. Seventeen digits always
suffice. -/
def shortestDigits (significand : Nat) (exponent : Int) : List Char × Int :=
  let i := Interval.around significand exponent
  let (digits, power) := i.shortest 17 (floorLog10 i.middle i.denominator)
  dropZeros (Nat.toDigits 10 digits) power

/-- The layout of digits and a power of ten: positional, with at least one digit on each side of the point, if the leading digit
stands for `10 ^ -5` to `10 ^ 15`; otherwise with an exponent, which always has a sign. -/
def layout (digits : List Char) (power : Int) : String :=
  let point : Int := digits.length + power
  if 0 ≤ power ∧ point ≤ 16 then String.ofList (digits ++ List.replicate power.toNat '0') ++ ".0"
  else if 0 < point ∧ point ≤ 16 then
    String.ofList (digits.take point.toNat) ++ "." ++ String.ofList (digits.drop point.toNat)
  else if -5 < point ∧ point ≤ 0 then "0." ++ String.ofList (List.replicate (-point).toNat '0' ++ digits)
  else
    let fraction := if digits.length ≤ 1 then "" else "." ++ String.ofList (digits.drop 1)
    let exponent := point - 1
    String.ofList (digits.take 1) ++ fraction ++ (if 0 ≤ exponent then "e+" else "e-") ++ toString exponent.natAbs

/-- The shortest text that reads back as the number. -/
def shortest : Binary64 → String
  | nan => "NaN"
  | infinity negative => signText negative ++ "inf"
  | finite negative significand exponent _ =>
    if significand = 0 then signText negative ++ "0.0"
    else
      let (digits, power) := shortestDigits significand exponent
      signText negative ++ layout digits power

end SealedLedger.Binary64
