import SealedLedger.Json.Error

/-!
# Numbers in JSON

A number read as an integer is exact if it fits 64 bits, with or without a sign; every other number becomes one in double
precision. For these the digits are gathered into a natural number as long as it stays below `2 ^ 64`, later digits only count,
and the gathered number is rounded before it is scaled by a power of ten. A number that is skipped is only checked for its form.
-/

namespace SealedLedger.Json

/-! ## Writing -/

/-- A written number: a sign, a whole part, digits after the point and an exponent, of which the last two may be absent. -/
structure Numeral where
  negative : Bool := false
  whole : Nat
  fraction : List (Fin 10) := []
  exponent : Option Int := none
  deriving DecidableEq

/-- The numeral of an integer. -/
def Numeral.ofInt (n : Int) : Numeral where
  negative := n < 0
  whole := n.natAbs

/-- The text of a numeral. -/
def Numeral.chars (n : Numeral) : List Char :=
  let sign := if n.negative then ['-'] else []
  let fraction := if n.fraction.isEmpty then [] else '.' :: n.fraction.map fun d => Nat.digitChar d.val
  let exponent :=
    match n.exponent with
    | none => []
    | some e => 'e' :: (if e < 0 then ['-'] else []) ++ Nat.toDigits 10 e.natAbs
  sign ++ Nat.toDigits 10 n.whole ++ fraction ++ exponent

/-! ## Reading -/

/-- The value of a decimal digit. -/
def digitValue (c : Char) : Nat :=
  c.toNat - '0'.toNat

/-- Digits appended to a number as long as it stays below `2 ^ 64`: the number, how many digits were taken, and what is left. -/
def gather (n taken : Nat) : List Char → Nat × Nat × List Char
  | [] => (n, taken, [])
  | c :: rest =>
    if c.isDigit ∧ 10 * n + digitValue c < 2 ^ 64 then gather (10 * n + digitValue c) (taken + 1) rest
    else (n, taken, c :: rest)

/-- The error at a place where a digit is wanted and none stands. -/
def digitMissing : List Char → Error
  | [] => .endInValue
  | _ => .invalidNumber

/-- The text starts with a digit. -/
def startsWithDigit : List Char → Bool
  | [] => false
  | c :: _ => c.isDigit

/-- A sign in front of an exponent's digits: whether it is a minus, and the text after it. -/
def exponentSign : List Char → Bool × List Char
  | '+' :: rest => (false, rest)
  | '-' :: rest => (true, rest)
  | text => (false, text)

/-- The exponent after its letter, and the text after it. -/
def readExponent (text : List Char) : Except Error (Int × List Char) :=
  let (negative, text) := exponentSign text
  if startsWithDigit text then
    let n : Int := (text.takeWhile Char.isDigit).foldl (fun n c => 10 * n + digitValue c) 0
    .ok (if negative then -n else n, text.dropWhile Char.isDigit)
  else .error (digitMissing text)

/-- A number times a power of ten: one multiplication or division by a power up to `10 ^ 308`, after as many divisions by
`10 ^ 308` as it takes. -/
def scaleByTen (x : Binary64) (power : Int) : Except Error Binary64 :=
  if 308 < power then if x.isZero then .ok x else .error .numberOutOfRange
  else if 0 ≤ power then
    match x.mul (Binary64.ofInt (10 ^ power.toNat)) with
    | .infinity _ => .error .numberOutOfRange
    | y => .ok y
  else if -308 ≤ power then .ok (x.div (Binary64.ofInt (10 ^ (-power).toNat)))
  else if x.isZero then .ok x
  else scaleByTen (x.div (Binary64.ofInt (10 ^ 308))) (power + 308)
termination_by (-power).toNat
decreasing_by omega

/-- The number that gathered digits and a power of ten stand for. -/
def floatToken (negative : Bool) (n : Nat) (power : Int) : Except Error Token := do
  let x ← scaleByTen (Binary64.ofInt n) power
  return .float (if negative then x.neg else x)

/-- What follows the digits of a number in double precision: perhaps an exponent. -/
def finishFloat (negative : Bool) (n : Nat) (power : Int) : List Char → Except Error (Token × List Char)
  | [] => do return (← floatToken negative n power, [])
  | c :: rest =>
    if c = 'e' ∨ c = 'E' then do
      let (exponent, rest) ← readExponent rest
      return (← floatToken negative n (power + exponent), rest)
    else do return (← floatToken negative n power, c :: rest)

/-- The token of gathered digits that nothing follows: an integer if it fits, negative zero and numbers below the least integer
in double precision. -/
def integerToken (negative : Bool) (n : Nat) : Token :=
  if !negative then .integer n
  else if n = 0 ∨ 2 ^ 63 < n then .float (Binary64.ofInt n).neg
  else .integer (-n)

/-- What follows the whole part of a number, of which `dropped` digits were not gathered. -/
def finishNumber (negative : Bool) (n dropped : Nat) : List Char → Except Error (Token × List Char)
  | [] => if dropped = 0 then .ok (integerToken negative n, []) else finishFloat negative n dropped []
  | c :: rest =>
    if c = '.' then
      let (m, taken, after) := gather n 0 rest
      if startsWithDigit rest then finishFloat negative m ((dropped : Int) - taken) (after.dropWhile Char.isDigit)
      else .error (digitMissing rest)
    else if c = 'e' ∨ c = 'E' ∨ dropped ≠ 0 then finishFloat negative n dropped (c :: rest)
    else .ok (integerToken negative n, c :: rest)

/-- The number whose digits start here, and the text after it. A zero stands alone before the point. -/
def readNumber (negative : Bool) : List Char → Except Error (Token × List Char)
  | [] => .error .endInValue
  | c :: rest =>
    if c = '0' then if startsWithDigit rest then .error .invalidNumber else finishNumber negative 0 0 rest
    else if c.isDigit then
      let (n, _, after) := gather (digitValue c) 0 rest
      finishNumber negative n (after.takeWhile Char.isDigit).length (after.dropWhile Char.isDigit)
    else .error .invalidNumber

/-! ## Skipping -/

/-- The text after the digits that have to stand here. -/
def skipDigits (text : List Char) : Except Error (List Char) :=
  if startsWithDigit text then .ok (text.dropWhile Char.isDigit) else .error .invalidNumber

/-- The text after an exponent, if one stands here. -/
def skipExponent : List Char → Except Error (List Char)
  | [] => .ok []
  | c :: rest => if c = 'e' ∨ c = 'E' then skipDigits (exponentSign rest).2 else .ok (c :: rest)

/-- The text after a fraction and an exponent, where they stand here. -/
def skipFraction : List Char → Except Error (List Char)
  | [] => .ok []
  | c :: rest => if c = '.' then (skipDigits rest).bind skipExponent else skipExponent (c :: rest)

/-- The text after the number whose digits start here. -/
def skipNumber : List Char → Except Error (List Char)
  | [] => .error .invalidNumber
  | c :: rest =>
    if c = '0' then if startsWithDigit rest then .error .invalidNumber else skipFraction rest
    else if c.isDigit then skipFraction (rest.dropWhile Char.isDigit)
    else .error .invalidNumber

/-! ## Each step consumes text -/

theorem length_dropWhile_le {p : Char → Bool} (text : List Char) : (text.dropWhile p).length ≤ text.length :=
  List.Sublist.length_le (List.dropWhile_sublist p)

theorem gather_le (n taken : Nat) (text : List Char) : (gather n taken text).2.2.length ≤ text.length := by
  fun_induction gather n taken text with
  | case1 => simp
  | case2 n taken c rest _ ih => simp only [List.length_cons]; omega
  | case3 => simp

theorem exponentSign_le (text : List Char) : (exponentSign text).2.length ≤ text.length := by
  unfold exponentSign
  split <;> simp

theorem readExponent_le {text rest : List Char} {e : Int} (h : readExponent text = .ok (e, rest)) :
    rest.length ≤ text.length := by
  unfold readExponent at h
  dsimp only at h
  split at h
  · cases h
    exact Nat.le_trans (length_dropWhile_le _) (exponentSign_le text)
  · cases h

theorem finishFloat_le {negative : Bool} {n : Nat} {power : Int} {text rest : List Char} {t : Token}
    (h : finishFloat negative n power text = .ok (t, rest)) : rest.length ≤ text.length := by
  unfold finishFloat at h
  split at h
  · cases hf : floatToken negative n power <;> simp [hf, bind, Except.bind, pure, Except.pure] at h
    simp [← h.2]
  · next c after =>
    split at h
    · cases he : readExponent after with
      | error e => simp [he, bind, Except.bind] at h
      | ok p =>
        cases hf : floatToken negative n (power + p.1) <;> simp [he, hf, bind, Except.bind, pure, Except.pure] at h
        have : rest.length ≤ after.length := readExponent_le (by rw [he, ← h.2])
        simp only [List.length_cons]
        omega
    · cases hf : floatToken negative n power <;> simp [hf, bind, Except.bind, pure, Except.pure] at h
      simp [← h.2]

theorem finishNumber_le {negative : Bool} {n dropped : Nat} {text rest : List Char} {t : Token}
    (h : finishNumber negative n dropped text = .ok (t, rest)) : rest.length ≤ text.length := by
  unfold finishNumber at h
  split at h
  · split at h
    · cases h; simp
    · exact finishFloat_le h
  · next c after =>
    split at h
    · dsimp only at h
      split at h
      · have h₁ := Nat.le_trans (finishFloat_le h) (length_dropWhile_le _)
        have h₂ := Nat.le_trans h₁ (gather_le n 0 after)
        simp only [List.length_cons]
        omega
      · cases h
    · split at h
      · exact finishFloat_le h
      · cases h; simp

theorem readNumber_shorter {negative : Bool} {text rest : List Char} {t : Token}
    (h : readNumber negative text = .ok (t, rest)) : rest.length < text.length := by
  unfold readNumber at h
  split at h
  · cases h
  · next c after =>
    simp only [List.length_cons]
    split at h
    · split at h
      · cases h
      · have := finishNumber_le h
        omega
    · split at h
      · dsimp only at h
        have h₁ := Nat.le_trans (finishNumber_le h) (length_dropWhile_le _)
        have h₂ := Nat.le_trans h₁ (gather_le (digitValue c) 0 after)
        omega
      · cases h

theorem skipDigits_le {text rest : List Char} (h : skipDigits text = .ok rest) : rest.length ≤ text.length := by
  unfold skipDigits at h
  split at h
  · cases h; exact length_dropWhile_le _
  · cases h

theorem skipExponent_le {text rest : List Char} (h : skipExponent text = .ok rest) : rest.length ≤ text.length := by
  unfold skipExponent at h
  split at h
  · cases h; simp
  · next c after =>
    split at h
    · have h₁ := skipDigits_le h
      have h₂ := exponentSign_le after
      simp only [List.length_cons]
      omega
    · cases h; simp

theorem skipFraction_le {text rest : List Char} (h : skipFraction text = .ok rest) : rest.length ≤ text.length := by
  unfold skipFraction at h
  split at h
  · cases h; simp
  · next c after =>
    split at h
    · cases hd : skipDigits after with
      | error e => simp [hd, Except.bind] at h
      | ok r =>
        rw [hd] at h
        have h₁ := skipDigits_le hd
        have h₂ := skipExponent_le (show skipExponent r = .ok rest from h)
        simp only [List.length_cons]
        omega
    · exact skipExponent_le h

theorem skipNumber_shorter {text rest : List Char} (h : skipNumber text = .ok rest) : rest.length < text.length := by
  unfold skipNumber at h
  split at h
  · cases h
  · next c after =>
    simp only [List.length_cons]
    split at h
    · split at h
      · cases h
      · have := skipFraction_le h
        omega
    · split at h
      · have h₁ := Nat.le_trans (skipFraction_le h) (length_dropWhile_le _)
        omega
      · cases h

end SealedLedger.Json
