import SealedLedger.Json.Error

/-!
# Strings in JSON

A written string escapes the quote, the backslash and the control characters and nothing else. Reading takes every escape of the
format; a code point beyond the basic plane may be escaped as a pair of surrogates, and surrogates that do not form a pair are
errors. Main statement: reading a written string gives its characters back (`readText_escape`).
-/

namespace SealedLedger.Json

/-- A character as it stands in a written string. -/
def escapeChar (c : Char) : List Char :=
  if c = '"' then ['\\', '"']
  else if c = '\\' then ['\\', '\\']
  else if c = '\x08' then ['\\', 'b']
  else if c = '\x0c' then ['\\', 'f']
  else if c = '\n' then ['\\', 'n']
  else if c = '\r' then ['\\', 'r']
  else if c = '\t' then ['\\', 't']
  else if c.toNat < 0x20 then
    ['\\', 'u', '0', '0', Nat.digitChar (c.toNat / 16), Nat.digitChar (c.toNat % 16)]
  else [c]

/-- The characters of a written string between its quotes. -/
def escape (cs : List Char) : List Char :=
  cs.flatMap escapeChar

/-- A written string. -/
def quoted (text : String) : List Char :=
  '"' :: escape text.toList ++ ['"']

/-! ## Escapes -/

/-- The value of a hexadecimal digit of either case. -/
def hexDigit? (c : Char) : Option Nat :=
  if '0' ≤ c ∧ c ≤ '9' then some (c.toNat - '0'.toNat)
  else if 'A' ≤ c ∧ c ≤ 'F' then some (c.toNat - 'A'.toNat + 10)
  else if 'a' ≤ c ∧ c ≤ 'f' then some (c.toNat - 'a'.toNat + 10)
  else none

/-- Whether a text is shorter than four bytes. -/
def endsWithinFourBytes (text : List Char) : Bool :=
  (text.take 4).foldl (fun bytes c => bytes + c.utf8Size) 0 < 4

/-- The code unit that four hexadecimal digits spell, and the text after them. A text of fewer than four bytes ends too early,
whatever it holds. -/
def readCodeUnit (text : List Char) : Except Error (Nat × List Char) :=
  if endsWithinFourBytes text then .error .endInString
  else
    match text with
    | a :: b :: c :: d :: rest =>
      match hexDigit? a, hexDigit? b, hexDigit? c, hexDigit? d with
      | some a, some b, some c, some d => .ok (((a * 16 + b) * 16 + c) * 16 + d, rest)
      | _, _, _, _ => .error .invalidEscape
    | _ => .error .invalidEscape

/-- The character that an escape of one letter stands for. -/
def letterEscape? (c : Char) : Option Char :=
  if c = '"' ∨ c = '\\' ∨ c = '/' then some c
  else if c = 'b' then some '\x08'
  else if c = 'f' then some '\x0c'
  else if c = 'n' then some '\n'
  else if c = 'r' then some '\r'
  else if c = 't' then some '\t'
  else none

/-- What an escape stands for: a character, or a code unit, which may be half of a character. -/
inductive Escape where
  | char (c : Char)
  | unit (n : Nat)

/-- The escape after a backslash, and the text after it. -/
def readEscape : List Char → Except Error (Escape × List Char)
  | [] => .error .endInString
  | c :: rest =>
    if c = 'u' then
      match readCodeUnit rest with
      | .ok (n, rest) => .ok (.unit n, rest)
      | .error e => .error e
    else
      match letterEscape? c with
      | some c => .ok (.char c, rest)
      | none => .error .invalidEscape

/-- The first half of a pair of surrogates. -/
def isLeadingSurrogate (n : Nat) : Bool :=
  0xD800 ≤ n && n ≤ 0xDBFF

/-- The second half of a pair of surrogates. -/
def isTrailingSurrogate (n : Nat) : Bool :=
  0xDC00 ≤ n && n ≤ 0xDFFF

/-- The character of a pair of surrogates. -/
def surrogatePair (leading trailing : Nat) : Char :=
  Char.ofNat ((leading - 0xD800) * 0x400 + (trailing - 0xDC00) + 0x10000)

/-- The escaped trailing surrogate that has to follow a leading one, and the text after it. -/
def readTrailingSurrogate : List Char → Except Error (Nat × List Char)
  | [] => .error .endInString
  | ['\\'] => .error .endInString
  | '\\' :: 'u' :: rest =>
    match readCodeUnit rest with
    | .ok (n, rest) => if isTrailingSurrogate n then .ok (n, rest) else .error .loneSurrogate
    | .error e => .error e
  | _ => .error .unfinishedSurrogate

/-- The character at a place inside a string, or none at the closing quote, and the text after it. -/
def readChar : List Char → Except Error (Option Char × List Char)
  | [] => .error .endInString
  | c :: rest =>
    if c = '"' then .ok (none, rest)
    else if c = '\\' then
      match readEscape rest with
      | .error e => .error e
      | .ok (.char c, rest) => .ok (some c, rest)
      | .ok (.unit n, rest) =>
        if isTrailingSurrogate n then .error .loneSurrogate
        else if isLeadingSurrogate n then
          match readTrailingSurrogate rest with
          | .error e => .error e
          | .ok (m, rest) => .ok (some (surrogatePair n m), rest)
        else .ok (some (Char.ofNat n), rest)
    else if c.toNat < 0x20 then .error .controlCharacter
    else .ok (some c, rest)

/-! ## Each step consumes text -/

theorem readCodeUnit_shorter {text rest : List Char} {n : Nat} (h : readCodeUnit text = .ok (n, rest)) :
    rest.length < text.length := by
  unfold readCodeUnit at h
  split at h
  · cases h
  · split at h
    · split at h
      · cases h
        simp only [List.length_cons]
        omega
      · cases h
    · cases h

theorem readEscape_shorter {text rest : List Char} {e : Escape} (h : readEscape text = .ok (e, rest)) :
    rest.length < text.length := by
  unfold readEscape at h
  split at h
  · cases h
  · split at h
    · split at h
      · next hu =>
        cases h
        have := readCodeUnit_shorter hu
        simp only [List.length_cons]
        omega
      · cases h
    · split at h
      · cases h
        simp
      · cases h

theorem readTrailingSurrogate_shorter {text rest : List Char} {n : Nat}
    (h : readTrailingSurrogate text = .ok (n, rest)) : rest.length < text.length := by
  unfold readTrailingSurrogate at h
  split at h
  · cases h
  · cases h
  · split at h
    · next hu =>
      split at h
      · cases h
        have := readCodeUnit_shorter hu
        simp only [List.length_cons]
        omega
      · cases h
    · cases h
  · cases h

theorem readChar_shorter {text rest : List Char} {c : Option Char} (h : readChar text = .ok (c, rest)) :
    rest.length < text.length := by
  unfold readChar at h
  split at h
  · cases h
  · split at h
    · cases h
      simp
    · split at h
      · split at h
        · cases h
        · next he =>
          cases h
          have := readEscape_shorter he
          simp only [List.length_cons]
          omega
        · next he =>
          have := readEscape_shorter he
          split at h
          · cases h
          · split at h
            · split at h
              · cases h
              · next ht =>
                cases h
                have := readTrailingSurrogate_shorter ht
                simp only [List.length_cons]
                omega
            · cases h
              simp only [List.length_cons]
              omega
      · split at h
        · cases h
        · cases h
          simp

/-! ## Whole strings -/

/-- The characters up to the closing quote, after those already read (last one first), and the text after the quote. -/
def readText (read text : List Char) : Except Error (List Char × List Char) :=
  match _h : readChar text with
  | .error e => .error e
  | .ok (none, rest) => .ok (read.reverse, rest)
  | .ok (some c, rest) => readText (c :: read) rest
termination_by text.length
decreasing_by exact readChar_shorter ‹_›

theorem readText_shorter {read text cs rest : List Char} (h : readText read text = .ok (cs, rest)) :
    rest.length < text.length := by
  fun_induction readText read text with
  | case1 => cases h
  | case2 read text rest' hc =>
    cases h
    exact readChar_shorter hc
  | case3 read text c rest' hc ih => exact Nat.lt_trans (ih h) (readChar_shorter hc)

/-- Reading a written character gives it back. -/
theorem readChar_escapeChar (c : Char) (rest : List Char) : readChar (escapeChar c ++ rest) = .ok (some c, rest) := by
  unfold escapeChar
  split
  · next h => subst h; simp [readChar, readEscape, letterEscape?]
  split
  · next h => subst h; simp [readChar, readEscape, letterEscape?]
  split
  · next h => subst h; simp [readChar, readEscape, letterEscape?]
  split
  · next h => subst h; simp [readChar, readEscape, letterEscape?]
  split
  · next h => subst h; simp [readChar, readEscape, letterEscape?]
  split
  · next h => subst h; simp [readChar, readEscape, letterEscape?]
  split
  · next h => subst h; simp [readChar, readEscape, letterEscape?]
  split
  · next h =>
    have digits : ∀ d, d < 16 → hexDigit? (Nat.digitChar d) = some d ∧ (Nat.digitChar d).utf8Size = 1 := by decide +kernel
    have zero : hexDigit? '0' = some 0 ∧ ('0' : Char).utf8Size = 1 := by decide
    have high := digits (c.toNat / 16) (by omega)
    have low := digits (c.toNat % 16) (by omega)
    have unit : 16 * (c.toNat / 16) + c.toNat % 16 = c.toNat := by omega
    have whole : c.toNat / 16 * 16 + c.toNat % 16 = c.toNat := by omega
    have small : isTrailingSurrogate c.toNat = false ∧ isLeadingSurrogate c.toNat = false := by
      simp only [isTrailingSurrogate, isLeadingSurrogate, Bool.and_eq_false_iff, decide_eq_false_iff_not]
      omega
    simp [readChar, readEscape, readCodeUnit, endsWithinFourBytes, zero, high, low, whole, small]
  · next h₁ h₂ h₃ h₄ h₅ h₆ h₇ h₈ =>
    simp [readChar, h₁, h₂, h₈]

theorem readText_of_end {read text rest : List Char} (h : readChar text = .ok (none, rest)) :
    readText read text = .ok (read.reverse, rest) := by
  rw [readText]
  split <;> simp_all

theorem readText_of_char {read text rest : List Char} {c : Char} (h : readChar text = .ok (some c, rest)) :
    readText read text = readText (c :: read) rest := by
  rw [readText]
  split <;> simp_all

/-- Reading a written string gives its characters back. -/
theorem readText_escape (read cs rest : List Char) :
    readText read (escape cs ++ '"' :: rest) = .ok (read.reverse ++ cs, rest) := by
  induction cs generalizing read with
  | nil => rw [List.append_nil]; exact readText_of_end rfl
  | cons c cs ih =>
    have h : escape (c :: cs) ++ '"' :: rest = escapeChar c ++ (escape cs ++ '"' :: rest) := by
      simp [escape, List.append_assoc]
    rw [h, readText_of_char (readChar_escapeChar c _), ih]
    simp

/-! ## Skipping a string -/

/-- The place after a string whose characters do not matter: escapes have to be well formed, surrogates need not pair up. -/
def skipText (text : List Char) : Except Error (List Char) :=
  match text with
  | [] => .error .endInString
  | c :: rest =>
    if c = '"' then .ok rest
    else if c = '\\' then
      match _h : readEscape rest with
      | .error e => .error e
      | .ok (_, rest) => skipText rest
    else if c.toNat < 0x20 then .error .controlCharacter
    else skipText rest
termination_by text.length
decreasing_by
  · have := readEscape_shorter ‹_›
    simp only [List.length_cons]
    omega
  · simp

theorem skipText_shorter {text rest : List Char} (h : skipText text = .ok rest) : rest.length < text.length := by
  fun_induction skipText text with
  | case1 => cases h
  | case2 => cases h; simp
  | case3 => cases h
  | case4 rest' _ e rest'' _ ih =>
    have := ih h
    have := readEscape_shorter ‹_›
    simp only [List.length_cons]
    omega
  | case5 => cases h
  | case6 c rest' _ _ _ ih =>
    have := ih h
    simp only [List.length_cons]
    omega

end SealedLedger.Json
