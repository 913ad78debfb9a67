import SealedLedger.Json.Reader

/-!
# Skipping values

A value that nobody asked for is skipped: its form is checked, at any depth of nesting, and nothing is kept of it. The brackets
that are open around the place of reading stand on a stack, so that no depth is too great.
-/

namespace SealedLedger.Json

/-- The kind of an open bracket. -/
inductive Bracket where
  | list | object
  deriving DecidableEq

/-- The text after the key of an object's entry and its colon, from the key's quote on. -/
def skipKey (text : List Char) : Except Error (List Char) :=
  match skipSpace text with
  | [] => .error .endInObject
  | c :: rest =>
    if c = '"' then
      match skipText rest with
      | .error e => .error e
      | .ok rest =>
        match skipSpace rest with
        | [] => .error .endInObject
        | d :: rest => if d = ':' then .ok rest else .error .expectedColon
    else .error .keyMustBeString

/-- What the start of a skipped value leads to. -/
inductive SkipStart where
  /-- A whole value, and the text after it. -/
  | done (rest : List Char)
  /-- A bracket with an entry in it, and the text from the entry's value on. -/
  | inside (bracket : Bracket) (text : List Char)

/-- The text after an opening bracket: the bracket is closed again, or an entry follows. -/
def skipOpened (bracket : Bracket) (text : List Char) : Except Error SkipStart :=
  match bracket, skipSpace text with
  | .list, [] => .error .endInList
  | .object, [] => .error .endInObject
  | .list, c :: rest => .ok (if c = ']' then .done rest else .inside .list (c :: rest))
  | .object, c :: rest => if c = '}' then .ok (.done rest) else (skipKey (c :: rest)).map (.inside .object)

/-- The value that starts with this character: a scalar is skipped whole, a bracket up to its first entry. -/
def skipStartFrom (c : Char) (rest : List Char) : Except Error SkipStart :=
  if c = 'n' then (expectLetters ['u', 'l', 'l'] rest).map .done
  else if c = 't' then (expectLetters ['r', 'u', 'e'] rest).map .done
  else if c = 'f' then (expectLetters ['a', 'l', 's', 'e'] rest).map .done
  else if c = '-' then (skipNumber rest).map .done
  else if c.isDigit then (skipNumber (c :: rest)).map .done
  else if c = '"' then (skipText rest).map .done
  else if c = '[' then skipOpened .list rest
  else if c = '{' then skipOpened .object rest
  else .error .expectedValue

/-- The start of the next value. -/
def skipStart (text : List Char) : Except Error SkipStart :=
  match skipSpace text with
  | [] => .error .endInValue
  | c :: rest => skipStartFrom c rest

/-- What follows an entry in a bracket: the bracket's end, and the text after it, or the next entry, from its value on. -/
def skipNext (bracket : Bracket) (text : List Char) : Except Error SkipStart :=
  match bracket, skipSpace text with
  | .list, [] => .error .endInList
  | .object, [] => .error .endInObject
  | .list, c :: rest =>
    if c = ',' then .ok (.inside .list rest) else if c = ']' then .ok (.done rest) else .error .expectedListEnd
  | .object, c :: rest =>
    if c = ',' then (skipKey rest).map (.inside .object)
    else if c = '}' then .ok (.done rest)
    else .error .expectedObjectEnd

/-! ## Each step consumes text -/

/-- The text that is left to read. -/
def SkipStart.rest : SkipStart → List Char
  | done rest => rest
  | inside _ text => text

theorem skipKey_shorter {text rest : List Char} (h : skipKey text = .ok rest) : rest.length < text.length := by
  unfold skipKey at h
  have hs := skipSpace_le text
  split at h
  · cases h
  · next c after hc =>
    rw [hc, List.length_cons] at hs
    split at h
    · split at h
      · cases h
      · next tail ht =>
        have h₁ := skipText_shorter ht
        have h₂ := skipSpace_le tail
        split at h
        · cases h
        · next d tail' hd =>
          rw [hd, List.length_cons] at h₂
          split at h
          · cases h
            omega
          · cases h
    · cases h

theorem skipOpened_le {bracket : Bracket} {text : List Char} {start : SkipStart}
    (h : skipOpened bracket text = .ok start) : start.rest.length ≤ text.length := by
  unfold skipOpened at h
  have hs := skipSpace_le text
  split at h
  · cases h
  · cases h
  · next c after hc =>
    rw [hc, List.length_cons] at hs
    cases h
    split
    · simp only [SkipStart.rest]
      omega
    · simpa [SkipStart.rest] using hs
  · next c after hc =>
    rw [hc, List.length_cons] at hs
    split at h
    · cases h
      simp only [SkipStart.rest]
      omega
    · obtain ⟨r, hr, he⟩ := map_eq_ok h
      cases he
      have := skipKey_shorter hr
      simp only [List.length_cons] at this
      simp only [SkipStart.rest]
      omega

theorem skipStartFrom_le {c : Char} {text : List Char} {start : SkipStart} (h : skipStartFrom c text = .ok start) :
    start.rest.length ≤ text.length := by
  unfold skipStartFrom at h
  have mapped : ∀ {x : Except Error (List Char)}, x.map SkipStart.done = .ok start →
      (∀ r, x = .ok r → r.length ≤ text.length) → start.rest.length ≤ text.length := by
    intro x hx hr
    obtain ⟨r, hr', he⟩ := map_eq_ok hx
    cases he
    exact hr r hr'
  split at h
  · exact mapped h fun r hr => expectLetters_le hr
  split at h
  · exact mapped h fun r hr => expectLetters_le hr
  split at h
  · exact mapped h fun r hr => expectLetters_le hr
  split at h
  · exact mapped h fun r hr => Nat.le_of_lt (skipNumber_shorter hr)
  split at h
  · exact mapped h fun r hr => Nat.lt_succ_iff.mp (skipNumber_shorter hr)
  split at h
  · exact mapped h fun r hr => Nat.le_of_lt (skipText_shorter hr)
  split at h
  · exact skipOpened_le h
  split at h
  · exact skipOpened_le h
  · cases h

theorem skipStart_shorter {text : List Char} {start : SkipStart} (h : skipStart text = .ok start) :
    start.rest.length < text.length := by
  unfold skipStart at h
  have hs := skipSpace_le text
  split at h
  · cases h
  · next c after hc =>
    have := skipStartFrom_le h
    rw [hc, List.length_cons] at hs
    omega

theorem skipNext_shorter {bracket : Bracket} {text : List Char} {start : SkipStart}
    (h : skipNext bracket text = .ok start) : start.rest.length < text.length := by
  unfold skipNext at h
  have hs := skipSpace_le text
  split at h
  · cases h
  · cases h
  · next c after hc =>
    rw [hc, List.length_cons] at hs
    split at h
    · cases h
      simp only [SkipStart.rest]
      omega
    · split at h
      · cases h
        simp only [SkipStart.rest]
        omega
      · cases h
  · next c after hc =>
    rw [hc, List.length_cons] at hs
    split at h
    · obtain ⟨r, hr, he⟩ := map_eq_ok h
      cases he
      have := skipKey_shorter hr
      simp only [SkipStart.rest]
      omega
    · split at h
      · cases h
        simp only [SkipStart.rest]
        omega
      · cases h

/-! ## Whole values -/

/-- Skips from the outcome of a step on: with nothing left open, a finished value is the whole of it. -/
def skipFrom (opened : List Bracket) (start : SkipStart) : Except Error (List Char) :=
  match start with
  | .inside bracket text =>
    match _h : skipStart text with
    | .error e => .error e
    | .ok next => skipFrom (bracket :: opened) next
  | .done rest =>
    match opened with
    | [] => .ok rest
    | bracket :: opened =>
      match _h : skipNext bracket rest with
      | .error e => .error e
      | .ok next => skipFrom opened next
termination_by start.rest.length
decreasing_by
  · exact skipStart_shorter ‹_›
  · exact skipNext_shorter ‹_›

/-- The text after the next value. -/
def skipValue (text : List Char) : Except Error (List Char) :=
  match skipStart text with
  | .error e => .error e
  | .ok start => skipFrom [] start

theorem skipFrom_le {opened : List Bracket} {start : SkipStart} {rest : List Char}
    (h : skipFrom opened start = .ok rest) : rest.length ≤ start.rest.length := by
  fun_induction skipFrom opened start with
  | case1 => cases h
  | case2 opened bracket text next hn ih =>
    have h₁ := ih h
    have h₂ := skipStart_shorter hn
    simp only [SkipStart.rest] at h₁ h₂ ⊢
    omega
  | case3 rest' =>
    cases h
    exact Nat.le_refl _
  | case4 => cases h
  | case5 rest' bracket opened next hn ih =>
    have h₁ := ih h
    have h₂ := skipNext_shorter hn
    simp only [SkipStart.rest] at h₁ h₂ ⊢
    omega

theorem skipValue_shorter {text rest : List Char} (h : skipValue text = .ok rest) : rest.length < text.length := by
  unfold skipValue at h
  split at h
  · cases h
  · next start hs =>
    have h₁ := skipFrom_le h
    have h₂ := skipStart_shorter hs
    omega

end SealedLedger.Json
