import SealedLedger.Proofs.Text.Spelling
import SealedLedger.Proofs.Text.Trimming

/-!
# Texts that spell the same bytes

Blanks around a text are trimmed before it is read, and a digit has the same value in either case. So a text that is respelled, with
other blanks around it or with letters among its digits in the other case, is read as the same bytes, or is refused for the same reason
at the same place. Reading goes by UTF-8 bytes, so the case of a letter is followed from characters to bytes
(`Hex.map_lowerCode_ofText`). Main statement: `Respelled.decode_trim`.
-/

namespace SealedLedger.Text

/-- The lowercase form of a hexadecimal digit; any other character stays as it is. -/
def lowerDigit (c : Char) : Char :=
  if c ∈ ['A', 'B', 'C', 'D', 'E', 'F'] then c.toLower else c

/-- One text is the other one with other blanks around it and with hexadecimal digits in another case. -/
inductive Respelled : String → String → Prop where
  | intro {text other : String} {before core after before' core' after' : List Char}
    (parts : text.toList = before ++ core ++ after) (parts' : other.toList = before' ++ core' ++ after')
    (blank : ∀ c ∈ before ++ after, isBlank c = true) (blank' : ∀ c ∈ before' ++ after', isBlank c = true)
    (digits : core.map lowerDigit = core'.map lowerDigit) : Respelled text other

/-! ## Blanks -/

/-- A letter and its lowercase form are no blanks, and what is no letter is not changed. -/
theorem isBlank_lowerDigit (c : Char) : isBlank (lowerDigit c) = isBlank c := by
  rw [lowerDigit]
  split
  · next letter =>
    simp only [List.mem_cons, List.not_mem_nil, or_false] at letter
    rcases letter with rfl | rfl | rfl | rfl | rfl | rfl <;> rfl
  · rfl

/-- What is left of a respelled text is the same, up to the case of digits. -/
theorem Respelled.trimChars_eq {text other : String} (h : Respelled text other) :
    (trimChars text.toList).map lowerDigit = (trimChars other.toList).map lowerDigit := by
  obtain ⟨parts, parts', blank, blank', digits⟩ := h
  rw [parts, parts', trimChars_append blank, trimChars_append blank', map_trimChars isBlank_lowerDigit,
    map_trimChars isBlank_lowerDigit, digits]

/-- A respelled text is blank if the other one is, and not otherwise. -/
theorem Respelled.trim_isEmpty {text other : String} (h : Respelled text other) : (trim text).isEmpty = (trim other).isEmpty := by
  have nothing : ∀ text : String, (trim text).isEmpty = true ↔ (trimChars text.toList).map lowerDigit = [] := by
    intro text
    rw [List.map_eq_nil_iff, trimChars_eq_nil_iff]
    exact trim_isEmpty_iff text
  rw [Bool.eq_iff_iff, nothing, nothing, h.trimChars_eq]

/-! ## Digits -/

namespace Hex

/-- The code of a letter among the digits in lowercase; any other byte stays as it is. -/
def lowerCode (code : UInt8) : UInt8 :=
  if 65 ≤ code ∧ code ≤ 70 then code + 32 else code

theorem digitValue?_lowerCode : ∀ code, digitValue? (lowerCode code) = digitValue? code :=
  forall_byte (by decide +kernel)

theorem lowerCode_of_not_isDigit : ∀ code, isDigit code = false → lowerCode code = code :=
  forall_byte (by decide +kernel)

theorem isDigit_lowerCode (code : UInt8) : isDigit (lowerCode code) = isDigit code := by
  rw [isDigit, isDigit, digitValue?_lowerCode]

/-- A byte that is no letter's stays as it is. -/
theorem lowerCode_ofNat {n : Nat} (other : ¬(65 ≤ n ∧ n ≤ 70)) (byte : n < 256) : lowerCode (UInt8.ofNat n) = UInt8.ofNat n := by
  have size : (UInt8.ofNat n).toNat = n := UInt8.toNat_ofNat_of_lt' byte
  have same : 65 ≤ UInt8.ofNat n ∧ UInt8.ofNat n ≤ 70 ↔ 65 ≤ n ∧ n ≤ 70 := by
    rw [UInt8.le_iff_toNat_le, UInt8.le_iff_toNat_le, size]
    rfl
  rw [lowerCode, if_neg (same.not.2 other)]

/-- The bytes of a digit in lowercase are those of the digit, in lowercase. -/
theorem utf8EncodeChar_lowerDigit (c : Char) :
    String.utf8EncodeChar (lowerDigit c) = (String.utf8EncodeChar c).map lowerCode := by
  rw [lowerDigit]
  split
  · next letter =>
    simp only [List.mem_cons, List.not_mem_nil, or_false] at letter
    rcases letter with rfl | rfl | rfl | rfl | rfl | rfl <;> rfl
  · next other =>
    have code : ¬(65 ≤ c.val.toNat ∧ c.val.toNat ≤ 70) := by
      intro between
      have whole : c = Char.ofNat c.val.toNat := (Char.ofNat_toNat c).symm
      have six : c.val.toNat = 65 ∨ c.val.toNat = 66 ∨ c.val.toNat = 67 ∨ c.val.toNat = 68 ∨ c.val.toNat = 69 ∨
          c.val.toNat = 70 := by omega
      refine other ?_
      rcases six with h | h | h | h | h | h <;> rw [whole, h] <;> decide
    unfold String.utf8EncodeChar
    -- only a character's first byte can be below 128, and then it is the only one
    dsimp only
    split
    · rw [List.map_singleton, lowerCode_ofNat code (by omega)]
    · split
      · simp (disch := omega) only [List.map_cons, List.map_nil, lowerCode_ofNat]
      · split
        · simp (disch := omega) only [List.map_cons, List.map_nil, lowerCode_ofNat]
        · simp (disch := omega) only [List.map_cons, List.map_nil, lowerCode_ofNat]

theorem map_lowerCode_ofText (cs : List Char) :
    (cs.flatMap String.utf8EncodeChar).map lowerCode = (cs.map lowerDigit).flatMap String.utf8EncodeChar := by
  rw [List.map_flatMap, List.flatMap_map]
  exact congrArg (List.flatMap · cs) (funext fun c => (utf8EncodeChar_lowerDigit c).symm)

theorem pairs_map_lowerCode (codes : Bytes) : pairs (codes.map lowerCode) = pairs codes := by
  fun_induction pairs codes with
  | case1 high low rest ih =>
    rw [List.map_cons, List.map_cons, pairs, ih, pairValue, pairValue, digitValue?_lowerCode, digitValue?_lowerCode]
  | case2 codes short =>
    rcases codes with _ | ⟨high, _ | ⟨low, rest⟩⟩
    · rfl
    · rfl
    · exact absurd rfl (short high low rest)

/-- The case of digits does not matter, neither to what they spell nor to what is refused and where. -/
theorem decodeBytes_map_lowerCode (codes : Bytes) : decodeBytes (codes.map lowerCode) = decodeBytes codes := by
  have same : (fun code => !isDigit code) ∘ lowerCode = fun code => !isDigit code :=
    funext fun code => congrArg not (isDigit_lowerCode code)
  rw [decodeBytes, decodeBytes, List.length_map, List.findIdx?_map, same]
  split
  · rfl
  · split
    · next position found =>
      obtain ⟨inside, digit, -⟩ := List.findIdx?_eq_some_iff_getElem.1 found
      have kept : lowerCode codes[position] = codes[position] := lowerCode_of_not_isDigit _ (by simpa using digit)
      rw [List.getD_eq_getElem?_getD, List.getD_eq_getElem?_getD, List.getElem?_map, List.getElem?_eq_getElem inside,
        Option.map_some, kept]
    · rw [pairs_map_lowerCode]

end Hex

/-- A respelled text is read as the same bytes, or refused with the same error. -/
theorem Respelled.decode_trim {text other : String} (h : Respelled text other) :
    Hex.decode (trim text) = Hex.decode (trim other) := by
  have codes : ∀ text : String, Hex.decode (trim text) =
      Hex.decodeBytes (((trimChars text.toList).map lowerDigit).flatMap String.utf8EncodeChar) := by
    intro text
    rw [← Hex.map_lowerCode_ofText, Hex.decodeBytes_map_lowerCode, Hex.decode, Bytes.ofText, trim, String.toList_ofList]
  rw [codes, codes, h.trimChars_eq]

end SealedLedger.Text
