import SealedLedger.Codec
import SealedLedger.Proofs.Text.Respelling

/-!
# Hashes as texts

A hash is shown and written by its lowercase spelling, and reading the spelling gives the hash back. Reading any text goes by its UTF-8
bytes: an odd number of them is refused first (`Hex.decode_eq_oddLength_iff`), then the first byte that is no digit
(`Hex.decode_eq_invalidDigit_iff`), and what is left are the texts that spell bytes. The bytes that such a text spells are written with
the same digits in lowercase (`Hex.encode_pairs`). Main statement: `Hash.text_forms`.
-/

namespace SealedLedger

namespace Text.Hex

/-- The digits are the ASCII decimal digits and the letters from A to F in either case. -/
theorem isDigit_iff_mem : ∀ code, isDigit code = true ↔ code ∈ Bytes.ofText "0123456789ABCDEFabcdef" :=
  forall_byte (by decide +kernel)

/-! ## Texts that are refused -/

/-- A byte is no digit, at a position before which there are only digits. -/
def FirstBad (codes : Bytes) (bad : UInt8) (position : Nat) : Prop :=
  ∃ front rest, codes = front ++ bad :: rest ∧ front.length = position ∧ (∀ code ∈ front, isDigit code = true) ∧
    isDigit bad = false

/-- The search for a byte that is no digit ends at the first one. -/
theorem findIdx?_eq_some_iff (codes : Bytes) (position : Nat) :
    codes.findIdx? (fun code => !isDigit code) = some position ↔ ∃ bad, FirstBad codes bad position := by
  constructor
  · intro found
    obtain ⟨inside, wrong, earlier⟩ := List.findIdx?_eq_some_iff_getElem.1 found
    refine ⟨codes[position], codes.take position, codes.drop (position + 1), ?_, List.length_take_of_le inside.le, ?_, ?_⟩
    · rw [← List.drop_eq_getElem_cons inside, List.take_append_drop]
    · intro code hc
      obtain ⟨i, hi, rfl⟩ := List.mem_iff_getElem.1 hc
      rw [List.length_take_of_le inside.le] at hi
      rw [List.getElem_take]
      simpa using earlier i hi
    · simpa using wrong
  · rintro ⟨bad, front, rest, rfl, rfl, good, wrong⟩
    have passed : front.findIdx? (fun code => !isDigit code) = none := by
      rw [List.findIdx?_eq_none_iff]
      intro code hc
      rw [good code hc]
      rfl
    rw [List.findIdx?_append, passed, List.findIdx?_cons, wrong]
    simp

theorem FirstBad.getD {codes : Bytes} {bad : UInt8} {position : Nat} (first : FirstBad codes bad position) :
    codes.getD position 0 = bad := by
  obtain ⟨front, rest, rfl, rfl, -, -⟩ := first
  simp

/-- A text with an odd number of bytes is refused for that, whatever the bytes are. -/
theorem decode_eq_oddLength_iff (text : String) : decode text = .error .oddLength ↔ (Bytes.ofText text).length % 2 = 1 := by
  rw [decode, decodeBytes]
  split
  case isTrue odd => exact iff_of_true rfl odd
  case isFalse even =>
    refine iff_of_false ?_ even
    intro h
    split at h
    · cases h
    · cases h

/-- A text with an even number of bytes is refused for the first of them that is no digit. -/
theorem decode_eq_invalidDigit_iff (text : String) (bad : UInt8) (position : Nat) :
    decode text = .error (.invalidDigit bad position) ↔
      (Bytes.ofText text).length % 2 = 0 ∧ FirstBad (Bytes.ofText text) bad position := by
  rw [decode, decodeBytes]
  constructor
  · intro refused
    split at refused
    case isTrue odd => cases refused
    case isFalse even =>
      split at refused
      · next found =>
        cases refused
        obtain ⟨bad, first⟩ := (findIdx?_eq_some_iff _ _).1 found
        rw [first.getD]
        exact ⟨by omega, first⟩
      · cases refused
  · rintro ⟨even, first⟩
    rw [if_neg (by omega), (findIdx?_eq_some_iff _ _).2 ⟨bad, first⟩, ← first.getD]

/-! ## Texts that spell bytes -/

/-- A digit stands for a number below 16, which is written as this digit in lowercase. -/
theorem exists_digitChar : ∀ code, isDigit code = true →
    ∃ n < 16, digitValue? code = some (UInt8.ofNat n) ∧ String.utf8EncodeChar (Nat.digitChar n) = [lowerCode code] :=
  forall_byte (by decide +kernel)

/-- The byte that two digits spell is written with these digits in lowercase. -/
theorem digits_pairValue {high low : UInt8} (isHigh : isDigit high = true) (isLow : isDigit low = true) :
    (digits (pairValue high low)).flatMap String.utf8EncodeChar = [lowerCode high, lowerCode low] := by
  obtain ⟨n, hn, valueHigh, writtenHigh⟩ := exists_digitChar high isHigh
  obtain ⟨m, hm, valueLow, writtenLow⟩ := exists_digitChar low isLow
  have spelled : (pairValue high low).toNat = 16 * n + m := by
    have sixteen : UInt8.toNat 16 = 16 := rfl
    rw [pairValue, valueHigh, valueLow, Option.getD_some, Option.getD_some, UInt8.toNat_add, UInt8.toNat_mul, sixteen,
      UInt8.toNat_ofNat_of_lt' (by omega : n < 256), UInt8.toNat_ofNat_of_lt' (by omega : m < 256)]
    omega
  have quotient : (16 * n + m) / 16 = n := by omega
  have remainder : (16 * n + m) % 16 = m := by omega
  rw [digits, spelled, quotient, remainder, List.flatMap_cons, List.flatMap_cons, writtenHigh, writtenLow]
  rfl

/-- The bytes that pairs of digits spell are written with the same digits in lowercase. -/
theorem ofText_encode_pairs (codes : Bytes) (even : codes.length % 2 = 0) (digit : ∀ code ∈ codes, isDigit code = true) :
    Bytes.ofText (encode (pairs codes)) = codes.map lowerCode := by
  rw [Bytes.ofText, encode, String.toList_ofList]
  fun_induction pairs codes with
  | case1 high low rest ih =>
    have even : rest.length % 2 = 0 := by
      simp only [List.length_cons] at even
      omega
    rw [List.flatMap_cons, List.flatMap_append, digits_pairValue (digit high (by simp)) (digit low (by simp)),
      ih even fun code h => digit code (by simp [h])]
    rfl
  | case2 codes short =>
    rcases codes with _ | ⟨high, _ | ⟨low, rest⟩⟩
    · rfl
    · cases even
    · exact absurd rfl (short high low rest)

/-- The text with its hexadecimal digits in lowercase. -/
def lowered (text : String) : String :=
  String.ofList (text.toList.map lowerDigit)

theorem ofText_lowered (text : String) : Bytes.ofText (lowered text) = (Bytes.ofText text).map lowerCode := by
  rw [Bytes.ofText, lowered, String.toList_ofList, ← map_lowerCode_ofText]
  rfl

/-- What a text spells is written as the text in lowercase. -/
theorem encode_pairs {text : String} (spells : Spells text) : encode (pairs (Bytes.ofText text)) = lowered text := by
  apply Bytes.ofText_inj
  rw [ofText_encode_pairs _ spells.1 spells.2, ofText_lowered]

end Text.Hex

namespace Hash

open Text

/-- Reading a text as a hash fails where its decoding does, and says so as invalid hexadecimal text. -/
theorem orInvalidHex_ofHex_eq_error_iff (text : String) (fault : Fault) :
    Boundary.orInvalidHex (ofHex text) = .error fault ↔ ∃ e, fault = .invalidHex e ∧ Hex.decode text = .error e := by
  rw [ofHex]
  constructor
  · intro refused
    cases decoded : Hex.decode text with
    | ok bytes =>
      rw [decoded] at refused
      cases refused
    | error e =>
      rw [decoded] at refused
      cases refused
      exact ⟨e, rfl, rfl⟩
  · rintro ⟨e, rfl, refused⟩
    rw [refused]
    rfl

/-- A text that spells bytes is read as the hash that is spelled by the text in lowercase. -/
theorem exists_ofHex_of_spells {text : String} (spells : Hex.Spells text) :
    ∃ hash, Boundary.orInvalidHex (ofHex text) = .ok hash ∧ hash.hex = Hex.lowered text := by
  refine ⟨⟨Hex.pairs (Bytes.ofText text)⟩, ?_, Hex.encode_pairs spells⟩
  rw [ofHex, Hex.decode_of_spells spells]
  rfl

/-- Only texts that spell bytes are read as a hash. -/
theorem spells_of_ofHex {text : String} {hash : Hash} (read : Boundary.orInvalidHex (ofHex text) = .ok hash) : Hex.Spells text := by
  by_contra other
  obtain ⟨e, refused⟩ := Hex.decode_of_not_spells other
  have error := (orInvalidHex_ofHex_eq_error_iff text (.invalidHex e)).2 ⟨e, rfl, refused⟩
  rw [read] at error
  cases error

/-- The causes for which a text is refused: an odd number of bytes, and if it is even, the first byte that is no digit. -/
inductive NotSpelled (text : String) : Hex.Error → Prop where
  | oddLength (odd : (Bytes.ofText text).length % 2 = 1) : NotSpelled text .oddLength
  | invalidDigit {bad : UInt8} {position : Nat} (even : (Bytes.ofText text).length % 2 = 0)
    (first : Hex.FirstBad (Bytes.ofText text) bad position) : NotSpelled text (.invalidDigit bad position)

theorem notSpelled_iff (text : String) (e : Hex.Error) : NotSpelled text e ↔ Hex.decode text = .error e := by
  cases e with
  | oddLength =>
    rw [Hex.decode_eq_oddLength_iff]
    constructor
    · rintro (odd | _)
      exact odd
    · exact .oddLength
  | invalidDigit bad position =>
    rw [Hex.decode_eq_invalidDigit_iff]
    constructor
    · rintro (_ | ⟨even, first⟩)
      exact ⟨even, first⟩
    · rintro ⟨even, first⟩
      exact .invalidDigit even first

/-- The texts of a hash and what is read from texts. A hash is shown by its spelling and read back from it, and from its JSON text too.
A text is read as a hash if and only if its UTF-8 bytes are an even number of hexadecimal digits, and the hash that it is read as is
spelled by the same text in lowercase. Any other text is refused as invalid hexadecimal text: for an odd number of bytes, whatever these
are, and otherwise for the first byte that is no digit, with its position. -/
theorem text_forms :
    (∀ hash : Hash, Boundary.orInvalidHex (ofHex hash.hex) = .ok hash ∧ toString hash = hash.hex ∧
        reader.readAll hash.toJson.render = .ok hash) ∧
      (∀ code, Hex.isDigit code = true ↔ code ∈ Bytes.ofText "0123456789ABCDEFabcdef") ∧
      ∀ text,
        ((∃ hash, Boundary.orInvalidHex (ofHex text) = .ok hash) ↔
            (Bytes.ofText text).length % 2 = 0 ∧ ∀ code ∈ Bytes.ofText text, Hex.isDigit code = true) ∧
          (∀ hash, Boundary.orInvalidHex (ofHex text) = .ok hash → hash.hex = Hex.lowered text) ∧
          ∀ fault, Boundary.orInvalidHex (ofHex text) = .error fault ↔ ∃ e, fault = .invalidHex e ∧ NotSpelled text e := by
  refine ⟨fun hash => ⟨?_, rfl, readAll_render hash⟩, Hex.isDigit_iff_mem, fun text => ⟨⟨?_, ?_⟩, ?_, ?_⟩⟩
  · rw [ofHex_hex]
    rfl
  · rintro ⟨hash, read⟩
    exact spells_of_ofHex read
  · intro spells
    obtain ⟨hash, read, -⟩ := exists_ofHex_of_spells spells
    exact ⟨hash, read⟩
  · intro hash read
    obtain ⟨hash', read', spelling⟩ := exists_ofHex_of_spells (spells_of_ofHex read)
    rw [read] at read'
    cases read'
    exact spelling
  · intro fault
    simp only [orInvalidHex_ofHex_eq_error_iff, notSpelled_iff]

/-- Mixed case is read and written in lowercase. A letter of two bytes is found bad at its first byte where the number of bytes is even,
and is not looked at where it is odd. -/
theorem text_forms_accented :
    (∀ hash, Boundary.orInvalidHex (ofHex "0aF9") = .ok hash → hash.hex = "0af9") ∧
      Boundary.orInvalidHex (ofHex "0Fé") = .error (.invalidHex (.invalidDigit 0xC3 2)) ∧
      Boundary.orInvalidHex (ofHex "éa") = .error (.invalidHex .oddLength) := by
  obtain ⟨-, -, texts⟩ := text_forms
  refine ⟨(texts "0aF9").2.1, ?_, ?_⟩
  · have first : Hex.FirstBad (Bytes.ofText "0Fé") 0xC3 2 := ⟨[0x30, 0x46], [0xA9], by decide, rfl, List.all_eq_true.1 rfl, by decide⟩
    exact ((texts "0Fé").2.2 _).2 ⟨_, rfl, .invalidDigit (by decide) first⟩
  · exact ((texts "éa").2.2 _).2 ⟨_, rfl, .oddLength (by decide)⟩

end Hash

end SealedLedger
