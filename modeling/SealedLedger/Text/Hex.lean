import SealedLedger.Bytes
import SealedLedger.Text.Quoted

/-!
# Hexadecimal text

A byte is written as two hexadecimal digits, the high one first; writing uses lowercase letters and reading takes either case.
Reading works on the UTF-8 bytes of a text, so lengths and positions in its errors count bytes. The length is checked before any
digit. Main statement: reading what was written gives the bytes back (`Hex.decode_encode`).
-/

namespace SealedLedger.Text.Hex

/-- Why a text is no hexadecimal spelling of bytes. -/
inductive Error where
  /-- The text has an odd number of bytes. -/
  | oddLength
  /-- The byte at this position, counted from zero, is no hexadecimal digit. -/
  | invalidDigit (byte : UInt8) (position : Nat)
  deriving DecidableEq

/-- The wording of an error; an offending byte is shown as the character with its number. -/
def Error.message : Error → String
  | .oddLength => "Odd number of digits"
  | .invalidDigit byte position =>
    "Invalid character " ++ quoteChar (Char.ofNat byte.toNat) ++ " at position " ++ toString position

/-- The two digits of a byte. -/
def digits (byte : UInt8) : List Char :=
  [Nat.digitChar (byte.toNat / 16), Nat.digitChar (byte.toNat % 16)]

/-- The lowercase hexadecimal spelling of bytes. -/
def encode (bytes : Bytes) : String :=
  String.ofList (bytes.flatMap digits)

/-- The value of a digit, given by its ASCII code. -/
def digitValue? (code : UInt8) : Option UInt8 :=
  if 48 ≤ code ∧ code ≤ 57 then some (code - 48)
  else if 65 ≤ code ∧ code ≤ 70 then some (code - 55)
  else if 97 ≤ code ∧ code ≤ 102 then some (code - 87)
  else none

/-- Whether a byte is the ASCII code of a hexadecimal digit. -/
def isDigit (code : UInt8) : Bool :=
  (digitValue? code).isSome

/-- The byte that two digits spell, given their ASCII codes. -/
def pairValue (high low : UInt8) : UInt8 :=
  16 * (digitValue? high).getD 0 + (digitValue? low).getD 0

/-- The bytes that pairs of digits spell, given the digits' ASCII codes. -/
def pairs : Bytes → Bytes
  | high :: low :: rest => pairValue high low :: pairs rest
  | _ => []

/-- The bytes that digits spell, given by their ASCII codes. -/
def decodeBytes (codes : Bytes) : Except Error Bytes :=
  if codes.length % 2 = 1 then .error .oddLength
  else
    match codes.findIdx? (fun code => !isDigit code) with
    | some position => .error (.invalidDigit (codes.getD position 0) position)
    | none => .ok (pairs codes)

/-- The bytes a hexadecimal text spells. -/
def decode (text : String) : Except Error Bytes :=
  decodeBytes (Bytes.ofText text)

/-! ## Reading what was written -/

/-- What holds of the 256 numbers below 256 holds of every byte. -/
theorem forall_byte {p : UInt8 → Prop} (h : ∀ n : Nat, n < 256 → p (UInt8.ofNat n)) (b : UInt8) : p b := by
  have hb := h b.toNat b.toNat_lt
  rwa [UInt8.ofNat_toNat] at hb

/-- The UTF-8 bytes of a byte's digits are two digit codes that spell the byte. -/
theorem digits_spell (b : UInt8) :
    ∃ high low, (digits b).flatMap String.utf8EncodeChar = [high, low] ∧ isDigit high = true ∧ isDigit low = true ∧
      pairValue high low = b := by
  refine ⟨(Nat.digitChar (b.toNat / 16)).val.toUInt8, (Nat.digitChar (b.toNat % 16)).val.toUInt8, ?_⟩
  revert b
  refine forall_byte ?_
  decide +kernel

/-- The codes of the digits of bytes are digits, two for each byte, and spell those bytes. -/
theorem pairs_codes (bytes : Bytes) :
    let codes := (bytes.flatMap digits).flatMap String.utf8EncodeChar
    codes.length = 2 * bytes.length ∧ (∀ code ∈ codes, isDigit code = true) ∧ pairs codes = bytes := by
  induction bytes with
  | nil => simp [pairs]
  | cons b bytes ih =>
    obtain ⟨high, low, hc, hh, hl, hb⟩ := digits_spell b
    obtain ⟨ih₁, ih₂, ih₃⟩ := ih
    simp only [List.flatMap_cons, List.flatMap_append, hc]
    refine ⟨by simp [ih₁]; omega, ?_, by simp [pairs, hb, ih₃]⟩
    intro code hmem
    simp only [List.cons_append, List.nil_append, List.mem_cons] at hmem
    rcases hmem with rfl | rfl | hmem
    · exact hh
    · exact hl
    · exact ih₂ code hmem

/-- Reading what was written gives the bytes back. -/
theorem decode_encode (bytes : Bytes) : decode (encode bytes) = .ok bytes := by
  obtain ⟨h₁, h₂, h₃⟩ := pairs_codes bytes
  have hnone : ((bytes.flatMap digits).flatMap String.utf8EncodeChar).findIdx? (fun code => !isDigit code) = none := by
    rw [List.findIdx?_eq_none_iff]
    intro code hcode
    simp [h₂ code hcode]
  rw [decode, encode, Bytes.ofText, String.toList_ofList, decodeBytes, if_neg (by omega), hnone]
  simp [h₃]

end SealedLedger.Text.Hex
