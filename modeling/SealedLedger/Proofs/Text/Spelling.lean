import Mathlib.Data.List.TakeWhile
import SealedLedger.Boundary

/-!
# Which texts spell bytes

A text spells bytes if its UTF-8 bytes are hexadecimal digits, an even number of them. Reading succeeds on these texts and on no
others (`Hex.decode_of_spells`, `Hex.decode_of_not_spells`). A text is blank if nothing is left of it between its outer blanks
(`Text.trim_isEmpty_iff`). What the boundary accepts is said in these terms.
-/

namespace SealedLedger

namespace Text

/-- A text of blank characters only. -/
def Blank (text : String) : Prop :=
  ∀ c ∈ text.toList, isBlank c = true

/-- Trimming leaves nothing of blank characters, and something of others. -/
theorem trimChars_eq_nil_iff (cs : List Char) : trimChars cs = [] ↔ ∀ c ∈ cs, isBlank c = true := by
  rw [trimChars, List.reverse_eq_nil_iff, List.dropWhile_eq_nil_iff]
  constructor
  · intro h
    rw [← List.dropWhile_eq_nil_iff]
    by_contra kept
    have first := List.head_dropWhile_not isBlank kept
    have last := h ((cs.dropWhile isBlank).head kept) (by simp)
    rw [first] at last
    cases last
  · intro h c hc
    rw [List.dropWhile_eq_nil_iff.2 h] at hc
    cases hc

/-- A text is blank if and only if trimming leaves nothing. -/
theorem trim_isEmpty_iff (text : String) : (trim text).isEmpty = true ↔ Blank text := by
  rw [String.isEmpty_iff, trim, Blank, ← trimChars_eq_nil_iff]
  constructor
  · intro h
    have hl := congrArg String.toList h
    rwa [String.toList_ofList] at hl
  · intro h
    rw [h]

namespace Hex

/-- A text spells bytes: its UTF-8 bytes are an even number of digits. -/
def Spells (text : String) : Prop :=
  (Bytes.ofText text).length % 2 = 0 ∧ ∀ code ∈ Bytes.ofText text, isDigit code = true

/-- A text that spells bytes is read as those that its pairs of digits stand for. -/
theorem decode_of_spells {text : String} (h : Spells text) : decode text = .ok (pairs (Bytes.ofText text)) := by
  have digits : (Bytes.ofText text).findIdx? (fun code => !isDigit code) = none := by
    rw [List.findIdx?_eq_none_iff]
    intro code hc
    rw [h.2 code hc]
    rfl
  rw [decode, decodeBytes, if_neg (by rw [h.1]; decide), digits]

/-- A text that spells no bytes is refused. -/
theorem decode_of_not_spells {text : String} (h : ¬Spells text) : ∃ e, decode text = .error e := by
  rw [decode, decodeBytes]
  split
  · exact ⟨_, rfl⟩
  · next even =>
    split
    · exact ⟨_, rfl⟩
    · next digits =>
      refine absurd ⟨by omega, fun code hc => ?_⟩ h
      have hd := List.findIdx?_eq_none_iff.1 digits code hc
      simpa using hd

end Hex

end Text

end SealedLedger
