import SealedLedger.Proofs.Text.Spelling

/-!
# What the boundary refuses

The texts that callers hand over are refused for one reason only: between their outer blanks they spell no bytes. A text that may
be left out is not refused for being blank.
-/

namespace SealedLedger

/-- An outcome is a refusal. -/
def Refused {ε α : Type} (outcome : Except ε α) : Prop :=
  ∃ e, outcome = .error e

namespace Boundary

open Text

/-- A text is read as a hash if and only if it spells bytes between its outer blanks. -/
theorem refused_parseHash_iff (text : String) : Refused (parseHash text) ↔ ¬Hex.Spells (trim text) := by
  by_cases h : Hex.Spells (trim text)
  · rw [parseHash, Hash.ofHex, Hex.decode_of_spells h]
    simp [Refused, Except.map, orInvalidHex, h]
  · obtain ⟨e, he⟩ := Hex.decode_of_not_spells h
    rw [parseHash, Hash.ofHex, he]
    simp [Refused, Except.map, orInvalidHex, h]

/-- A text is read as bytes if and only if it spells some between its outer blanks. -/
theorem refused_decodeBytes_iff (text : String) : Refused (decodeBytes text) ↔ ¬Hex.Spells (trim text) := by
  by_cases h : Hex.Spells (trim text)
  · rw [decodeBytes, Hex.decode_of_spells h]
    simp [Refused, h]
  · obtain ⟨e, he⟩ := Hex.decode_of_not_spells h
    rw [decodeBytes, he]
    simp [Refused, h]

/-- An optional text is refused if and only if it is there, is not blank and spells no bytes between its outer blanks. -/
theorem refused_parseOptionalHash_iff (text : Option String) :
    Refused (parseOptionalHash text) ↔ ∃ given, text = some given ∧ ¬Blank given ∧ ¬Hex.Spells (trim given) := by
  cases text with
  | none => simp [parseOptionalHash, Refused]
  | some given =>
    by_cases blank : Blank given
    · have empty := (trim_isEmpty_iff given).2 blank
      simp [parseOptionalHash, Refused, empty, blank]
    · have left : (trim given).isEmpty = false := Bool.eq_false_iff.2 fun h => blank ((trim_isEmpty_iff given).1 h)
      have read := refused_parseHash_iff given
      cases hp : parseHash given with
      | error fault =>
        have bad := read.1 ⟨fault, hp⟩
        simp [parseOptionalHash, Refused, left, hp, blank, bad, Except.map]
      | ok hash =>
        have good : Hex.Spells (trim given) := by
          by_contra bad
          obtain ⟨fault, hf⟩ := read.2 bad
          rw [hp] at hf
          cases hf
        simp [parseOptionalHash, Refused, left, hp, good, Except.map]

end Boundary

end SealedLedger
