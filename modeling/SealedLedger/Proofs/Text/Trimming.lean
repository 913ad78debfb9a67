import Mathlib.Data.List.TakeWhile
import SealedLedger.Text.Blank

/-!
# What trimming leaves

Trimming cuts blanks off both ends (`exists_trimChars`) and leaves characters without a blank at either end (`trimmed_trimChars`), so
blanks that are put around a text make no difference to it (`trimChars_append`). Characters that are trimmed already stay as they are
(`Trimmed.trimChars_eq`), and mapping characters commutes with trimming if blanks are mapped to blanks and others to others
(`map_trimChars`).
-/

namespace SealedLedger.Text

/-- Blanks around characters are trimmed. -/
theorem trimChars_append {before after : List Char} (blank : ∀ c ∈ before ++ after, isBlank c = true) (core : List Char) :
    trimChars (before ++ core ++ after) = trimChars core := by
  have front : ∀ c ∈ before, isBlank c = true := fun c hc => blank c (List.mem_append_left _ hc)
  have back : ∀ c ∈ after, isBlank c = true := fun c hc => blank c (List.mem_append_right _ hc)
  have back' : ∀ c ∈ after.reverse, isBlank c = true := fun c hc => back c (List.mem_reverse.1 hc)
  rw [trimChars, trimChars, List.append_assoc, List.dropWhile_append_of_pos front, List.dropWhile_append]
  split
  · next none =>
    rw [List.isEmpty_iff.1 none, List.dropWhile_eq_nil_iff.2 back]
  · rw [List.reverse_append, List.dropWhile_append_of_pos back']

theorem map_trimChars {f : Char → Char} (kept : ∀ c, isBlank (f c) = isBlank c) (cs : List Char) :
    (trimChars cs).map f = trimChars (cs.map f) := by
  have same : isBlank ∘ f = isBlank := funext kept
  rw [trimChars, trimChars, List.dropWhile_map, ← List.map_reverse, List.dropWhile_map, ← List.map_reverse, same]

/-- Without the blanks in front, characters are what trimming leaves of them, with blanks behind. -/
theorem exists_dropWhile_eq_append (cs : List Char) :
    ∃ after, cs.dropWhile isBlank = trimChars cs ++ after ∧ ∀ c ∈ after, isBlank c = true := by
  have back := List.takeWhile_append_dropWhile (p := isBlank) (l := (cs.dropWhile isBlank).reverse)
  refine ⟨((cs.dropWhile isBlank).reverse.takeWhile isBlank).reverse, ?_, ?_⟩
  · rw [trimChars, ← List.reverse_append, back, List.reverse_reverse]
  · intro c hc
    exact List.mem_takeWhile_imp (List.mem_reverse.1 hc)

/-- Characters are what trimming leaves of them, with blanks around. -/
theorem exists_trimChars (cs : List Char) :
    ∃ before after, cs = before ++ trimChars cs ++ after ∧ ∀ c ∈ before ++ after, isBlank c = true := by
  obtain ⟨after, parts, blank⟩ := exists_dropWhile_eq_append cs
  refine ⟨cs.takeWhile isBlank, after, ?_, ?_⟩
  · rw [List.append_assoc, ← parts, List.takeWhile_append_dropWhile]
  · intro c hc
    rcases List.mem_append.1 hc with hc | hc
    · exact List.mem_takeWhile_imp hc
    · exact blank c hc

/-- Characters neither start nor end with a blank. -/
structure Trimmed (cs : List Char) : Prop where
  first : ∀ c rest, cs = c :: rest → isBlank c = false
  last : ∀ c rest, cs.reverse = c :: rest → isBlank c = false

theorem Trimmed.reverse {cs : List Char} (trimmed : Trimmed cs) : Trimmed cs.reverse := by
  refine ⟨trimmed.last, ?_⟩
  rw [List.reverse_reverse]
  exact trimmed.first

theorem isBlank_of_dropWhile_eq_cons {cs : List Char} {c : Char} {rest : List Char} (h : cs.dropWhile isBlank = c :: rest) :
    isBlank c = false := by
  have head := List.head?_dropWhile_not isBlank cs
  rwa [h] at head

theorem trimmed_trimChars (cs : List Char) : Trimmed (trimChars cs) where
  first c rest h := by
    obtain ⟨after, parts, -⟩ := exists_dropWhile_eq_append cs
    rw [h, List.cons_append] at parts
    exact isBlank_of_dropWhile_eq_cons parts
  last c rest h := by
    rw [trimChars, List.reverse_reverse] at h
    exact isBlank_of_dropWhile_eq_cons h

theorem Trimmed.dropWhile_eq {cs : List Char} (trimmed : Trimmed cs) : cs.dropWhile isBlank = cs := by
  cases cs with
  | nil => rfl
  | cons c rest => rw [List.dropWhile_cons_of_neg (by simp [trimmed.first c rest rfl])]

/-- Nothing is trimmed off characters without a blank at either end. -/
theorem Trimmed.trimChars_eq {cs : List Char} (trimmed : Trimmed cs) : trimChars cs = cs := by
  rw [trimChars, trimmed.dropWhile_eq, trimmed.reverse.dropWhile_eq, List.reverse_reverse]

end SealedLedger.Text
