import Mathlib.Data.List.Forall2

/-!
# Histories of changes

A state is reached from a first one by changes in order. A part of it that changes replace is what the last one of its kind gave
(`History.foldl_eq_last?`), and a part that only some changes touch is what these alone make of it, however the others come in
between (`History.foldl_filter`).
-/

namespace SealedLedger.History

variable {state change α : Type}

/-- What the last change of a kind gave, if there was one. -/
def last? (given? : change → Option α) (changes : List change) : Option α :=
  (changes.filterMap given?).getLast?

/-- If there was a change of a kind, there was a last one. -/
theorem isSome_last? {given? : change → Option α} {changes : List change} {c : change} {a : α} (made : c ∈ changes)
    (given : given? c = some a) : (last? given? changes).isSome := by
  rw [last?, List.getLast?_isSome]
  exact List.ne_nil_of_mem (List.mem_filterMap.2 ⟨c, made, given⟩)

/-- The last change of a kind is a later one, or else an earlier one. -/
theorem last?_append (given? : change → Option α) (earlier later : List change) :
    last? given? (earlier ++ later) = (last? given? later).or (last? given? earlier) := by
  rw [last?, List.filterMap_append, List.getLast?_append]
  rfl

/-- Changes of another kind may be left out. -/
theorem last?_filter {given? : change → Option α} {about : change → Bool} (other : ∀ c, about c = false → given? c = none)
    (changes : List change) : last? given? (changes.filter about) = last? given? changes := by
  rw [last?, last?, List.filterMap_filter]
  refine congrArg List.getLast? (List.filterMap_congr fun c _ => ?_)
  split
  · rfl
  · next apart => exact (other c (by simpa using apart)).symm

/-- A part that every change of a kind replaces, and no other change touches, is what the last one gave. -/
theorem foldl_eq_last? (step : state → change → state) (part : state → Option α) (given? : change → Option α)
    (replaces : ∀ s c, part (step s c) = (given? c).or (part s)) (changes : List change) (s : state) :
    part (changes.foldl step s) = (last? given? changes).or (part s) := by
  induction changes generalizing s with
  | nil => rfl
  | cons c changes ih =>
    rw [List.foldl_cons, ih, replaces]
    unfold last?
    cases given : given? c with
    | none => rw [List.filterMap_cons_none given, Option.none_or]
    | some a =>
      rw [List.filterMap_cons_some given, List.getLast?_cons, Option.some_or, Option.some_or]
      cases (changes.filterMap given?).getLast? <;> rfl

/-- The same of a part that is always there. -/
theorem foldl_eq_getD_last? (step : state → change → state) (part : state → α) (given? : change → Option α)
    (replaces : ∀ s c, part (step s c) = (given? c).getD (part s)) (changes : List change) (s : state) :
    part (changes.foldl step s) = (last? given? changes).getD (part s) := by
  have present : ∀ s c, some (part (step s c)) = (given? c).or (some (part s)) := by
    intro s c
    rw [replaces, Option.or_some]
  have last := foldl_eq_last? step (fun s => some (part s)) given? present changes s
  rwa [Option.or_some, Option.some.injEq] at last

variable {step : state → change → state} {touches : change → Bool} {part : state → α}

/-- Changes that do not touch a part leave it to those that do. -/
theorem foldl_filter (own : ∀ s s' c, part s = part s' → part (step s c) = part (step s' c))
    (frame : ∀ s c, touches c = false → part (step s c) = part s) (changes : List change) {s s' : state} (h : part s = part s') :
    part (changes.foldl step s) = part ((changes.filter touches).foldl step s') := by
  induction changes generalizing s s' with
  | nil => exact h
  | cons c changes ih =>
    cases hc : touches c with
    | true =>
      rw [List.filter_cons_of_pos hc]
      exact ih (own s s' c h)
    | false =>
      rw [List.filter_cons_of_neg (by simp [hc])]
      exact ih ((frame s c hc).trans h)

/-- Histories in which the changes that touch a part are alike, one by one, make the same of it. -/
theorem foldl_congr {Alike : change → change → Prop} (refl : ∀ c, Alike c c)
    (own : ∀ s s' c c', part s = part s' → Alike c c' → part (step s c) = part (step s' c'))
    (frame : ∀ s c, touches c = false → part (step s c) = part s) {changes changes' : List change}
    (alike : List.Forall₂ Alike (changes.filter touches) (changes'.filter touches)) (s : state) :
    part (changes.foldl step s) = part (changes'.foldl step s) := by
  have run : ∀ {cs cs'}, List.Forall₂ Alike cs cs' → ∀ {s s'}, part s = part s' →
      part (cs.foldl step s) = part (cs'.foldl step s') := by
    intro cs cs' related
    induction related with
    | nil => exact fun h => h
    | cons one _ ih => exact fun h => ih (own _ _ _ _ h one)
  have alone := fun s s' c (h : part s = part s') => own s s' c c h (refl c)
  rw [foldl_filter alone frame changes (rfl : part s = part s), foldl_filter alone frame changes' (rfl : part s = part s)]
  exact run alike rfl

end SealedLedger.History
