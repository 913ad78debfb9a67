import SealedLedger.Combiner

/-!
# Collisions

No engine is assumed to be injective. Where equal digests should mean equal data, the other way out is a collision: two different
byte strings, out of a given list of them, that the engine gives one digest.
-/

namespace SealedLedger

namespace Engine

/-- Two different byte strings of a list have the same digest. -/
def Collides (engine : Engine) (algorithm : Algorithm) (asked : List Bytes) : Prop :=
  ∃ x ∈ asked, ∃ y ∈ asked, x ≠ y ∧ engine algorithm x = engine algorithm y

/-- Equal digests come from equal data, or from a collision. -/
theorem eq_or_collides {engine : Engine} {algorithm : Algorithm} {asked : List Bytes} {x y : Bytes} (hx : x ∈ asked)
    (hy : y ∈ asked) (h : engine algorithm x = engine algorithm y) : x = y ∨ engine.Collides algorithm asked := by
  by_cases hxy : x = y
  · exact Or.inl hxy
  · exact Or.inr ⟨x, hx, y, hy, hxy, h⟩

/-- A collision out of two byte strings is one between these two. -/
theorem collides_pair_iff {engine : Engine} {algorithm : Algorithm} {x y : Bytes} :
    engine.Collides algorithm [x, y] ↔ x ≠ y ∧ engine algorithm x = engine algorithm y := by
  constructor
  · rintro ⟨a, ha, b, hb, differ, same⟩
    simp only [List.mem_cons, List.not_mem_nil, or_false] at ha hb
    rcases ha with rfl | rfl <;> rcases hb with rfl | rfl
    · exact absurd rfl differ
    · exact ⟨differ, same⟩
    · exact ⟨differ.symm, same.symm⟩
    · exact absurd rfl differ
  · rintro ⟨differ, same⟩
    exact ⟨x, by simp, y, by simp, differ, same⟩

/-- The engine that returns what it is given knows no collisions. -/
theorem identity_not_collides {algorithm : Algorithm} {x y : Bytes} : ¬identity.Collides algorithm [x, y] := by
  intro collision
  obtain ⟨differ, same⟩ := collides_pair_iff.1 collision
  exact differ same

/-- Two hashes that an engine made under one algorithm are equal if the digested bytes are, or if these collide, and not
otherwise. -/
theorem hash_eq_iff {engine : Engine} {algorithm algorithm' : Algorithm} {hash hash' : Hash} {x y : Bytes}
    (made : hash = ⟨engine algorithm x⟩) (made' : hash' = ⟨engine algorithm' y⟩) (same : algorithm = algorithm') :
    hash = hash' ↔ x = y ∨ engine.Collides algorithm [x, y] := by
  subst same
  rw [made, made', Hash.mk.injEq]
  constructor
  · intro h
    exact eq_or_collides (by simp) (by simp) h
  · rintro (rfl | collision)
    · rfl
    · exact (collides_pair_iff.1 collision).2

end Engine

end SealedLedger
