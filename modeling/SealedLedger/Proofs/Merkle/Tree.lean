import SealedLedger.Proofs.Merkle.Levels

/-!
# Merkle roots as trees

The reduction goes up level by level and doubles a last node wherever a level is odd; a tree over leaves is split from the root
down, always at a power of two. Both give one root, at the least height that has room for the leaves. Two lists that fill a half
each therefore meet only at the root (`Merkle.tree_halves`). Main statement: `Combiner.merkleRoot_splits`.
-/

namespace SealedLedger

namespace Merkle

variable {join : Hash → Hash → Hash}

/-- As many leaves as a power of two need a tree as high as the exponent. -/
theorem height_two_pow (h : Nat) : height (2 ^ h) = h := by
  refine (isLeast_height (2 ^ h)).unique ⟨Nat.le_refl _, fun k hk => ?_⟩
  exact (Nat.pow_le_pow_iff_right (by decide)).1 hk

/-- Leaves that fill the left half of a tree and others that fit its right half are joined at the root. -/
theorem tree_halves {h : Nat} {left right : List Hash} (full : left.length = 2 ^ h) (some : right ≠ []) :
    tree join (h + 1) (left ++ right) = join (tree join h left) (tree join h right) := by
  have many : 2 ^ h < (left ++ right).length := by
    have := List.length_pos_iff.2 some
    rw [List.length_append]
    omega
  rw [tree_of_lt many, List.take_left' full, List.drop_left' full]

/-- A function of leaves that gives the roots of their trees: for some leaves, that of the tree of the least height with room for
them, and for none, a hash of zeros. Lists that fill a half each are joined at the root. -/
structure Splits (join : Hash → Hash → Hash) (digestLength : Nat) (root : List Hash → Hash) : Prop where
  tree : ∀ {leaves : List Hash} {h : Nat}, leaves ≠ [] → IsLeast {k | leaves.length ≤ 2 ^ k} h →
    root leaves = tree join h leaves
  empty : root [] = Hash.zero digestLength
  halves : ∀ {left right : List Hash} {h : Nat}, left.length = 2 ^ h → right.length = 2 ^ h →
    root (left ++ right) = join (root left) (root right)

end Merkle

open Merkle

/-- The roots of an engine are those of the trees over its digests of two nodes side by side. -/
theorem Engine.merkleRoot_tree (engine : Engine) {algorithm : Algorithm} {digestLength : Nat}
    (fixed : algorithm.outputLength = some digestLength) :
    Splits (engine.join algorithm) digestLength (engine.merkleRoot algorithm) := by
  have at_height : ∀ {leaves : List Hash} {h : Nat}, leaves ≠ [] → height leaves.length = h →
      engine.merkleRoot algorithm leaves = tree (engine.join algorithm) h leaves := by
    intro leaves h nonempty least
    rw [merkleRoot, if_neg nonempty, least]
  refine ⟨?_, ?_, ?_⟩
  · intro leaves h nonempty least
    exact at_height nonempty ((isLeast_height leaves.length).unique least)
  · rw [merkleRoot, if_pos rfl, fixed]
    rfl
  · intro left right h fullLeft fullRight
    have some : ∀ {leaves : List Hash}, leaves.length = 2 ^ h → leaves ≠ [] := by
      intro leaves full
      have := Nat.two_pow_pos h
      exact List.length_pos_iff.1 (by omega)
    have both : height (left ++ right).length = h + 1 := by
      rw [List.length_append, fullLeft, fullRight, ← Nat.two_mul, ← Nat.pow_succ', height_two_pow]
    rw [at_height (by simp [some fullLeft]) both, tree_halves fullLeft (some fullRight),
      at_height (some fullLeft) (by rw [fullLeft, height_two_pow]), at_height (some fullRight) (by rw [fullRight, height_two_pow])]

/-- The level-by-level reduction gives the roots of trees that are split from the top down. Whatever engine and configuration a
combiner has and whichever algorithm is asked for, its digests of two nodes under the resolved algorithm make up the tree, and a
list without leaves has as many zeros as such a digest has bytes. An algorithm that has to be given and is, changes nothing; the
root without one is that under the configured algorithm. -/
theorem Combiner.merkleRoot_splits (combiner : Combiner) (algorithm : Algorithm) :
    (∃ digestLength, (combiner.resolve algorithm).value.outputLength = some digestLength ∧
      Splits (combiner.engine.join (combiner.resolve algorithm).value) digestLength fun leaves =>
        (combiner.merkleRootWith leaves algorithm).value) ∧
      (∀ leaves, (combiner.merkleRootRequiring leaves (some algorithm)).map Traced.value =
        .ok (combiner.merkleRootWith leaves algorithm).value) ∧
      ∃ digestLength, combiner.config.fallback.outputLength = some digestLength ∧
        Splits (combiner.engine.join combiner.config.fallback) digestLength fun leaves =>
          (combiner.merkleRoot leaves).value := by
  have splits : ∀ asked, ∃ digestLength, (combiner.resolve asked).value.outputLength = some digestLength ∧
      Splits (combiner.engine.join (combiner.resolve asked).value) digestLength fun leaves =>
        (combiner.merkleRootWith leaves asked).value := by
    intro asked
    obtain ⟨digestLength, fixed⟩ := Option.ne_none_iff_exists'.1
      (mt Algorithm.outputLength_eq_none_iff.1 (combiner.resolve_known asked))
    have roots : (fun leaves => (combiner.merkleRootWith leaves asked).value) =
        combiner.engine.merkleRoot (combiner.resolve asked).value :=
      funext fun leaves => combiner.value_merkleRootWith leaves asked
    exact ⟨digestLength, fixed, roots ▸ combiner.engine.merkleRoot_tree fixed⟩
  refine ⟨splits algorithm, fun leaves => rfl, ?_⟩
  have configured := splits combiner.config.fallback
  rwa [combiner.resolve_of_known combiner.config.fallback_known] at configured

/-- Five leaves: the last one is doubled on all three levels. -/
example : tree (Engine.identity.join .sha1) 3 [⟨[1]⟩, ⟨[2]⟩, ⟨[3]⟩, ⟨[4]⟩, ⟨[5]⟩] = ⟨[1, 2, 3, 4, 5, 5, 5, 5]⟩ := by
  decide

end SealedLedger
