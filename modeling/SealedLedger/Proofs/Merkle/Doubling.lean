import SealedLedger.Proofs.Block.Commitment

/-!
# Lists that a Merkle root does not tell apart

A level of odd width doubles its last node, so a list that ends in that node once more has the same level above it. This happens
on every level: where the number of leaves is `2 ^ k` times an odd number, the last `2 ^ k` leaves make up the last node of the
first odd level, and to append them once more goes unseen (`Engine.merkleRoot_doubled`, by induction on `k`, one level at a time).
An odd number of one is an exception, since a level of one node is the last. From `k = 1` on, neither list ends in the same leaf
twice unless the other does. Main statement: `Combiner.doubling_goes_unseen`.
-/

namespace SealedLedger

namespace Merkle

variable {α : Type} {join : Hash → Hash → Hash}

/-- A list with its last items, as many as `count`, once more at its end. -/
def doubled (count : Nat) (items : List α) : List α :=
  items ++ items.drop (items.length - count)

theorem map_doubled {β : Type} (f : α → β) (count : Nat) (items : List α) :
    (doubled count items).map f = doubled count (items.map f) := by
  rw [doubled, doubled, List.map_append, List.map_drop, List.length_map]

/-- Above a level of odd width, the last node once more makes no difference. -/
theorem up_doubled_one {nodes : List Hash} (odd : nodes.length % 2 = 1) : up join (doubled 1 nodes) = up join nodes := by
  obtain ⟨init, last, rfl⟩ : ∃ init last, nodes = init ++ [last] := by
    have some := List.length_pos_iff.1 (by omega : 0 < nodes.length)
    exact ⟨nodes.dropLast, nodes.getLast some, (List.dropLast_concat_getLast some).symm⟩
  have even : init.length % 2 = 0 := by
    rw [List.length_append, List.length_singleton] at odd
    omega
  have again : doubled 1 (init ++ [last]) = init ++ [last, last] := by
    simp [doubled]
  rw [again, up, up, pairs_append _ _ even, pairs_append _ _ even]
  rfl

/-- Above a level of even width, an even number of last nodes once more is half that number once more. -/
theorem up_doubled_even {nodes : List Hash} {count : Nat} (even : nodes.length % 2 = 0) :
    up join (doubled (2 * count) nodes) = doubled count (up join nodes) := by
  have half : nodes.length - 2 * count = 2 * ((up join nodes).length - count) := by
    rw [length_up]
    omega
  rw [doubled, doubled, half, ← up_drop, up, pairs_append _ _ even, List.map_append]
  rfl

/-! ## The last two items -/

/-- A list ends in the same item twice. -/
def EndsTwice (items : List α) : Prop :=
  ∃ last, [last, last] <:+ items

/-- Whether a list ends in the same item twice is decided by its last two items. -/
theorem endsTwice_iff_of_suffix {items tail : List α} (suffix : tail <:+ items) (two : 2 ≤ tail.length) :
    EndsTwice items ↔ EndsTwice tail := by
  constructor
  · rintro ⟨last, twice⟩
    exact ⟨last, List.suffix_of_suffix_length_le twice suffix two⟩
  · rintro ⟨last, twice⟩
    exact ⟨last, twice.trans suffix⟩

theorem endsTwice_pair_iff (x y : α) : EndsTwice [x, y] ↔ x = y := by
  constructor
  · rintro ⟨last, twice⟩
    have same := twice.eq_of_length rfl
    simp only [List.cons.injEq, and_true] at same
    exact same.1.symm.trans same.2
  · rintro rfl
    exact ⟨x, List.suffix_refl _⟩

/-- With at least two items appended once more, a list ends in the same item twice if and only if it did before. -/
theorem endsTwice_doubled_iff {items : List α} {count : Nat} (two : 2 ≤ count) (enough : count ≤ items.length) :
    EndsTwice (doubled count items) ↔ EndsTwice items := by
  have long : 2 ≤ (items.drop (items.length - count)).length := by
    rw [List.length_drop]
    omega
  rw [doubled, endsTwice_iff_of_suffix (List.suffix_append items _) long, endsTwice_iff_of_suffix (List.drop_suffix _ items) long]

/-- Items of any length from two on, whose images under a map do not end in the same one twice, can be had from any two items
with different images. -/
theorem exists_not_endsTwice {β : Type} (f : α → β) {x y : α} (differ : f x ≠ f y) {length : Nat} (two : 2 ≤ length) :
    ∃ items : List α, items.length = length ∧ (∀ item ∈ items, item = x ∨ item = y) ∧ ¬EndsTwice (items.map f) := by
  refine ⟨List.replicate (length - 2) x ++ [x, y], ?_, ?_, ?_⟩
  · simp only [List.length_append, List.length_replicate, List.length_cons, List.length_nil]
    omega
  · intro item h
    rcases List.mem_append.1 h with h | h
    · exact Or.inl (List.eq_of_mem_replicate h)
    · simpa using h
  · rw [List.map_append, endsTwice_iff_of_suffix (List.suffix_append _ ([x, y].map f)) (Nat.le_refl 2)]
    exact fun twice => differ ((endsTwice_pair_iff (f x) (f y)).1 twice)

end Merkle

open Merkle

/-- Where the number of leaves is `2 ^ k` times an odd number above one, the last `2 ^ k` leaves once more leave the root as it
is. -/
theorem Engine.merkleRoot_doubled (engine : Engine) (algorithm : Algorithm) {k m : Nat} (odd : m % 2 = 1) (many : 3 ≤ m)
    {leaves : List Hash} (width : leaves.length = m * 2 ^ k) :
    engine.merkleRoot algorithm (doubled (2 ^ k) leaves) = engine.merkleRoot algorithm leaves := by
  have wide : ∀ {nodes : List Hash} {k}, nodes.length = m * 2 ^ k → 1 < nodes.length := by
    intro nodes k hn
    have := Nat.mul_le_mul many (Nat.one_le_two_pow (n := k))
    omega
  have wider : ∀ {nodes : List Hash} {count}, 1 < nodes.length → 1 < (doubled count nodes).length := by
    intro nodes count h
    rw [doubled, List.length_append]
    omega
  induction k generalizing leaves with
  | zero =>
    rw [Nat.pow_zero, Nat.mul_one] at width
    rw [engine.merkleRoot_up algorithm (wider (by omega)), engine.merkleRoot_up algorithm (by omega : 1 < leaves.length),
      Nat.pow_zero, up_doubled_one (by omega)]
  | succ k ih =>
    have more := wide width
    have twice : leaves.length = 2 * (m * 2 ^ k) := by
      rw [width, Nat.pow_succ', Nat.mul_left_comm]
    rw [engine.merkleRoot_up algorithm (wider more), engine.merkleRoot_up algorithm more, Nat.pow_succ',
      up_doubled_even (by omega), ih (by rw [length_up]; omega)]

/-- Drafts that differ in their transactions only, whose leaves have one root, are sealed at one time to twins. -/
theorem Draft.twin_of_roots (combiner : Combiner) {draft : Draft} {transactions : List Transaction} {now now' : Int64}
    (time : draft.timestamp.getD now = draft.timestamp.getD now')
    (roots : ∀ algorithm, combiner.engine.merkleRoot algorithm (Block.leaves transactions) =
      combiner.engine.merkleRoot algorithm (Block.leaves draft.transactions)) :
    (draft.sealWith combiner now).value.Twin combiner.engine
      ((draft.edit (.transactions transactions)).sealWith combiner now').value :=
  (Block.settled_sealWith combiner now draft).twin (Block.settled_sealWith combiner now' _) rfl rfl rfl time.symm (roots _)

/-- The last leaves once more go unseen, however many the doubling of a last node covers. Let the number of leaves be `2 ^ k` times
an odd number above one. Then the last `2 ^ k` leaves once more do not change the root, and a draft that lists the last `2 ^ k`
transactions once more is sealed, at the same time, to a block with the same root and the same hash; both blocks verify, and a
block that names one of them as its predecessor names the other one too. To refuse lists that end in the same leaf twice is no
remedy unless `k` is zero: the longer list ends so only if the shorter one does, which no list of two different leaves has to. -/
theorem Combiner.doubling_goes_unseen (combiner : Combiner) {k m : Nat} (odd : m % 2 = 1) (many : 3 ≤ m) :
    (∀ leaves algorithm, leaves.length = m * 2 ^ k →
        (combiner.merkleRootWith (doubled (2 ^ k) leaves) algorithm).value = (combiner.merkleRootWith leaves algorithm).value) ∧
      (∀ (draft : Draft) now now', draft.transactions.length = m * 2 ^ k →
        draft.timestamp.getD now = draft.timestamp.getD now' →
        (draft.sealWith combiner now).value.Twin combiner.engine
          ((draft.edit (.transactions (doubled (2 ^ k) draft.transactions))).sealWith combiner now').value) ∧
        (1 ≤ k →
          (∀ leaves : List Hash, leaves.length = m * 2 ^ k → (EndsTwice (doubled (2 ^ k) leaves) ↔ EndsTwice leaves)) ∧
            ∀ x y : Transaction, x.hash ≠ y.hash → ∃ transactions : List Transaction, transactions.length = m * 2 ^ k ∧
              (∀ transaction ∈ transactions, transaction = x ∨ transaction = y) ∧
                ¬EndsTwice (Block.leaves transactions) ∧ ¬EndsTwice (Block.leaves (doubled (2 ^ k) transactions))) := by
  have root : ∀ {leaves : List Hash} algorithm, leaves.length = m * 2 ^ k →
      combiner.engine.merkleRoot algorithm (doubled (2 ^ k) leaves) = combiner.engine.merkleRoot algorithm leaves :=
    fun algorithm width => combiner.engine.merkleRoot_doubled algorithm odd many width
  refine ⟨?_, ?_, fun one => ?_⟩
  · intro leaves algorithm width
    rw [value_merkleRootWith, value_merkleRootWith, root _ width]
  · intro draft now now' width time
    refine Draft.twin_of_roots combiner time fun algorithm => ?_
    rw [Block.leaves, map_doubled, Block.leaves, root algorithm (by rwa [List.length_map])]
  · have two : 2 ≤ 2 ^ k := Nat.le_self_pow (by omega) 2
    have enough : 2 ^ k ≤ m * 2 ^ k := Nat.le_mul_of_pos_left (2 ^ k) (by omega : 0 < m)
    have same : ∀ leaves : List Hash, leaves.length = m * 2 ^ k → (EndsTwice (doubled (2 ^ k) leaves) ↔ EndsTwice leaves) :=
      fun leaves width => endsTwice_doubled_iff two (by omega)
    refine ⟨same, fun x y differ => ?_⟩
    obtain ⟨transactions, width, mem, once⟩ := exists_not_endsTwice Transaction.hash differ (Nat.le_trans two enough)
    refine ⟨transactions, width, mem, once, ?_⟩
    rw [Block.leaves, map_doubled, same _ (by rwa [List.length_map])]
    exact once

/-- Six transactions and eight, of which the last two are the fifth and the sixth once more: the blocks are twins, and neither ends
in the same leaf twice. -/
theorem Combiner.doubling_goes_unseen_six :
    let plain : Combiner := ⟨Engine.identity, Config.standard⟩
    let signed := fun n => (Transaction.assemble plain "" ⟨[]⟩ [n] 0 .unknown).value
    let six : Draft := Draft.genesis.edit (.transactions ([1, 2, 3, 4, 5, 6].map signed))
    let eight : Draft := Draft.genesis.edit (.transactions ([1, 2, 3, 4, 5, 6, 5, 6].map signed))
    (six.sealWith plain 7).value.Twin plain.engine (eight.sealWith plain 7).value ∧
      ¬EndsTwice (Block.leaves six.transactions) ∧ ¬EndsTwice (Block.leaves eight.transactions) := by
  intro plain signed six eight
  obtain ⟨-, twins, unseen⟩ := doubling_goes_unseen plain (k := 1) (m := 3) (by decide) (by decide)
  have suffix : Block.leaves ([5, 6].map signed) <:+ Block.leaves six.transactions := ⟨Block.leaves ([1, 2, 3, 4].map signed), rfl⟩
  have differ : ¬EndsTwice (Block.leaves ([5, 6].map signed)) := by
    rw [Block.leaves, List.map_map, List.map_cons, List.map_cons, List.map_nil, endsTwice_pair_iff]
    decide
  have once : ¬EndsTwice (Block.leaves six.transactions) :=
    mt (endsTwice_iff_of_suffix suffix (Nat.le_refl 2)).1 differ
  refine ⟨twins six 7 7 rfl rfl, once, ?_⟩
  exact mt ((unseen (Nat.le_refl 1)).1 (Block.leaves six.transactions) rfl).1 once

end SealedLedger
