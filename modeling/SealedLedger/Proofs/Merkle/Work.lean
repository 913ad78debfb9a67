import Mathlib.Algebra.Order.Floor.Div
import Mathlib.Algebra.Order.Ring.Nat
import Mathlib.GroupTheory.GroupAction.Ring
import SealedLedger.Proofs.Merkle.Levels

/-!
# The work of a Merkle reduction

A reduction goes round by round. A round digests the neighbours of a level, from left to right, and then reports how many nodes
it leaves; a node without a right neighbour is its own. Halving and rounding up over and over is dividing by a power of two and
rounding up once (`Merkle.ceilDiv_halved`), so each round has a width that depends on nothing but its number and the number of
leaves. Each digest makes one node of two, or one of one where a level is odd. So the digests made so far and the nodes that are
left are always as many as the leaves and the odd levels so far (`Merkle.sum_widths`). Main statement: `Combiner.merkleRoot_work`.
-/

namespace SealedLedger

namespace Merkle

/-! ## Rounds and levels -/

/-- The bytes that are digested for the `j`-th node above a level: node `2 * j`, and node `2 * j + 1` or else the last one. -/
def neighbours (nodes : List Hash) (j : Nat) : Bytes :=
  (nodes.getD (2 * j) default).bytes ++ (nodes.getD (min (2 * j + 1) (nodes.length - 1)) default).bytes

/-- The level so many rounds above leaves, under an engine: its nodes are the digests of neighbours in the level below. -/
def level (engine : Engine) (algorithm : Algorithm) (leaves : List Hash) : Nat → List Hash
  | 0 => leaves
  | i + 1 => (List.range (leaves.length ⌈/⌉ 2 ^ (i + 1))).map fun j =>
    ⟨engine algorithm (neighbours (level engine algorithm leaves i) j)⟩

/-- What a round on a level shows: a question about each pair of neighbours, from left to right, and then the event. -/
def roundEntries (algorithm : Algorithm) (depth width : Nat) (nodes : List Hash) : List Entry :=
  ((List.range width).map fun j => .call algorithm (neighbours nodes j)) ++ [.event (.levelReduced depth width)]

/-- Half of a ceiling, rounded up, is the ceiling for twice the divisor. -/
theorem ceilDiv_halved (n i : Nat) : (n ⌈/⌉ 2 ^ i + 1) / 2 = n ⌈/⌉ 2 ^ (i + 1) := by
  refine eq_of_forall_ge_iff fun c => ?_
  have half : (n ⌈/⌉ 2 ^ i + 1) / 2 ≤ c ↔ n ⌈/⌉ 2 ^ i ≤ 2 * c := by omega
  rw [half, ceilDiv_le_iff_le_mul (Nat.two_pow_pos i), ceilDiv_le_iff_le_mul (Nat.two_pow_pos (i + 1)), Nat.pow_succ,
    Nat.mul_assoc]

/-- Two nodes further on, neighbours are those of what follows the first two nodes. -/
theorem neighbours_cons_cons (left right : Hash) {rest : List Hash} (some : rest ≠ []) (j : Nat) :
    neighbours (left :: right :: rest) (j + 1) = neighbours rest j := by
  have long := List.length_pos_iff.2 some
  have last : min (2 * (j + 1) + 1) ((left :: right :: rest).length - 1) = min (2 * j + 1) (rest.length - 1) + 2 := by
    simp only [List.length_cons]
    omega
  rw [neighbours, last]
  rfl

/-- The pairs of a level, end to end, are its neighbours by number. -/
theorem map_pairs (nodes : List Hash) :
    ((pairs nodes).map fun (left, right) => left.bytes ++ right.bytes) =
      (List.range ((nodes.length + 1) / 2)).map (neighbours nodes) := by
  fun_induction pairs nodes with
  | case1 left right rest ih =>
    have more : ((left :: right :: rest).length + 1) / 2 = (rest.length + 1) / 2 + 1 := by
      simp only [List.length_cons]
      omega
    have first : neighbours (left :: right :: rest) 0 = left.bytes ++ right.bytes := by
      simp [neighbours]
    rw [List.map_cons, ih, more, List.range_succ_eq_map, List.map_cons, List.map_map, first]
    refine congrArg _ (List.map_congr_left fun j hj => (neighbours_cons_cons left right ?_ j).symm)
    rintro rfl
    simp at hj
  | case2 last => simp [neighbours]
  | case3 => rfl

variable (engine : Engine) (algorithm : Algorithm) (leaves : List Hash)

theorem length_level (i : Nat) : (level engine algorithm leaves i).length = leaves.length ⌈/⌉ 2 ^ i := by
  cases i with
  | zero => simp [level]
  | succ i => simp [level]

/-- A level is the one above the level before. -/
theorem level_succ (i : Nat) :
    level engine algorithm leaves (i + 1) = up (engine.join algorithm) (level engine algorithm leaves i) := by
  have digests : up (engine.join algorithm) (level engine algorithm leaves i) =
      ((pairs (level engine algorithm leaves i)).map fun (left, right) => left.bytes ++ right.bytes).map
        fun data => ⟨engine algorithm data⟩ := by
    rw [List.map_map]
    rfl
  rw [digests, map_pairs, length_level, ceilDiv_halved, List.map_map]
  rfl

/-- To go up from the level above the leaves is to go one level further up from the leaves. -/
theorem level_up (i : Nat) :
    level engine algorithm (up (engine.join algorithm) leaves) i = level engine algorithm leaves (i + 1) := by
  induction i with
  | zero => rw [level_succ, level, level]
  | succ i ih => rw [level_succ, ih, ← level_succ]

/-! ## Counting digests -/

/-- The least exponent for which leaves fit is where their levels get down to one node. -/
theorem one_lt_width_iff {n h : Nat} (least : IsLeast {k | n ≤ 2 ^ k} h) (i : Nat) : 1 < n ⌈/⌉ 2 ^ i ↔ i < h := by
  rw [← Nat.not_le, ← Nat.not_le, ceilDiv_le_iff_le_mul (Nat.two_pow_pos i), Nat.mul_one]
  refine not_congr ⟨fun fits => least.2 fits, fun above => ?_⟩
  exact Nat.le_trans least.1 (Nat.pow_le_pow_right (by omega) above)

/-- Where the levels get down to one node, there is one if there are leaves. -/
theorem width_top {n h : Nat} (least : IsLeast {k | n ≤ 2 ^ k} h) (some : n ≠ 0) : n ⌈/⌉ 2 ^ h = 1 := by
  have few := (one_lt_width_iff least h).not.2 (Nat.lt_irrefl h)
  have none : ¬n ⌈/⌉ 2 ^ h ≤ 0 := by
    rw [ceilDiv_le_iff_le_mul (Nat.two_pow_pos h)]
    omega
  omega

/-- After any number of rounds, the digests made and the nodes left are as many as the leaves and the odd levels gone through. -/
theorem sum_widths (n k : Nat) :
    ((List.range k).map fun i => n ⌈/⌉ 2 ^ (i + 1)).sum + n ⌈/⌉ 2 ^ k =
      n + (List.range k).countP fun i => (n ⌈/⌉ 2 ^ i) % 2 = 1 := by
  induction k with
  | zero => simp
  | succ k ih =>
    have halved := ceilDiv_halved n k
    rw [List.range_succ, List.map_append, List.sum_append, List.countP_append, List.map_singleton, List.sum_singleton,
      List.countP_singleton]
    by_cases odd : (n ⌈/⌉ 2 ^ k) % 2 = 1
    · rw [if_pos (decide_eq_true odd)]
      omega
    · rw [if_neg (by simpa using odd)]
      omega

/-- All the way up, the digests are one fewer than the leaves and one more for each level of an odd number of nodes above one. -/
theorem sum_widths_top {n h : Nat} (least : IsLeast {k | n ≤ 2 ^ k} h) :
    ((List.range h).map fun i => n ⌈/⌉ 2 ^ (i + 1)).sum =
      n - 1 + (List.range (h + 1)).countP fun i => (n ⌈/⌉ 2 ^ i) % 2 = 1 ∧ 1 < n ⌈/⌉ 2 ^ i := by
  have below : (List.range h).countP (fun i => (n ⌈/⌉ 2 ^ i) % 2 = 1) =
      (List.range h).countP fun i => (n ⌈/⌉ 2 ^ i) % 2 = 1 ∧ 1 < n ⌈/⌉ 2 ^ i := by
    refine List.countP_congr fun i hi => ?_
    simp [one_lt_width_iff least, List.mem_range.1 hi]
  have top : ¬((n ⌈/⌉ 2 ^ h) % 2 = 1 ∧ 1 < n ⌈/⌉ 2 ^ h) := by simp [one_lt_width_iff least]
  have total := sum_widths n h
  rw [List.range_succ, List.countP_append, List.countP_singleton, ← below, if_neg (by simpa using top), Nat.add_zero]
  by_cases some : n = 0
  · subst some
    simp
  · rw [width_top least some] at total
    omega

end Merkle

namespace Combiner

open Merkle

variable (combiner : Combiner) {algorithm : Algorithm}

theorem entries_reduceLevel (known : algorithm ≠ .unknown) (nodes : List Hash) :
    (combiner.reduceLevel algorithm nodes).entries =
      (List.range ((nodes.length + 1) / 2)).map fun j => .call algorithm (neighbours nodes j) := by
  have asked : (combiner.reduceLevel algorithm nodes).entries =
      ((pairs nodes).map fun (left, right) => left.bytes ++ right.bytes).map fun data => .call algorithm data := by
    rw [reduceLevel_of_known combiner known, Traced.entries_forEach, List.map_map, List.map_eq_flatMap]
    rfl
  rw [asked, map_pairs, List.map_map]
  rfl

/-- A reduction ends in the level that is as many rounds up as the tree is high. -/
theorem value_reduceFrom_level (known : algorithm ≠ .unknown) (depth : Nat) (nodes : List Hash) :
    (combiner.reduceFrom algorithm depth nodes).value = level combiner.engine algorithm nodes (height nodes.length) := by
  induction hh : height nodes.length generalizing depth nodes with
  | zero =>
    rw [reduceFrom_of_le _ _ _ (le_one_of_height hh)]
    rfl
  | succ k ih =>
    obtain ⟨many, hk⟩ := one_lt_of_height hh
    rw [reduceFrom_of_lt _ _ _ many, Traced.value_bind, Traced.value_bind, value_reduceLevel combiner known,
      ih (depth + 1) _ (by rw [length_up, hk]), level_up]

/-- A reduction shows its rounds in order and nothing else. -/
theorem entries_reduceFrom (known : algorithm ≠ .unknown) (depth : Nat) (nodes : List Hash) :
    (combiner.reduceFrom algorithm depth nodes).entries =
      (List.range (height nodes.length)).flatMap fun i =>
        roundEntries algorithm (depth + i) (nodes.length ⌈/⌉ 2 ^ (i + 1)) (level combiner.engine algorithm nodes i) := by
  induction hh : height nodes.length generalizing depth nodes with
  | zero =>
    rw [reduceFrom_of_le _ _ _ (le_one_of_height hh)]
    rfl
  | succ k ih =>
    obtain ⟨many, hk⟩ := one_lt_of_height hh
    have later : ∀ i, (nodes.length + 1) / 2 ⌈/⌉ 2 ^ i = nodes.length ⌈/⌉ 2 ^ (i + 1) := by
      intro i
      rw [← length_up (combiner.engine.join algorithm), ← length_level combiner.engine algorithm,
        level_up, length_level]
    have next : (nodes.length + 1) / 2 = nodes.length ⌈/⌉ 2 ^ (0 + 1) := by
      rw [← later, Nat.pow_zero, ceilDiv_one]
    have deeper : ∀ i, depth + 1 + i = depth + i.succ := by omega
    rw [reduceFrom_of_lt _ _ _ many, Traced.entries_bind, Traced.entries_bind, entries_reduceLevel combiner known,
      value_reduceLevel combiner known, ih (depth + 1) _ (by rw [length_up, hk]), length_up, List.range_succ_eq_map,
      List.flatMap_cons, List.flatMap_map, roundEntries, ← next, List.append_assoc]
    simp only [later, level_up, deeper]
    rfl

/-- A Merkle root shows the resolving of its algorithm and then the rounds of its reduction. -/
theorem entries_merkleRootWith (leaves : List Hash) (algorithm : Algorithm) :
    (combiner.merkleRootWith leaves algorithm).entries =
      (combiner.resolve algorithm).entries ++ (List.range (height leaves.length)).flatMap fun i =>
        roundEntries (combiner.resolve algorithm).value i (leaves.length ⌈/⌉ 2 ^ (i + 1))
          (level combiner.engine (combiner.resolve algorithm).value leaves i) := by
  have known := combiner.resolve_known algorithm
  have none_for_empty : (combiner.emptyRoot (combiner.resolve algorithm).value).entries = [] := by
    rw [emptyRoot_of_known combiner known, Traced.entries_pure]
  simp only [merkleRootWith, Traced.entries_bind, entries_reduceFrom combiner known, Nat.zero_add]
  split
  · rw [Traced.entries_pure, List.append_nil]
  · rw [none_for_empty, List.append_nil]

/-- The rounds of a Merkle root ask about as many pairs as they leave nodes. -/
theorem length_calls_merkleRootWith (leaves : List Hash) (algorithm : Algorithm) :
    (combiner.merkleRootWith leaves algorithm).calls.length =
      ((List.range (height leaves.length)).map fun i => leaves.length ⌈/⌉ 2 ^ (i + 1)).sum := by
  have none := combiner.calls_resolve algorithm
  rw [Traced.calls] at none ⊢
  rw [entries_merkleRootWith, List.filterMap_append, none, List.nil_append, List.filterMap_flatMap, List.length_flatMap]
  simp [roundEntries]

/-- The rounds of a Merkle root are reported by their numbers, each with its width. -/
theorem events_merkleRootWith (leaves : List Hash) (algorithm : Algorithm) :
    (combiner.merkleRootWith leaves algorithm).events =
      (combiner.resolve algorithm).events ++
        (List.range (height leaves.length)).map fun i => .levelReduced i (leaves.length ⌈/⌉ 2 ^ (i + 1)) := by
  rw [Traced.events, Traced.events, entries_merkleRootWith, List.filterMap_append, List.filterMap_flatMap, List.map_eq_flatMap]
  simp [roundEntries]

/-- The level after the last round is the root and nothing else. -/
theorem level_height (algorithm : Algorithm) {leaves : List Hash} (some : leaves ≠ []) :
    level combiner.engine (combiner.resolve algorithm).value leaves (height leaves.length) =
      [(combiner.merkleRootWith leaves algorithm).value] := by
  have known := combiner.resolve_known algorithm
  rw [← value_reduceFrom_level combiner known 0, value_reduceFrom combiner known 0 some, value_merkleRootWith,
    Engine.merkleRoot, if_neg some]

/-- The last event of a Merkle root of two leaves or more is the round that leaves one node. -/
theorem getLast?_events_merkleRootWith (algorithm : Algorithm) {leaves : List Hash} (many : 1 < leaves.length) :
    (combiner.merkleRootWith leaves algorithm).events.getLast? = some (.levelReduced (height leaves.length - 1) 1) := by
  have one := width_top (isLeast_height leaves.length) (by omega)
  rw [events_merkleRootWith]
  cases hh : height leaves.length with
  | zero => exact absurd (le_one_of_height hh) (by omega)
  | succ k =>
    rw [hh] at one
    rw [List.range_succ, List.map_append, ← List.append_assoc, List.map_singleton, List.getLast?_concat, one]
    rfl

/-- A Merkle root of one leaf at most takes no round. -/
theorem entries_merkleRootWith_of_le (algorithm : Algorithm) {leaves : List Hash} (few : leaves.length ≤ 1) :
    (combiner.merkleRootWith leaves algorithm).entries = (combiner.resolve algorithm).entries := by
  rw [entries_merkleRootWith, height, if_pos few]
  exact List.append_nil _

/-- The work of a Merkle root, entry by entry. Let `h` be the least exponent for which the leaves are at most `2 ^ h`. After an
unknown algorithm has been replaced, there are `h` rounds and nothing else. Each round asks about the neighbours of its level from
left to right and then reports its number and the width of the level above, and that is the number of leaves over a power of two,
rounded up. The level after the last round is the root, if there are leaves. So the questions are one fewer than the leaves and
one more for each level of an odd number of nodes above one, and the last event has width one; at most one leaf takes neither
question nor round. -/
theorem merkleRoot_work (leaves : List Hash) (algorithm : Algorithm) {h : Nat} (least : IsLeast {k | leaves.length ≤ 2 ^ k} h) :
    let asked := (combiner.resolve algorithm).value
    let root := combiner.merkleRootWith leaves algorithm
    let levels := level combiner.engine asked leaves
    root.entries =
        (if algorithm = .unknown then [.event (.fallback combiner.config.fallback)] else []) ++
          ((List.range h).flatMap fun i => roundEntries asked i (leaves.length ⌈/⌉ 2 ^ (i + 1)) (levels i)) ∧
      (∀ i, (levels i).length = leaves.length ⌈/⌉ 2 ^ i) ∧
      (leaves ≠ [] → levels h = [root.value]) ∧
      root.calls.length =
        leaves.length - 1 + (List.range (h + 1)).countP (fun i => (levels i).length % 2 = 1 ∧ 1 < (levels i).length) ∧
      (1 < leaves.length → root.events.getLast? = some (.levelReduced (h - 1) 1)) ∧
      (leaves.length ≤ 1 → root.calls = [] ∧ ∀ depth width, .levelReduced depth width ∉ root.events) := by
  intro asked root levels
  obtain rfl : height leaves.length = h := (isLeast_height leaves.length).unique least
  refine ⟨?_, length_level _ _ _, combiner.level_height algorithm, ?_, combiner.getLast?_events_merkleRootWith algorithm, ?_⟩
  · rw [entries_merkleRootWith, entries_resolve]
  · simp only [levels, length_level]
    rw [length_calls_merkleRootWith, sum_widths_top least]
  · intro few
    rw [Traced.calls, Traced.events, entries_merkleRootWith_of_le combiner algorithm few, entries_resolve]
    constructor
    · split <;> rfl
    · intro depth width
      split <;> simp

/-- Five leaves of one byte take three rounds: six questions, as the level of five and that of three are odd. -/
theorem merkleRoot_work_five :
    let plain : Combiner := ⟨Engine.identity, Config.standard⟩
    let root := plain.merkleRootWith ([1, 2, 3, 4, 5].map fun n => ⟨[n]⟩) .unknown
    IsLeast {k | 5 ≤ 2 ^ k} 3 ∧ root.calls.length = 6 ∧ root.events.getLast? = some (.levelReduced 2 1) := by
  intro plain root
  have height_five : height 5 = 3 := by simp [height]
  have least : IsLeast {k | 5 ≤ 2 ^ k} 3 := height_five ▸ isLeast_height 5
  obtain ⟨-, -, -, asked, last, -⟩ := merkleRoot_work plain ([1, 2, 3, 4, 5].map fun n => ⟨[n]⟩) .unknown least
  refine ⟨least, asked.trans ?_, last (by decide)⟩
  simp only [length_level]
  decide

end Combiner

end SealedLedger
