import Mathlib.Order.Bounds.Basic
import SealedLedger.Merkle

/-!
# Merkle trees by levels

A reduction walks the tree from the leaves up, `Merkle.tree` says it from the root down. The bridge between them is one level:
`Merkle.up` joins the neighbours of a level, the tree over a level is the tree over the level above it (`tree_up`), and repeating
leaves up to a power of two commutes with pairing neighbours (`pairs_expand`). Main statements: the reduction of leaves is their
tree (`Combiner.value_merkleRootWith`), and its questions to the engine are those of the levels in order
(`Combiner.calls_merkleRootWith`).
-/

namespace SealedLedger

/-- The digest of two nodes side by side. -/
def Engine.join (engine : Engine) (algorithm : Algorithm) (left right : Hash) : Hash :=
  ⟨engine algorithm (left.bytes ++ right.bytes)⟩

namespace Merkle

variable {α β : Type} {join : Hash → Hash → Hash}

/-! ## Heights -/

/-- A tree has room for as many leaves as a power of two says, and the height is the least exponent that will do. -/
theorem height_le_iff (leaves h : Nat) : height leaves ≤ h ↔ leaves ≤ 2 ^ h := by
  fun_induction height leaves generalizing h with
  | case1 leaves few =>
    have := Nat.one_le_two_pow (n := h)
    omega
  | case2 leaves many ih =>
    cases h with
    | zero => simp; omega
    | succ h =>
      rw [Nat.add_le_add_iff_right, ih, Nat.pow_succ]
      omega

/-- The height of a tree over leaves is the least exponent of a power of two that is not below their number. -/
theorem isLeast_height (leaves : Nat) : IsLeast {h | leaves ≤ 2 ^ h} (height leaves) :=
  ⟨(height_le_iff leaves _).1 (Nat.le_refl _), fun h hh => (height_le_iff leaves h).2 hh⟩

/-- A tree without levels above its leaves has at most one leaf. -/
theorem le_one_of_height {leaves : Nat} (h : height leaves = 0) : leaves ≤ 1 :=
  (height_le_iff leaves 0).1 (Nat.le_of_eq h)

/-- A tree with levels above its leaves has at least two leaves, and the tree over the next level is one lower. -/
theorem one_lt_of_height {leaves h : Nat} (hs : height leaves = h + 1) : 1 < leaves ∧ height ((leaves + 1) / 2) = h := by
  rw [height] at hs
  split at hs
  · cases hs
  · omega

/-! ## Levels -/

/-- The level above nodes. -/
def up (join : Hash → Hash → Hash) (nodes : List Hash) : List Hash :=
  (pairs nodes).map fun (left, right) => join left right

theorem length_up (join : Hash → Hash → Hash) (nodes : List Hash) : (up join nodes).length = (nodes.length + 1) / 2 := by
  rw [up, List.length_map, length_pairs]

/-- A level above nodes is not empty. -/
theorem up_ne_nil {nodes : List Hash} (h : nodes ≠ []) : up join nodes ≠ [] := by
  have hl := List.length_pos_iff.2 h
  rw [← List.length_pos_iff, length_up]
  omega

/-- Pairing goes through two parts of a level on its own when the first has an even number of nodes. -/
theorem pairs_append (nodes rest : List Hash) (even : nodes.length % 2 = 0) :
    pairs (nodes ++ rest) = pairs nodes ++ pairs rest := by
  fun_induction pairs nodes with
  | case1 left right nodes ih =>
    simp only [List.length_cons] at even
    rw [List.cons_append, List.cons_append, pairs, ih (by omega), List.cons_append]
  | case2 last => simp at even
  | case3 => rfl

/-- A level of enough nodes is paired in two parts, the first of them with a given number of pairs. -/
theorem pairs_split {k : Nat} {nodes : List Hash} (long : 2 * k ≤ nodes.length) :
    pairs nodes = pairs (nodes.take (2 * k)) ++ pairs (nodes.drop (2 * k)) ∧ (pairs (nodes.take (2 * k))).length = k := by
  have width : (nodes.take (2 * k)).length = 2 * k := List.length_take_of_le long
  constructor
  · rw [← pairs_append _ _ (by omega), List.take_append_drop]
  · rw [length_pairs]
    omega

/-- The first pairs of a level are those of its first nodes. -/
theorem pairs_take (k : Nat) (nodes : List Hash) : pairs (nodes.take (2 * k)) = (pairs nodes).take k := by
  by_cases long : 2 * k ≤ nodes.length
  · obtain ⟨parts, width⟩ := pairs_split long
    rw [parts, List.take_left' width]
  · rw [List.take_of_length_le (by omega), List.take_of_length_le (by rw [length_pairs]; omega)]

/-- The later pairs of a level are those of its later nodes. -/
theorem pairs_drop (k : Nat) (nodes : List Hash) : pairs (nodes.drop (2 * k)) = (pairs nodes).drop k := by
  by_cases long : 2 * k ≤ nodes.length
  · obtain ⟨parts, width⟩ := pairs_split long
    rw [parts, List.drop_left' width]
  · rw [List.drop_of_length_le (by omega), List.drop_of_length_le (by rw [length_pairs]; omega), pairs]

theorem up_take (k : Nat) (nodes : List Hash) : up join (nodes.take (2 * k)) = (up join nodes).take k := by
  rw [up, up, pairs_take, List.map_take]

theorem up_drop (k : Nat) (nodes : List Hash) : up join (nodes.drop (2 * k)) = (up join nodes).drop k := by
  rw [up, up, pairs_drop, List.map_drop]

/-! ## One step down a tree -/

/-- What the left half does not hold fits the right one. -/
theorem length_drop_half {height : Nat} {items : List α} (room : items.length ≤ 2 ^ (height + 1)) :
    (items.drop (2 ^ height)).length ≤ 2 ^ height := by
  rw [Nat.pow_succ'] at room
  rw [List.length_drop]
  omega

/-- Leaves that fit the left half are joined with themselves. -/
theorem tree_of_le {height : Nat} {leaves : List Hash} (fits : leaves.length ≤ 2 ^ height) :
    tree join (height + 1) leaves = join (tree join height leaves) (tree join height leaves) := by
  rw [tree, List.take_of_length_le fits]
  exact if_pos fits

/-- More leaves than that are split between the halves. -/
theorem tree_of_lt {height : Nat} {leaves : List Hash} (many : 2 ^ height < leaves.length) :
    tree join (height + 1) leaves =
      join (tree join height (leaves.take (2 ^ height))) (tree join height (leaves.drop (2 ^ height))) := by
  rw [tree]
  exact if_neg (Nat.not_le.2 many)

/-- Items that fit the left half are repeated. -/
theorem expand_of_le {height : Nat} {items : List α} (fits : items.length ≤ 2 ^ height) :
    expand (height + 1) items = expand height items ++ expand height items := by
  rw [expand, List.take_of_length_le fits]
  exact if_pos fits

/-- More items than that are split between the halves. -/
theorem expand_of_lt {height : Nat} {items : List α} (many : 2 ^ height < items.length) :
    expand (height + 1) items = expand height (items.take (2 ^ height)) ++ expand height (items.drop (2 ^ height)) := by
  rw [expand]
  exact if_neg (Nat.not_le.2 many)

/-! ## One level of a tree -/

/-- A tree over a level is the tree, one lower, over the level above it. -/
theorem tree_up {height : Nat} {nodes : List Hash} (h : nodes ≠ []) (room : nodes.length ≤ 2 ^ (height + 1)) :
    tree join (height + 1) nodes = tree join height (up join nodes) := by
  induction height generalizing nodes with
  | zero =>
    match nodes, h with
    | [x], _ => rfl
    | [x, y], _ => rfl
    | _ :: _ :: _ :: _, _ => simp at room
  | succ height ih =>
    have half : 2 ^ (height + 1) = 2 * 2 ^ height := Nat.pow_succ'
    have width := length_up join nodes
    by_cases fits : nodes.length ≤ 2 ^ (height + 1)
    · have fits' : (up join nodes).length ≤ 2 ^ height := by omega
      rw [tree_of_le fits, tree_of_le fits', ih h fits]
    · have many : 2 ^ (height + 1) < nodes.length := by omega
      have many' : 2 ^ height < (up join nodes).length := by omega
      have rest := length_drop_half room
      rw [tree_of_lt many, tree_of_lt many', ih (by simp [h]) (List.length_take_le _ _), ih (by simp; omega) rest, half,
        up_take, up_drop]

/-! ## One level of an expansion -/

theorem length_expand {height : Nat} {items : List α} (h : items ≠ []) (room : items.length ≤ 2 ^ height) :
    (expand height items).length = 2 ^ height := by
  induction height generalizing items with
  | zero =>
    have := List.length_pos_iff.2 h
    rw [expand]
    omega
  | succ height ih =>
    have rest := length_drop_half room
    rw [Nat.pow_succ']
    by_cases fits : items.length ≤ 2 ^ height
    · rw [expand_of_le fits, List.length_append, ih h fits]
      omega
    · have many : 2 ^ height < items.length := by omega
      rw [expand_of_lt many, List.length_append, ih (by simp [h]) (List.length_take_le _ _), ih (by simp; omega) rest]
      omega

/-- Repeating only adds at the end. -/
theorem prefix_expand {height : Nat} {items : List α} (room : items.length ≤ 2 ^ height) : items <+: expand height items := by
  induction height generalizing items with
  | zero => exact List.prefix_refl _
  | succ height ih =>
    by_cases fits : items.length ≤ 2 ^ height
    · rw [expand_of_le fits]
      exact (ih fits).trans (List.prefix_append _ _)
    · have many : 2 ^ height < items.length := by omega
      have full : (items.take (2 ^ height)).length = 2 ^ height := by
        rw [List.length_take]
        omega
      have left : items.take (2 ^ height) = expand height (items.take (2 ^ height)) :=
        (ih (Nat.le_of_eq full)).eq_of_length (by rw [length_expand (List.length_pos_iff.1 (by omega)) (by omega), full])
      have rest := length_drop_half room
      obtain ⟨more, hm⟩ := ih rest
      refine ⟨more, ?_⟩
      rw [expand_of_lt many, ← left, ← hm, ← List.append_assoc, List.take_append_drop]

/-- Repeating makes nothing new. -/
theorem mem_of_mem_expand {height : Nat} {items : List α} {x : α} (h : x ∈ expand height items) : x ∈ items := by
  induction height generalizing items with
  | zero => exact h
  | succ height ih =>
    by_cases fits : items.length ≤ 2 ^ height
    · rw [expand_of_le fits, List.mem_append] at h
      rcases h with h | h
      · exact ih h
      · exact ih h
    · rw [expand_of_lt (by omega), List.mem_append] at h
      rcases h with h | h
      · exact List.mem_of_mem_take (ih h)
      · exact List.mem_of_mem_drop (ih h)

theorem expand_map (f : α → β) (height : Nat) (items : List α) :
    expand height (items.map f) = (expand height items).map f := by
  induction height generalizing items with
  | zero => rfl
  | succ height ih =>
    by_cases fits : items.length ≤ 2 ^ height
    · rw [expand_of_le fits, expand_of_le (by rwa [List.length_map]), ih, List.map_append]
    · have many : 2 ^ height < items.length := by omega
      have many' : 2 ^ height < (items.map f).length := by rwa [List.length_map]
      rw [expand_of_lt many, expand_of_lt many', ← List.map_take, ← List.map_drop, ih, ih, List.map_append]

/-- Repeating nodes and pairing neighbours can change places. -/
theorem pairs_expand {height : Nat} {nodes : List Hash} (h : nodes ≠ []) (room : nodes.length ≤ 2 ^ (height + 1)) :
    pairs (expand (height + 1) nodes) = expand height (pairs nodes) := by
  induction height generalizing nodes with
  | zero =>
    match nodes, h with
    | [x], _ => rfl
    | [x, y], _ => rfl
    | _ :: _ :: _ :: _, _ => simp at room
  | succ height ih =>
    have half : 2 ^ (height + 1) = 2 * 2 ^ height := Nat.pow_succ'
    have width := length_pairs nodes
    by_cases fits : nodes.length ≤ 2 ^ (height + 1)
    · have fits' : (pairs nodes).length ≤ 2 ^ height := by omega
      rw [expand_of_le fits, expand_of_le fits', pairs_append _ _ (by rw [length_expand h fits]; omega), ih h fits]
    · have many : 2 ^ (height + 1) < nodes.length := by omega
      have many' : 2 ^ height < (pairs nodes).length := by omega
      have left : (nodes.take (2 ^ (height + 1))).length ≤ 2 ^ (height + 1) := List.length_take_le _ _
      have rest := length_drop_half room
      have even : (expand (height + 1) (nodes.take (2 ^ (height + 1)))).length % 2 = 0 := by
        rw [length_expand (by simp [h]) left]
        omega
      rw [expand_of_lt many, expand_of_lt many', pairs_append _ _ even, ih (by simp [h]) left, ih (by simp; omega) rest, half,
        pairs_take, pairs_drop]

/-- The nodes of a level of even width are those of its pairs in order. -/
theorem flatten_pairs {nodes : List Hash} (even : nodes.length % 2 = 0) :
    ((pairs nodes).flatMap fun (left, right) => [left, right]) = nodes := by
  fun_induction pairs nodes with
  | case1 left right nodes ih =>
    simp only [List.length_cons] at even
    rw [List.flatMap_cons, ih (by omega)]
    rfl
  | case2 last => simp at even
  | case3 => rfl

/-- What is digested on the way from nodes to the root of their tree: level by level, each pair of neighbours side by side. -/
def buffers (join : Hash → Hash → Hash) : Nat → List Hash → List Bytes
  | 0, _ => []
  | height + 1, nodes =>
    ((pairs nodes).map fun (left, right) => left.bytes ++ right.bytes) ++ buffers join height (up join nodes)

end Merkle

/-- The Merkle root of leaves under a known algorithm, as it depends on the engine alone. -/
def Engine.merkleRoot (engine : Engine) (algorithm : Algorithm) (leaves : List Hash) : Hash :=
  if leaves = [] then Hash.zero (algorithm.outputLength.getD 0)
  else Merkle.tree (engine.join algorithm) (Merkle.height leaves.length) leaves

/-- A leaf on its own is its own root. -/
theorem Engine.merkleRoot_singleton (engine : Engine) (algorithm : Algorithm) (leaf : Hash) :
    engine.merkleRoot algorithm [leaf] = leaf := by
  simp [merkleRoot, Merkle.height, Merkle.tree]

/-- The root of at least two leaves is the root of the level above them. -/
theorem Engine.merkleRoot_up (engine : Engine) (algorithm : Algorithm) {leaves : List Hash} (many : 1 < leaves.length) :
    engine.merkleRoot algorithm leaves = engine.merkleRoot algorithm (Merkle.up (engine.join algorithm) leaves) := by
  have some : leaves ≠ [] := List.length_pos_iff.1 (by omega)
  obtain ⟨h, hh⟩ : ∃ h, Merkle.height leaves.length = h + 1 := by
    cases hh : Merkle.height leaves.length with
    | zero => exact absurd (Merkle.le_one_of_height hh) (by omega)
    | succ h => exact ⟨h, rfl⟩
  have room := (Merkle.height_le_iff leaves.length (h + 1)).1 (Nat.le_of_eq hh)
  rw [merkleRoot, merkleRoot, if_neg some, if_neg (Merkle.up_ne_nil some), Merkle.length_up, hh, (Merkle.one_lt_of_height hh).2,
    Merkle.tree_up some room]

/-! ## Reductions -/

namespace Combiner

open Merkle

variable (combiner : Combiner) {algorithm : Algorithm}

/-- Under a known algorithm a level is reduced by one question for each pair of neighbours, from left to right. -/
theorem reduceLevel_of_known (known : algorithm ≠ .unknown) (nodes : List Hash) :
    combiner.reduceLevel algorithm nodes =
      Traced.forEach (pairs nodes) fun (left, right) => combiner.ask algorithm (left.bytes ++ right.bytes) := by
  have one : (fun pair : Hash × Hash => combiner.join algorithm pair.1 pair.2) =
      fun pair => combiner.ask algorithm (pair.1.bytes ++ pair.2.bytes) := by
    funext pair
    rw [join, digestWith_of_known combiner _ known]
    simp [Field.encodeAll, Field.encode, Field.ofHash]
  exact congrArg (Traced.forEach (pairs nodes)) one

theorem value_reduceLevel (known : algorithm ≠ .unknown) (nodes : List Hash) :
    (combiner.reduceLevel algorithm nodes).value = up (combiner.engine.join algorithm) nodes := by
  rw [reduceLevel_of_known combiner known, Traced.value_forEach]
  rfl

theorem calls_reduceLevel (known : algorithm ≠ .unknown) (nodes : List Hash) :
    (combiner.reduceLevel algorithm nodes).calls =
      (pairs nodes).map fun (left, right) => (algorithm, left.bytes ++ right.bytes) := by
  rw [reduceLevel_of_known combiner known, Traced.calls_forEach, List.map_eq_flatMap]
  rfl

/-- Reduction ends in one node, the root of the tree over the nodes it starts from. -/
theorem value_reduceFrom (known : algorithm ≠ .unknown) (depth : Nat) {nodes : List Hash} (h : nodes ≠ []) :
    (combiner.reduceFrom algorithm depth nodes).value =
      [tree (combiner.engine.join algorithm) (height nodes.length) nodes] := by
  induction hh : height nodes.length generalizing depth nodes with
  | zero =>
    have few := le_one_of_height hh
    have some := List.length_pos_iff.2 h
    obtain ⟨root, rfl⟩ := List.length_eq_one_iff.1 (by omega : nodes.length = 1)
    rw [reduceFrom_of_le _ _ _ few]
    rfl
  | succ k ih =>
    obtain ⟨many, hk⟩ := one_lt_of_height hh
    have room := (height_le_iff nodes.length (k + 1)).1 (Nat.le_of_eq hh)
    rw [reduceFrom_of_lt _ _ _ many, Traced.value_bind, Traced.value_bind, value_reduceLevel combiner known,
      ih (depth + 1) (up_ne_nil h) (by rw [length_up, hk]), tree_up h room]

/-- The questions of a reduction are the pairs of neighbours of its levels. -/
theorem calls_reduceFrom (known : algorithm ≠ .unknown) (depth : Nat) (nodes : List Hash) :
    (combiner.reduceFrom algorithm depth nodes).calls =
      (buffers (combiner.engine.join algorithm) (height nodes.length) nodes).map fun data => (algorithm, data) := by
  induction hh : height nodes.length generalizing depth nodes with
  | zero =>
    rw [reduceFrom_of_le _ _ _ (le_one_of_height hh)]
    rfl
  | succ k ih =>
    obtain ⟨many, hk⟩ := one_lt_of_height hh
    rw [reduceFrom_of_lt _ _ _ many, Traced.calls_bind, Traced.calls_bind, calls_reduceLevel combiner known,
      value_reduceLevel combiner known, ih (depth + 1) _ (by rw [length_up, hk]), buffers, List.map_append, List.map_map]
    rfl

/-- Under a known algorithm the root of no leaves is found without a question. -/
theorem emptyRoot_of_known (known : algorithm ≠ .unknown) :
    combiner.emptyRoot algorithm = pure (Hash.zero (algorithm.outputLength.getD 0)) := by
  rw [emptyRoot]
  cases hl : algorithm.outputLength with
  | none => exact absurd (Algorithm.outputLength_eq_none_iff.1 hl) known
  | some length => rfl

/-- The Merkle root of leaves is the root of their tree, under the resolved algorithm. -/
theorem value_merkleRootWith (leaves : List Hash) (algorithm : Algorithm) :
    (combiner.merkleRootWith leaves algorithm).value =
      combiner.engine.merkleRoot (combiner.resolve algorithm).value leaves := by
  have known := combiner.resolve_known algorithm
  by_cases h : leaves = []
  · subst h
    have none : combiner.reduceFrom (combiner.resolve algorithm).value 0 [] = pure [] :=
      combiner.reduceFrom_of_le _ 0 (Nat.zero_le 1)
    simp only [merkleRootWith, Traced.value_bind, none, Traced.value_pure, emptyRoot_of_known combiner known]
    rfl
  · simp only [merkleRootWith, Traced.value_bind, value_reduceFrom combiner known 0 h, Engine.merkleRoot, if_neg h]
    rfl

/-- The questions of a Merkle root are the pairs of neighbours of its levels, under the resolved algorithm. -/
theorem calls_merkleRootWith (leaves : List Hash) (algorithm : Algorithm) :
    (combiner.merkleRootWith leaves algorithm).calls =
      (buffers (combiner.engine.join (combiner.resolve algorithm).value) (height leaves.length) leaves).map fun data =>
        ((combiner.resolve algorithm).value, data) := by
  have known := combiner.resolve_known algorithm
  have none_for_empty : (combiner.emptyRoot (combiner.resolve algorithm).value).calls = [] := by
    rw [emptyRoot_of_known combiner known]
    exact Traced.calls_pure _
  simp only [merkleRootWith, Traced.calls_bind, calls_resolve, calls_reduceFrom combiner known, List.nil_append]
  split
  · exact List.append_nil _
  · rw [none_for_empty, List.append_nil]

end Combiner

end SealedLedger
