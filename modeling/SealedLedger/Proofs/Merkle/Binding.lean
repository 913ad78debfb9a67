import SealedLedger.Proofs.Collision
import SealedLedger.Proofs.Merkle.Levels

/-!
# What a Merkle root binds

Two lists of leaves whose trees have one height and whose leaves have one length can only share a root if they stand for the same
`2 ^ height` leaves, or if two different buffers that were digested on the way share a digest. Both trees are walked down
together, level by level: as long as nothing collides, equal digests at a level mean equal pairs of nodes below it
(`expand_eq_of_up_eq`), wherever the two levels happen to be odd. Main statement: `Combiner.merkleRoot_binds`.
-/

namespace SealedLedger

namespace Merkle

/-- Nodes that a tree of a height has room for, all of one length. -/
structure Fits (size height : Nat) (nodes : List Hash) : Prop where
  nonempty : nodes ≠ []
  room : nodes.length ≤ 2 ^ height
  sizes : ∀ node ∈ nodes, node.length = size

/-- The nodes of a pair are nodes of the level. -/
theorem mem_of_mem_pairs {nodes : List Hash} {left right : Hash} (h : (left, right) ∈ pairs nodes) :
    left ∈ nodes ∧ right ∈ nodes := by
  fun_induction pairs nodes with
  | case1 first second rest ih =>
    rcases List.mem_cons.1 h with h | h
    · obtain ⟨rfl, rfl⟩ := Prod.mk.inj h
      simp
    · obtain ⟨hl, hr⟩ := ih h
      simp [hl, hr]
  | case2 last =>
    obtain ⟨rfl, rfl⟩ := Prod.mk.inj (List.mem_singleton.1 h)
    simp
  | case3 => cases h

/-- Digests of one length make the level above fit a tree one lower. -/
theorem Fits.up {engine : Engine} {algorithm : Algorithm} {d size height : Nat} {nodes : List Hash}
    (digests : ∀ data, (engine algorithm data).length = d) (fits : Fits size (height + 1) nodes) :
    Fits d height (up (engine.join algorithm) nodes) := by
  refine ⟨up_ne_nil fits.nonempty, ?_, ?_⟩
  · have room := fits.room
    rw [Nat.pow_succ] at room
    rw [length_up]
    omega
  · intro node hn
    rw [Merkle.up, List.mem_map] at hn
    obtain ⟨pair, -, rfl⟩ := hn
    exact digests _

/-- Lists with the same images are equal where the map tells their items apart. -/
theorem eq_of_map_eq {α β : Type} {f : α → β} {xs ys : List α} (h : xs.map f = ys.map f)
    (inj : ∀ x ∈ xs, ∀ y ∈ ys, f x = f y → x = y) : xs = ys := by
  have len : xs.length = ys.length := by simpa using congrArg List.length h
  refine List.ext_getElem len fun n hx hy => ?_
  refine inj _ (List.getElem_mem hx) _ (List.getElem_mem hy) ?_
  have hn := List.getElem_of_eq h (by rwa [List.length_map] : n < (xs.map f).length)
  rwa [List.getElem_map, List.getElem_map] at hn

section

variable {engine : Engine} {algorithm : Algorithm} {asked : List Bytes} (no : ¬engine.Collides algorithm asked)

include no

/-- Without a collision, pairs of nodes of one length are told apart by their digests. -/
theorem pair_eq_of_join_eq {left right left' right' : Hash} (size : left.length = left'.length)
    (ha : left.bytes ++ right.bytes ∈ asked) (ha' : left'.bytes ++ right'.bytes ∈ asked)
    (h : engine.join algorithm left right = engine.join algorithm left' right') : left = left' ∧ right = right' := by
  have hd : engine algorithm (left.bytes ++ right.bytes) = engine algorithm (left'.bytes ++ right'.bytes) :=
    congrArg Hash.bytes h
  obtain ⟨hl, hr⟩ := List.append_inj ((Engine.eq_or_collides ha ha' hd).resolve_right no) size
  cases left
  cases right
  exact ⟨congrArg Hash.mk hl, congrArg Hash.mk hr⟩

/-- Without a collision, levels above that stand for the same nodes lie above levels that stand for the same nodes. -/
theorem expand_eq_of_up_eq {size height : Nat} {nodes nodes' : List Hash} (fits : Fits size (height + 1) nodes)
    (fits' : Fits size (height + 1) nodes')
    (ha : ∀ pair ∈ pairs nodes, pair.1.bytes ++ pair.2.bytes ∈ asked)
    (ha' : ∀ pair ∈ pairs nodes', pair.1.bytes ++ pair.2.bytes ∈ asked)
    (h : expand height (up (engine.join algorithm) nodes) = expand height (up (engine.join algorithm) nodes')) :
    expand (height + 1) nodes = expand (height + 1) nodes' := by
  rw [up, up, expand_map, expand_map] at h
  have same : expand height (pairs nodes) = expand height (pairs nodes') := by
    refine eq_of_map_eq h ?_
    rintro ⟨left, right⟩ hp ⟨left', right'⟩ hp' hj
    have hp := mem_of_mem_expand hp
    have hp' := mem_of_mem_expand hp'
    have size : left.length = left'.length :=
      (fits.sizes left (mem_of_mem_pairs hp).1).trans (fits'.sizes left' (mem_of_mem_pairs hp').1).symm
    obtain ⟨rfl, rfl⟩ := pair_eq_of_join_eq no size (ha _ hp) (ha' _ hp') hj
    rfl
  rw [← pairs_expand fits.nonempty fits.room, ← pairs_expand fits'.nonempty fits'.room] at same
  have wide : 2 ^ (height + 1) = 2 * 2 ^ height := Nat.pow_succ'
  have even : (expand (height + 1) nodes).length % 2 = 0 := by
    rw [length_expand fits.nonempty fits.room]
    omega
  have even' : (expand (height + 1) nodes').length % 2 = 0 := by
    rw [length_expand fits'.nonempty fits'.room]
    omega
  rw [← flatten_pairs even, same, flatten_pairs even']

/-- Without a collision among what is digested, trees of one height and root stand for the same leaves. -/
theorem expand_eq_of_tree_eq {d : Nat} (digests : ∀ data, (engine algorithm data).length = d) {size height : Nat}
    {nodes nodes' : List Hash} (fits : Fits size height nodes) (fits' : Fits size height nodes')
    (ha : buffers (engine.join algorithm) height nodes ⊆ asked) (ha' : buffers (engine.join algorithm) height nodes' ⊆ asked)
    (h : tree (engine.join algorithm) height nodes = tree (engine.join algorithm) height nodes') :
    expand height nodes = expand height nodes' := by
  induction height generalizing size nodes nodes' with
  | zero =>
    obtain ⟨root, rfl⟩ := List.length_eq_one_iff.1 (Nat.le_antisymm fits.room (List.length_pos_iff.2 fits.nonempty))
    obtain ⟨root', rfl⟩ := List.length_eq_one_iff.1 (Nat.le_antisymm fits'.room (List.length_pos_iff.2 fits'.nonempty))
    exact congrArg (fun x => [x]) h
  | succ height ih =>
    rw [tree_up fits.nonempty fits.room, tree_up fits'.nonempty fits'.room] at h
    obtain ⟨here, above⟩ := List.append_subset.1 ha
    obtain ⟨here', above'⟩ := List.append_subset.1 ha'
    have up_eq := ih (fits.up digests) (fits'.up digests) above above' h
    exact expand_eq_of_up_eq no fits fits' (fun pair hp => here (List.mem_map_of_mem hp))
      (fun pair hp => here' (List.mem_map_of_mem hp)) up_eq

end

end Merkle

namespace Combiner

open Merkle

/-- Two different buffers among those digested for two Merkle roots have the same digest. -/
def MerkleCollision (combiner : Combiner) (algorithm : Algorithm) (leaves leaves' : List Hash) : Prop :=
  combiner.engine.Collides (combiner.resolve algorithm).value
    (((combiner.merkleRootWith leaves algorithm).calls ++ (combiner.merkleRootWith leaves' algorithm).calls).map Prod.snd)

variable (combiner : Combiner) (algorithm : Algorithm)

/-- The buffers of a reduction are among those handed to the engine. -/
theorem buffers_subset_calls (leaves : List Hash) :
    buffers (combiner.engine.join (combiner.resolve algorithm).value) (height leaves.length) leaves ⊆
      (combiner.merkleRootWith leaves algorithm).calls.map Prod.snd := by
  intro data hd
  rw [calls_merkleRootWith, List.map_map]
  exact List.mem_map.2 ⟨data, hd, rfl⟩

/-- Lists with one root, one height and leaves of one length stand for the same leaves, or their roots come with a collision. -/
theorem expand_eq_or_collision {d size h : Nat}
    (digests : ∀ data, (combiner.engine (combiner.resolve algorithm).value data).length = d) {leaves leaves' : List Hash}
    (nonempty : leaves ≠ []) (nonempty' : leaves' ≠ []) (sizes : ∀ leaf ∈ leaves ++ leaves', leaf.length = size)
    (least : IsLeast {k | leaves.length ≤ 2 ^ k} h) (least' : IsLeast {k | leaves'.length ≤ 2 ^ k} h)
    (roots : (combiner.merkleRootWith leaves algorithm).value = (combiner.merkleRootWith leaves' algorithm).value) :
    expand h leaves = expand h leaves' ∨ combiner.MerkleCollision algorithm leaves leaves' := by
  by_cases no : combiner.MerkleCollision algorithm leaves leaves'
  · exact Or.inr no
  · have hh := (isLeast_height leaves.length).unique least
    have hh' := (isLeast_height leaves'.length).unique least'
    have asked := buffers_subset_calls combiner algorithm leaves
    have asked' := buffers_subset_calls combiner algorithm leaves'
    rw [value_merkleRootWith, value_merkleRootWith, Engine.merkleRoot, Engine.merkleRoot, if_neg nonempty, if_neg nonempty',
      hh, hh'] at roots
    rw [hh] at asked
    rw [hh'] at asked'
    have fits : Fits size h leaves := ⟨nonempty, least.1, fun leaf hl => sizes leaf (List.mem_append_left _ hl)⟩
    have fits' : Fits size h leaves' := ⟨nonempty', least'.1, fun leaf hl => sizes leaf (List.mem_append_right _ hl)⟩
    refine Or.inl (expand_eq_of_tree_eq no digests fits fits' ?_ ?_ roots)
    · exact fun data hd => List.map_append ▸ List.mem_append_left _ (asked hd)
    · exact fun data hd => List.map_append ▸ List.mem_append_right _ (asked' hd)

/-- Lists of one length that stand for the same leaves are the same. -/
theorem eq_of_expand_eq {h : Nat} {leaves leaves' : List Hash} (room : leaves.length ≤ 2 ^ h)
    (len : leaves.length = leaves'.length) (eq : expand h leaves = expand h leaves') : leaves = leaves' := by
  have pre := prefix_expand room
  have pre' := prefix_expand (len ▸ room)
  rw [← eq] at pre'
  exact (List.prefix_of_prefix_length_le pre pre' (Nat.le_of_eq len)).eq_of_length len

/-- What a Merkle root binds. Take two lists of leaves of one length, whose trees have one height, under an engine with digests of
one length. If they have one root, they stand for the same leaves, and if moreover they are equally long, they are the same
list; so equally long lists that differ in any place or order have different roots. The only other way out is a collision among
the buffers that were digested for the two roots. -/
theorem merkleRoot_binds {d size h : Nat}
    (digests : ∀ data, (combiner.engine (combiner.resolve algorithm).value data).length = d) {leaves leaves' : List Hash}
    (nonempty : leaves ≠ []) (nonempty' : leaves' ≠ []) (sizes : ∀ leaf ∈ leaves ++ leaves', leaf.length = size)
    (least : IsLeast {k | leaves.length ≤ 2 ^ k} h) (least' : IsLeast {k | leaves'.length ≤ 2 ^ k} h) :
    ((combiner.merkleRootWith leaves algorithm).value = (combiner.merkleRootWith leaves' algorithm).value →
        (expand h leaves = expand h leaves' ∨ combiner.MerkleCollision algorithm leaves leaves') ∧
          (leaves.length = leaves'.length → leaves = leaves' ∨ combiner.MerkleCollision algorithm leaves leaves')) ∧
      (leaves.length = leaves'.length → leaves ≠ leaves' →
        (combiner.merkleRootWith leaves algorithm).value ≠ (combiner.merkleRootWith leaves' algorithm).value ∨
          combiner.MerkleCollision algorithm leaves leaves') := by
  have binds := expand_eq_or_collision combiner algorithm digests nonempty nonempty' sizes least least'
  have same : leaves.length = leaves'.length →
      (combiner.merkleRootWith leaves algorithm).value = (combiner.merkleRootWith leaves' algorithm).value →
      leaves = leaves' ∨ combiner.MerkleCollision algorithm leaves leaves' := by
    intro len roots
    rcases binds roots with eq | collision
    · exact Or.inl (eq_of_expand_eq least.1 len eq)
    · exact Or.inr collision
  refine ⟨fun roots => ⟨binds roots, fun len => same len roots⟩, fun len ne => ?_⟩
  by_cases roots : (combiner.merkleRootWith leaves algorithm).value = (combiner.merkleRootWith leaves' algorithm).value
  · exact Or.inr ((same len roots).resolve_left ne)
  · exact Or.inl roots

/-- An engine that only adds up bytes gives leaves in another order the same root, and the collision shows: three leaves, the first
two of them exchanged. -/
theorem merkleRoot_binds_exchanged :
    let adder : Combiner := ⟨fun _ data => [data.foldl (· + ·) 0], Config.standard⟩
    (adder.merkleRootWith [⟨[1]⟩, ⟨[2]⟩, ⟨[3]⟩] .unknown).value =
        (adder.merkleRootWith [⟨[2]⟩, ⟨[1]⟩, ⟨[3]⟩] .unknown).value ∧
      adder.MerkleCollision .unknown [⟨[1]⟩, ⟨[2]⟩, ⟨[3]⟩] [⟨[2]⟩, ⟨[1]⟩, ⟨[3]⟩] := by
  intro adder
  have height_three : height 3 = 2 := by simp [height]
  have least : IsLeast {k | 3 ≤ 2 ^ k} 2 := height_three ▸ isLeast_height 3
  have roots : (adder.merkleRootWith [⟨[1]⟩, ⟨[2]⟩, ⟨[3]⟩] .unknown).value =
      (adder.merkleRootWith [⟨[2]⟩, ⟨[1]⟩, ⟨[3]⟩] .unknown).value := by
    rw [value_merkleRootWith, value_merkleRootWith, Engine.merkleRoot, Engine.merkleRoot, if_neg (by simp), if_neg (by simp)]
    simp only [List.length_cons, List.length_nil, Nat.zero_add, Nat.reduceAdd, height_three]
    decide
  have sizes : ∀ leaf ∈ [Hash.mk [1], ⟨[2]⟩, ⟨[3]⟩] ++ [⟨[2]⟩, ⟨[1]⟩, ⟨[3]⟩], leaf.length = 1 := by
    decide
  have binds := merkleRoot_binds adder .unknown (fun _ => rfl) (by simp) (by simp) sizes least least
  exact ⟨roots, ((binds.1 roots).2 rfl).resolve_left (by decide)⟩

end Combiner

end SealedLedger
