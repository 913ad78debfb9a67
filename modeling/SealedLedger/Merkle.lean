import SealedLedger.Combiner

/-!
# Merkle roots

The leaves form the lowest level. Neighbours in a level are joined pairwise from left to right into the next level, and a node
without a right neighbour is joined with itself, until one node is left, the root. The root of no leaves is a hash of zeros.

Beside this reduction by levels stand two views of it: `Merkle.tree` says from the top down which digest the root is, and
`Merkle.expand` which list of `2 ^ height` leaves it stands for.
-/

namespace SealedLedger

namespace Merkle

/-- The pairs of neighbours in a level; a last node on its own is its own neighbour. -/
def pairs : List Hash → List (Hash × Hash)
  | left :: right :: rest => (left, right) :: pairs rest
  | [last] => [(last, last)]
  | [] => []

theorem length_pairs (nodes : List Hash) : (pairs nodes).length = (nodes.length + 1) / 2 := by
  fun_induction pairs nodes with
  | case1 left right rest ih => simp only [List.length_cons, ih]; omega
  | case2 => simp
  | case3 => simp

/-- The least height of a tree with room for this many leaves. -/
def height (leaves : Nat) : Nat :=
  if leaves ≤ 1 then 0 else height ((leaves + 1) / 2) + 1
termination_by leaves
decreasing_by omega

/-- The root of the tree of a height over leaves, from the top down: where the leaves fit the left half, it is joined with
itself. -/
def tree (join : Hash → Hash → Hash) : Nat → List Hash → Hash
  | 0, leaves => leaves.headD default
  | height + 1, leaves =>
    let left := tree join height (leaves.take (2 ^ height))
    if leaves.length ≤ 2 ^ height then join left left else join left (tree join height (leaves.drop (2 ^ height)))

/-- The list of `2 ^ height` leaves that a tree of a height stands for: where the leaves fit the left half, it is repeated. -/
def expand {α : Type} : Nat → List α → List α
  | 0, leaves => leaves
  | height + 1, leaves =>
    let left := expand height (leaves.take (2 ^ height))
    if leaves.length ≤ 2 ^ height then left ++ left else left ++ expand height (leaves.drop (2 ^ height))

end Merkle

namespace Combiner

/-- The digest of two nodes side by side. -/
def join (combiner : Combiner) (algorithm : Algorithm) (left right : Hash) : Traced Hash :=
  combiner.digestWith [Field.ofHash left, Field.ofHash right] algorithm

/-- The nodes of the next level. -/
def reduceLevel (combiner : Combiner) (algorithm : Algorithm) (nodes : List Hash) : Traced (List Hash) :=
  Traced.forEach (Merkle.pairs nodes) fun (left, right) => combiner.join algorithm left right

/-- A level of at least two nodes has fewer nodes above it, and at least one. -/
theorem length_reduceLevel (combiner : Combiner) (algorithm : Algorithm) (nodes : List Hash) :
    (combiner.reduceLevel algorithm nodes).value.length = (nodes.length + 1) / 2 := by
  simp [reduceLevel, Merkle.length_pairs]

/-- The last level above the given one, which is reached round by round; each round is reported with its depth and the number of
nodes it leaves. -/
def reduceFrom (combiner : Combiner) (algorithm : Algorithm) (depth : Nat) (nodes : List Hash) : Traced (List Hash) :=
  if _h : nodes.length ≤ 1 then pure nodes
  else
    let level := combiner.reduceLevel algorithm nodes
    let report := Traced.report (.event (.levelReduced depth level.value.length))
    let above := combiner.reduceFrom algorithm (depth + 1) level.value
    ⟨above.value, level.entries ++ (report.entries ++ above.entries)⟩
termination_by nodes.length
decreasing_by
  rw [length_reduceLevel]
  omega

/-- The hash that stands for the root of no leaves: zeros, as many as a digest of the algorithm has bytes. Where the algorithm
fixes no length, the engine is asked for the digest of no fields. -/
def emptyRoot (combiner : Combiner) (algorithm : Algorithm) : Traced Hash :=
  match algorithm.outputLength with
  | some length => pure (Hash.zero length)
  | none => do return Hash.zero (← combiner.digestWith [] algorithm).length

/-- The Merkle root of leaves under an algorithm. -/
def merkleRootWith (combiner : Combiner) (leaves : List Hash) (algorithm : Algorithm) : Traced Hash := do
  let algorithm ← combiner.resolve algorithm
  match ← combiner.reduceFrom algorithm 0 leaves with
  | root :: _ => return root
  | [] => combiner.emptyRoot algorithm

/-- The Merkle root of leaves under the configured algorithm. -/
def merkleRoot (combiner : Combiner) (leaves : List Hash) : Traced Hash :=
  combiner.merkleRootWith leaves combiner.config.fallback

/-- The Merkle root of leaves under an algorithm that has to be given. -/
def merkleRootRequiring (combiner : Combiner) (leaves : List Hash) : Option Algorithm → Except Fault (Traced Hash)
  | none => .error .missingAlgorithm
  | some algorithm => .ok (combiner.merkleRootWith leaves algorithm)

/-! ## Levels -/

/-- A level of at most one node is the last. -/
theorem reduceFrom_of_le (combiner : Combiner) (algorithm : Algorithm) (depth : Nat) {nodes : List Hash}
    (h : nodes.length ≤ 1) : combiner.reduceFrom algorithm depth nodes = pure nodes := by
  rw [reduceFrom, dif_pos h]

/-- A level of more than one node is reduced, the round is reported, and the next level follows. -/
theorem reduceFrom_of_lt (combiner : Combiner) (algorithm : Algorithm) (depth : Nat) {nodes : List Hash}
    (h : 1 < nodes.length) :
    combiner.reduceFrom algorithm depth nodes = (do
      let level ← combiner.reduceLevel algorithm nodes
      Traced.report (.event (.levelReduced depth level.length))
      combiner.reduceFrom algorithm (depth + 1) level) := by
  rw [reduceFrom, dif_neg (by omega)]
  rfl

end Combiner

end SealedLedger
