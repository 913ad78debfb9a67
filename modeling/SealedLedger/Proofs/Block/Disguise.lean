import Mathlib.Data.List.Forall2
import Mathlib.Logic.Relation
import SealedLedger.Proofs.Block.Commitment
import SealedLedger.Proofs.Merkle.Binding
import SealedLedger.Proofs.Resolving

/-!
# Nodes of a Merkle tree that pass for transactions

A node of a Merkle tree is the digest of two nodes side by side, and a transaction's hash is the digest of its fields end to end.
So two nodes can be read as a transaction without a text: the left one is its sender, and the right one its signature and, in the
last eight bytes, its timestamp (`Transaction.hash_ofNodes`). A block whose transactions are replaced by those that its pairs of
leaves read as has half as many, and is a twin of the first one (`Block.Made.exists_disguises`). Where digests have at least eight
bytes this can be repeated down to one transaction. Main statement: `Block.disguised_down_to_one`.
-/

namespace SealedLedger

/-- The 64-bit integer that eight bytes spell in two's complement, most significant first. -/
def Bytes.signed (bytes : Bytes) : Int64 :=
  (UInt64.ofNat (value bytes)).toInt64

/-- Any eight bytes are the ones that their integer contributes to a digest. -/
theorem Bytes.encode_signed {bytes : Bytes} (eight : bytes.length = 8) : (Field.integer (signed bytes)).encode = bytes := by
  have spelled := bigEndian_value eight
  have room : value bytes % 2 ^ 64 = value bytes := by
    have h := value_bigEndian 8 (value bytes)
    rw [spelled] at h
    exact h.symm
  rw [Field.encode, signed, UInt64.toUInt64_toInt64, UInt64.toNat_ofNat', room, spelled]

/-! ## Two nodes as a transaction -/

namespace Transaction

/-- The builder of the transaction that two nodes side by side can be read as: no text, the left node as the sender, and the right
one as the signature and the timestamp. -/
def Builder.ofNodes (algorithm : Algorithm) (left right : Hash) : Builder :=
  .ofSettings
    [.text "", .senderHash left, .signature (right.bytes.take (right.length - 8)),
      .timestamp (Bytes.signed (right.bytes.drop (right.length - 8))), .algorithm algorithm]

/-- The transaction that two nodes side by side can be read as. -/
def ofNodes (engine : Engine) (algorithm : Algorithm) (left right : Hash) : Transaction :=
  (assemble ⟨engine, Config.standard⟩ "" left (right.bytes.take (right.length - 8))
    (Bytes.signed (right.bytes.drop (right.length - 8))) algorithm).value

variable {engine : Engine} {algorithm : Algorithm} {left right : Hash}

theorem settled_ofNodes : (ofNodes engine algorithm left right).Settled engine :=
  settled_assemble ⟨engine, Config.standard⟩ ..

variable (known : algorithm ≠ .unknown)

include known

/-- The builder gives that transaction under every configuration and at any time. -/
theorem build_ofNodes (config : Config) (now : Int64) :
    ((Builder.ofNodes algorithm left right).build ⟨engine, config⟩ now).map Traced.value =
      .ok (ofNodes engine algorithm left right) := by
  have same := ((assemble_resolvesFirst "" left (right.bytes.take (right.length - 8))
    (Bytes.signed (right.bytes.drop (right.length - 8)))).steady engine known).same config Config.standard
  exact congrArg (fun result => Except.ok result.value) same

theorem algorithm_ofNodes : (ofNodes engine algorithm left right).algorithm = algorithm :=
  congrArg Traced.value (Combiner.resolve_of_known ⟨engine, Config.standard⟩ known)

/-- The hash of the transaction that two nodes can be read as is the node above them. -/
theorem hash_ofNodes (long : 8 ≤ right.length) : (ofNodes engine algorithm left right).hash = engine.join algorithm left right := by
  have eight : (right.bytes.drop (right.length - 8)).length = 8 := by
    rw [List.length_drop]
    exact Nat.sub_sub_self long
  have covered : (ofNodes engine algorithm left right).preimage = left.bytes ++ right.bytes := by
    calc (ofNodes engine algorithm left right).preimage
        = [] ++ left.bytes ++ right.bytes.take (right.length - 8) ++
            (Field.integer (Bytes.signed (right.bytes.drop (right.length - 8)))).encode := rfl
      _ = left.bytes ++ right.bytes := by
        rw [Bytes.encode_signed eight, List.nil_append, List.append_assoc, List.take_append_drop]
  rw [settled_ofNodes.hash, algorithm_ofNodes known, covered]
  rfl

end Transaction

/-! ## Blocks in disguise -/

namespace Block

/-- The draft of a block with other transactions. -/
def redraft (block : Block) (transactions : List Transaction) : Draft where
  predecessor := block.predecessor
  transactions
  tries := block.tries
  timestamp := some block.timestamp
  data := block.data
  algorithm := some block.algorithm

/-- A block lists, in place of another one's transactions, those that the pairs of its leaves can be read as, a last leaf on its own
being read twice; sealed with all else unchanged it is a twin of that block. -/
structure Disguises (engine : Engine) (block other : Block) : Prop where
  sealed : ∀ config now, ((block.redraft other.transactions).sealWith ⟨engine, config⟩ now).value = other
  built : List.Forall₂
    (fun pair transaction => ∀ config now,
      ((Transaction.Builder.ofNodes block.algorithm pair.1 pair.2).build ⟨engine, config⟩ now).map Traced.value = .ok transaction)
    (Merkle.pairs (leaves block.transactions)) other.transactions
  count : other.transactions.length = (block.transactions.length + 1) / 2
  verifying : ∀ transaction ∈ other.transactions, ∀ config, (transaction.verify ⟨engine, config⟩).value = true
  twin : block.Twin engine other

variable {engine : Engine} {block other : Block}

/-- The draft of a block that was made is sealed to one and the same block under every configuration and at any time, and that
block is a twin if the transactions have the root of the old ones. -/
theorem Made.exists_redraft_sealed (made : block.Made engine) {transactions : List Transaction}
    (roots : engine.merkleRoot block.algorithm (leaves transactions) =
      engine.merkleRoot block.algorithm (leaves block.transactions)) :
    ∃ other, (∀ config now, ((block.redraft transactions).sealWith ⟨engine, config⟩ now).value = other) ∧
      other.transactions = transactions ∧ block.Twin engine other := by
  have known := made.settled.known
  have settled := settled_sealWith ⟨engine, Config.standard⟩ 0 (block.redraft transactions)
  have stored : ((block.redraft transactions).sealWith ⟨engine, Config.standard⟩ 0).value.algorithm = block.algorithm :=
    congrArg Traced.value (Combiner.resolve_of_known ⟨engine, Config.standard⟩ known)
  refine ⟨_, fun config now => ?_, rfl, made.settled.twin settled stored made.filter_predecessor rfl rfl roots⟩
  have same := (((block.redraft transactions).sealWith_resolvesFirst now).steady engine known).same config Config.standard
  exact congrArg Traced.value same

/-- A block of at least two transactions, whose hashes have at least eight bytes, can be disguised. -/
theorem Made.exists_disguises (made : block.Made engine) (many : 2 ≤ block.transactions.length)
    (long : ∀ transaction ∈ block.transactions, 8 ≤ transaction.hash.length) : ∃ other, block.Disguises engine other := by
  have known := made.settled.known
  let read := fun pair : Hash × Hash => Transaction.ofNodes engine block.algorithm pair.1 pair.2
  let transactions := (Merkle.pairs (leaves block.transactions)).map read
  have level : leaves transactions = Merkle.up (engine.join block.algorithm) (leaves block.transactions) := by
    rw [leaves, List.map_map]
    refine List.map_congr_left fun pair hp => Transaction.hash_ofNodes known ?_
    obtain ⟨transaction, ht, right⟩ := List.mem_map.1 (Merkle.mem_of_mem_pairs hp).2
    rw [← right]
    exact long transaction ht
  have roots : engine.merkleRoot block.algorithm (leaves transactions) =
      engine.merkleRoot block.algorithm (leaves block.transactions) := by
    have many : 1 < (leaves block.transactions).length := by rwa [leaves, List.length_map]
    rw [engine.merkleRoot_up block.algorithm many, level]
  obtain ⟨other, sealed, listed, twin⟩ := made.exists_redraft_sealed roots
  refine ⟨other, listed ▸ sealed, ?_, ?_, fun transaction ht config => ?_, twin⟩
  · rw [listed, List.forall₂_map_right_iff, List.forall₂_same]
    exact fun pair _ => Transaction.build_ofNodes known
  · rw [listed, List.length_map, Merkle.length_pairs, leaves, List.length_map]
  · rw [listed] at ht
    obtain ⟨pair, -, rfl⟩ := List.mem_map.1 ht
    exact (Transaction.verify_iff ⟨engine, config⟩ Transaction.settled_ofNodes.known).2 Transaction.settled_ofNodes

/-- A block in disguise was made as well. -/
theorem Disguises.made (disguises : block.Disguises engine other) : other.Made engine := by
  rw [← disguises.sealed Config.standard 0]
  exact .sealed _ Config.standard 0

section

variable (disguises : block.Disguises engine other) (known : block.algorithm ≠ .unknown)

include disguises known

theorem Disguises.algorithm_eq : other.algorithm = block.algorithm := by
  rw [← disguises.sealed Config.standard 0]
  exact congrArg Traced.value (Combiner.resolve_of_known ⟨engine, Config.standard⟩ known)

theorem Disguises.transactions_eq :
    other.transactions = (Merkle.pairs (leaves block.transactions)).map
      fun pair => Transaction.ofNodes engine block.algorithm pair.1 pair.2 := by
  have same := disguises.built.imp fun pair transaction built =>
    Except.ok.inj ((Transaction.build_ofNodes known Config.standard 0).symm.trans (built Config.standard 0))
  rw [← List.forall₂_map_left_iff, List.forall₂_eq_eq_eq] at same
  exact same.symm

/-- The transactions of a block in disguise have hashes as long as digests are. -/
theorem Disguises.long (digests : ∀ data, 8 ≤ (engine block.algorithm data).length) :
    ∀ transaction ∈ other.transactions, 8 ≤ transaction.hash.length := by
  rw [disguises.transactions_eq known]
  intro transaction ht
  obtain ⟨pair, -, rfl⟩ := List.mem_map.1 ht
  rw [Transaction.settled_ofNodes.hash, Transaction.algorithm_ofNodes known]
  exact digests _

end

/-- Where digests have at least eight bytes, a block can be disguised over and over until one transaction is left. -/
theorem Made.exists_one (made : block.Made engine) (some : 1 ≤ block.transactions.length)
    (long : ∀ transaction ∈ block.transactions, 8 ≤ transaction.hash.length)
    (digests : ∀ data, 8 ≤ (engine block.algorithm data).length) :
    ∃ other, Relation.ReflTransGen (Disguises engine) block other ∧ other.transactions.length = 1 ∧ block.Twin engine other := by
  -- by the number of transactions, which every disguise halves
  induction hn : block.transactions.length using Nat.strong_induction_on generalizing block with
  | _ n ih =>
    by_cases one : block.transactions.length = 1
    · exact ⟨block, .refl, one, .refl made.settled⟩
    · obtain ⟨next, disguises⟩ := made.exists_disguises (by omega) long
      have known := made.settled.known
      have count := disguises.count
      have stored := disguises.algorithm_eq known
      obtain ⟨other, steps, single, twin⟩ := ih next.transactions.length (by omega) disguises.made (by omega)
        (disguises.long known digests) (stored ▸ digests) rfl
      exact ⟨other, .head disguises steps, single, disguises.twin.trans twin⟩

/-- Nodes of a Merkle tree pass for transactions. Take a block that was made over an engine, of at least two transactions whose
hashes have at least eight bytes. There is a block of half as many transactions, rounded up, each built under the same algorithm
from a pair of leaves and verifying, that is sealed with the same predecessor, tries, timestamp and algorithm and has the same root
and the same hash; it verifies too. Where the digests have at least eight bytes, repeating this leads to such a block with exactly
one transaction. So a hash does not commit to the number of transactions. -/
theorem disguised_down_to_one (made : block.Made engine) (many : 2 ≤ block.transactions.length)
    (long : ∀ transaction ∈ block.transactions, 8 ≤ transaction.hash.length) :
    (∃ other, block.Disguises engine other) ∧
      ((∀ data, 8 ≤ (engine block.algorithm data).length) →
        ∃ other, Relation.ReflTransGen (Disguises engine) block other ∧ other.transactions.length = 1 ∧
          block.Twin engine other) :=
  ⟨made.exists_disguises many long, made.exists_one (by omega) long⟩

/-- Three transactions under the standard algorithms, and one that has the same block hash. -/
theorem disguised_down_to_one_standard :
    let signed := fun n => (Transaction.assemble Combiner.standard "" ⟨[]⟩ [n] 0 .unknown).value
    let block := ((Draft.genesis.edit (.transactions ([1, 2, 3].map signed))).sealWith Combiner.standard 7).value
    block.transactions.length = 3 ∧
      (∃ other, block.Disguises Engine.standard other) ∧
        ∃ other, Relation.ReflTransGen (Disguises Engine.standard) block other ∧ other.transactions.length = 1 ∧
          block.Twin Engine.standard other := by
  intro signed block
  have digests : ∀ data, 8 ≤ (Engine.standard .sha256 data).length := by
    intro data
    rw [Engine.length_standard rfl]
    decide
  have long : ∀ transaction ∈ block.transactions, 8 ≤ transaction.hash.length := by
    intro transaction ht
    obtain ⟨n, -, rfl⟩ := List.mem_map.1 (show transaction ∈ [1, 2, 3].map signed from ht)
    exact digests _
  have made : block.Made Engine.standard := .sealed _ Config.standard 7
  have many : block.transactions.length = 3 := rfl
  obtain ⟨once, repeated⟩ := disguised_down_to_one made (by omega) long
  exact ⟨many, once, repeated digests⟩

end Block

end SealedLedger
