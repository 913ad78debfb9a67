import SealedLedger.Address
import SealedLedger.Block
import SealedLedger.Proofs.Merkle.Levels

/-!
# Settled entities

An address, a transaction or a block is settled under an engine if it stores a known algorithm and its hash, and for a block its
root too, is what the engine makes of the other fields. Whether an entity is settled does not depend on any configuration, and
verifying decides it (`verify_iff` of each kind). Everything that is made is settled: deriving, assembling, sealing and setting
the tries anew all lead to settled entities.
-/

namespace SealedLedger

namespace Address

/-- A known algorithm is stored, and the hash is the digest of the covered bytes. -/
structure Settled (engine : Engine) (address : Address) : Prop where
  known : address.algorithm ≠ .unknown
  hash : address.hash = ⟨engine address.algorithm address.preimage⟩

/-- Verifying decides whether an address that stores a known algorithm is settled. -/
theorem verify_iff (combiner : Combiner) {address : Address} (known : address.algorithm ≠ .unknown) :
    (address.verify combiner).value = true ↔ address.Settled combiner.engine := by
  rw [verify, Combiner.digestWith_of_known combiner _ known, encodeAll_fields]
  constructor
  · intro h
    exact ⟨known, (of_decide_eq_true h).symm⟩
  · intro settled
    exact decide_eq_true settled.hash.symm

/-- A derived address is settled. -/
theorem settled_derive (combiner : Combiner) (name : String) (publicKey : Bytes) (algorithm : Algorithm) :
    (derive combiner name publicKey algorithm).value.Settled combiner.engine := by
  have known := combiner.resolve_known algorithm
  refine ⟨known, ?_⟩
  rw [← encodeAll_fields]
  simp only [derive, Traced.value_bind, Combiner.digestWith_of_known combiner _ known]
  rfl

/-- The addresses that are derived by combiners over one engine. -/
inductive Made (engine : Engine) : Address → Prop where
  | derived (config : Config) (name : String) (publicKey : Bytes) (algorithm : Algorithm) :
    Made engine (derive ⟨engine, config⟩ name publicKey algorithm).value

/-- An address that was made is settled. -/
theorem Made.settled {engine : Engine} {address : Address} (made : address.Made engine) : address.Settled engine := by
  cases made with
  | derived config name publicKey algorithm => exact settled_derive ⟨engine, config⟩ name publicKey algorithm

end Address

namespace Transaction

/-- A known algorithm is stored, and the hash is the digest of the covered bytes. -/
structure Settled (engine : Engine) (transaction : Transaction) : Prop where
  known : transaction.algorithm ≠ .unknown
  hash : transaction.hash = ⟨engine transaction.algorithm transaction.preimage⟩

/-- Verifying decides whether a transaction that stores a known algorithm is settled. -/
theorem verify_iff (combiner : Combiner) {transaction : Transaction} (known : transaction.algorithm ≠ .unknown) :
    (transaction.verify combiner).value = true ↔ transaction.Settled combiner.engine := by
  rw [verify, Combiner.digestWith_of_known combiner _ known, encodeAll_fields]
  constructor
  · intro h
    exact ⟨known, (of_decide_eq_true h).symm⟩
  · intro settled
    exact decide_eq_true settled.hash.symm

/-- An assembled transaction is settled. -/
theorem settled_assemble (combiner : Combiner) (text : String) (senderHash : Hash) (signature : Bytes) (timestamp : Int64)
    (algorithm : Algorithm) :
    (assemble combiner text senderHash signature timestamp algorithm).value.Settled combiner.engine := by
  have known := combiner.resolve_known algorithm
  refine ⟨known, ?_⟩
  rw [← encodeAll_fields]
  simp only [assemble, Traced.value_bind, Combiner.digestWith_of_known combiner _ known]
  rfl

/-- A transaction that a builder gives is settled. -/
theorem Builder.settled_build {builder : Builder} {combiner : Combiner} {now : Int64} {result : Traced Transaction}
    (built : builder.build combiner now = .ok result) : result.value.Settled combiner.engine := by
  unfold build at built
  split at built
  · cases built
  · cases built
  · cases built
  · cases built
    exact settled_assemble ..

/-- The transactions that builders give to combiners over one engine. -/
inductive Made (engine : Engine) : Transaction → Prop where
  | built {builder : Builder} {config : Config} {now : Int64} {result : Traced Transaction}
    (built : builder.build ⟨engine, config⟩ now = .ok result) : Made engine result.value

/-- Every transaction that is assembled can be had from a builder. -/
theorem made_assemble (engine : Engine) (config : Config) (text : String) (senderHash : Hash) (signature : Bytes)
    (timestamp : Int64) (algorithm : Algorithm) :
    (assemble ⟨engine, config⟩ text senderHash signature timestamp algorithm).value.Made engine := by
  have built : ({ text, senderHash, signature, timestamp, algorithm } : Builder).build ⟨engine, config⟩ timestamp =
      .ok (assemble ⟨engine, config⟩ text senderHash signature timestamp algorithm) := rfl
  exact .built built

/-- A transaction that was made is settled. -/
theorem Made.settled {engine : Engine} {transaction : Transaction} (made : transaction.Made engine) :
    transaction.Settled engine := by
  cases made with
  | built built => exact Builder.settled_build built

end Transaction

namespace Block

/-- A known algorithm is stored, the root is that of the transactions, and the hash is the digest of the covered bytes. -/
structure Settled (engine : Engine) (block : Block) : Prop where
  known : block.algorithm ≠ .unknown
  root : block.merkleRoot = engine.merkleRoot block.algorithm (leaves block.transactions)
  hash : block.hash = ⟨engine block.algorithm block.preimage⟩

/-- Verifying decides whether a block that stores a known algorithm is settled. -/
theorem verify_iff (combiner : Combiner) {block : Block} (known : block.algorithm ≠ .unknown) :
    (block.verify combiner).value = true ↔ block.Settled combiner.engine := by
  have root : (combiner.merkleRootWith (leaves block.transactions) block.algorithm).value =
      combiner.engine.merkleRoot block.algorithm (leaves block.transactions) := by
    rw [Combiner.value_merkleRootWith, combiner.resolve_of_known known]
    rfl
  by_cases h : combiner.engine.merkleRoot block.algorithm (leaves block.transactions) = block.merkleRoot
  · simp only [verify, Traced.value_bind, root, h, ne_eq, not_true_eq_false, if_false,
      Combiner.digestWith_of_known combiner _ known, encodeAll_fields]
    constructor
    · intro hd
      exact ⟨known, h.symm, (of_decide_eq_true hd).symm⟩
    · intro settled
      exact decide_eq_true settled.hash.symm
  · simp only [verify, Traced.value_bind, root, ne_eq, h, not_false_eq_true, if_true, Traced.value_pure]
    constructor
    · intro hf
      cases hf
    · intro settled
      exact absurd settled.root.symm h

/-- A sealed block is settled. -/
theorem settled_sealWith (combiner : Combiner) (now : Int64) (draft : Draft) :
    (draft.sealWith combiner now).value.Settled combiner.engine := by
  have known := combiner.resolve_known (draft.algorithm.getD combiner.config.fallback)
  refine ⟨known, ?_, ?_⟩
  · simp only [Draft.sealWith, Traced.value_bind, Combiner.value_merkleRootWith, combiner.resolve_of_known known]
    rfl
  · rw [← encodeAll_fields]
    simp only [Draft.sealWith, Traced.value_bind, Combiner.digestWith_of_known combiner _ known]
    rfl

/-- A settled block with its tries set anew is settled. -/
theorem Settled.withTries (combiner : Combiner) {block : Block} (settled : block.Settled combiner.engine) (tries : UInt64) :
    (block.withTries combiner tries).value.Settled combiner.engine := by
  refine ⟨settled.known, settled.root, ?_⟩
  rw [← encodeAll_fields]
  simp only [Block.withTries, Traced.value_bind, Combiner.digestWith_of_known combiner _ settled.known]
  rfl

/-- The blocks that come from sealing a draft and setting the tries anew any number of times, by combiners over one engine. -/
inductive Made (engine : Engine) : Block → Prop where
  | sealed (draft : Draft) (config : Config) (now : Int64) : Made engine (draft.sealWith ⟨engine, config⟩ now).value
  | retried {block : Block} (made : Made engine block) (config : Config) (tries : UInt64) :
    Made engine (block.withTries ⟨engine, config⟩ tries).value

/-- A block that was made is settled. -/
theorem Made.settled {engine : Engine} {block : Block} (made : block.Made engine) : block.Settled engine := by
  induction made with
  | sealed draft config now => exact settled_sealWith ⟨engine, config⟩ now draft
  | retried _ config tries ih => exact Settled.withTries ⟨engine, config⟩ ih tries

end Block

end SealedLedger
