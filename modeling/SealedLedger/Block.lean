import SealedLedger.Merkle
import SealedLedger.Transaction

/-!
# Blocks, drafts and chains

A block lists transactions and names the block before it by its hash. Its own hash is the digest of the predecessor's hash, the
Merkle root of the transactions, a counter of tries and a timestamp; the annotation is not covered. A draft gathers what a block
is made of, and sealing it computes root and hash. A first block has no predecessor; an empty predecessor's hash counts as none.
-/

namespace SealedLedger

/-- A sealed block. -/
structure Block where
  predecessor : Option Hash
  transactions : List Transaction
  tries : UInt64
  /-- Milliseconds since the start of 1970. -/
  timestamp : Int64
  merkleRoot : Hash
  hash : Hash
  /-- An annotation, which the hash does not cover. -/
  data : String
  algorithm : Algorithm
  deriving DecidableEq

namespace Block

/-- The bytes that stand for a predecessor. -/
def predecessorBytes (predecessor : Option Hash) : Bytes :=
  (predecessor.map Hash.bytes).getD []

/-- The fields that the hash covers. -/
def fields (predecessor : Option Hash) (merkleRoot : Hash) (tries : UInt64) (timestamp : Int64) : List Field :=
  [.bytes (predecessorBytes predecessor), Field.ofHash merkleRoot, Field.ofWord tries, .integer timestamp]

/-- The bytes that the hash of a block covers: predecessor, Merkle root, and eight bytes each of tries and timestamp. -/
def preimage (block : Block) : Bytes :=
  predecessorBytes block.predecessor ++ block.merkleRoot.bytes ++ Bytes.bigEndian 8 block.tries.toNat ++
    Bytes.bigEndian 8 block.timestamp.toUInt64.toNat

/-- The hashes of transactions, which are the leaves of a block's Merkle tree. -/
def leaves (transactions : List Transaction) : List Hash :=
  transactions.map Transaction.hash

/-- The block with another counter of tries and the hash that goes with it; nothing else changes. -/
def withTries (combiner : Combiner) (tries : UInt64) (block : Block) : Traced Block := do
  let hash ← combiner.digestWith (fields block.predecessor block.merkleRoot tries block.timestamp) block.algorithm
  return { block with tries, hash }

/-- The number of zero bytes that the hash starts with. -/
def leadingZeros (block : Block) : Nat :=
  block.hash.leadingZeroBytes

/-- Whether the hash starts with at least that many zero bytes. -/
def meetsDifficulty (block : Block) (zeroBytes : Nat) : Bool :=
  block.hash.meetsDifficulty zeroBytes

/-- Whether the block has no predecessor. -/
def isGenesis (block : Block) : Bool :=
  block.predecessor.isNone

/-- Whether the block names the other one as its predecessor. -/
def linksTo (block previous : Block) : Bool :=
  block.predecessor = some previous.hash

/-- Whether root and hash are the ones that the other fields lead to. A wrong root is enough to refuse the block. -/
def verify (combiner : Combiner) (block : Block) : Traced Bool := do
  let root ← combiner.merkleRootWith (leaves block.transactions) block.algorithm
  if root ≠ block.merkleRoot then
    return false
  let hash ← combiner.digestWith (fields block.predecessor root block.tries block.timestamp) block.algorithm
  return hash = block.hash

/-- The JSON value that describes a block. -/
def toJson (block : Block) : Json.Value :=
  .object
    [("previous_block_hash", .ofText? (block.predecessor.map Hash.hex)),
      ("transactions", .list (block.transactions.map Transaction.toJson)),
      ("tries", .ofInt block.tries.toNat),
      ("timestamp", .ofInt block.timestamp.toInt),
      ("merkle_root", block.merkleRoot.toJson),
      ("hash", block.hash.toJson),
      ("data", .text block.data),
      ("algorithm", block.algorithm.toJson)]

/-- The fields laid end to end are the covered bytes. -/
theorem encodeAll_fields (block : Block) :
    Field.encodeAll (fields block.predecessor block.merkleRoot block.tries block.timestamp) = block.preimage := by
  simp [fields, preimage, Field.encodeAll, Field.encode, Field.ofWord, Field.ofHash]

end Block

/-! ## Drafts -/

/-- A block in the making. -/
structure Draft where
  predecessor : Option Hash := none
  transactions : List Transaction := []
  tries : UInt64 := 0
  timestamp : Option Int64 := none
  data : String := ""
  algorithm : Option Algorithm := none
  deriving DecidableEq

namespace Draft

/-- A draft without a predecessor. -/
def genesis : Draft := {}

/-- A draft on top of the block with this hash. -/
def onTopOf (predecessor : Hash) : Draft :=
  { predecessor := some predecessor }

/-- A change to a draft. -/
inductive Edit where
  /-- Adds a transaction at the end. -/
  | push (transaction : Transaction)
  /-- Replaces all transactions. -/
  | transactions (transactions : List Transaction)
  | tries (tries : UInt64)
  | timestamp (timestamp : Int64)
  | data (data : String)
  | algorithm (algorithm : Algorithm)
  deriving DecidableEq

/-- The draft after a change. -/
def edit (draft : Draft) : Edit → Draft
  | .push transaction => { draft with transactions := draft.transactions ++ [transaction] }
  | .transactions transactions => { draft with transactions }
  | .tries tries => { draft with tries }
  | .timestamp timestamp => { draft with timestamp := some timestamp }
  | .data data => { draft with data }
  | .algorithm algorithm => { draft with algorithm := some algorithm }

/-- The draft after changes in order. -/
def editAll (draft : Draft) (edits : List Edit) : Draft :=
  edits.foldl edit draft

/-- The number of transactions. -/
def size (draft : Draft) : Nat :=
  draft.transactions.length

/-- Whether there are no transactions. -/
def isEmpty (draft : Draft) : Bool :=
  draft.transactions.isEmpty

/-- The block that the draft describes; a missing timestamp is the time `now` and a missing algorithm the configured one. -/
def sealWith (combiner : Combiner) (now : Int64) (draft : Draft) : Traced Block := do
  let algorithm ← combiner.resolve (draft.algorithm.getD combiner.config.fallback)
  let timestamp := draft.timestamp.getD now
  let predecessor := draft.predecessor.filter fun hash => !hash.isEmpty
  let merkleRoot ← combiner.merkleRootWith (Block.leaves draft.transactions) algorithm
  let hash ← combiner.digestWith (Block.fields predecessor merkleRoot draft.tries timestamp) algorithm
  Traced.report <| .event <|
    .blockSealed hash merkleRoot draft.transactions.length draft.tries predecessor.isNone
  return { draft with predecessor, timestamp, merkleRoot, hash, algorithm }

end Draft

/-- The block of a predecessor, transactions and tries at the time `now`, where nothing else is chosen. -/
def Block.create (predecessor : Option Hash) (transactions : List Transaction) (tries : UInt64) (now : Int64) :
    Traced Block :=
  Draft.sealWith Combiner.standard now { predecessor, transactions, tries }

/-! ## Chains -/

/-- Every block but the first names the one before it. -/
def Linked : List Block → Prop
  | previous :: block :: rest => block.linksTo previous = true ∧ Linked (block :: rest)
  | _ => True

/-- Blocks form a valid chain, from the oldest on: the first has no predecessor, every other one names the one before it, and
all of them are what their fields lead to. -/
structure ValidChain (combiner : Combiner) (blocks : List Block) : Prop where
  first : ∃ block, blocks.head? = some block ∧ block.isGenesis = true
  linked : Linked blocks
  verified : ∀ block ∈ blocks, (block.verify combiner).value = true

end SealedLedger
