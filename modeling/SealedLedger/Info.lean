import SealedLedger.Block
import SealedLedger.Json.Record

/-!
# Reports on transactions and blocks

A report holds what a block or a transaction shows to the outside: hexadecimal texts, and timestamps in double precision. Reports
can be read from JSON.
-/

namespace SealedLedger

/-! ## Transactions -/

/-- A report on a transaction. -/
structure TransactionInfo where
  hash : String
  text : String
  senderHash : String
  signature : String
  timestamp : Binary64
  deriving DecidableEq

namespace TransactionInfo

/-- The report on a transaction. -/
def ofTransaction (transaction : Transaction) : TransactionInfo where
  hash := transaction.hash.hex
  text := transaction.text
  senderHash := transaction.senderHash.hex
  signature := Text.Hex.encode transaction.signature
  timestamp := Binary64.ofInt transaction.timestamp.toInt

/-- A report of which some fields are known. -/
structure Partial where
  hash : Option String := none
  text : Option String := none
  senderHash : Option String := none
  signature : Option String := none
  timestamp : Option Binary64 := none

/-- How a report on a transaction is read. -/
def shape : Json.Shape Partial TransactionInfo where
  title := "struct TransactionInfo"
  fields :=
    [⟨"hash", (·.hash.isSome), (Json.Reader.text "a string").map fun s p => { p with hash := some s }⟩,
      ⟨"text", (·.text.isSome), (Json.Reader.text "a string").map fun s p => { p with text := some s }⟩,
      ⟨"sender_hash", (·.senderHash.isSome),
        (Json.Reader.text "a string").map fun s p => { p with senderHash := some s }⟩,
      ⟨"signature", (·.signature.isSome),
        (Json.Reader.text "a string").map fun s p => { p with signature := some s }⟩,
      ⟨"timestamp", (·.timestamp.isSome), Json.Reader.float.map fun x p => { p with timestamp := some x }⟩]
  empty := {}
  finish p := do
    let hash ← Json.require "hash" p.hash
    let text ← Json.require "text" p.text
    let senderHash ← Json.require "sender_hash" p.senderHash
    let signature ← Json.require "signature" p.signature
    let timestamp ← Json.require "timestamp" p.timestamp
    return { hash, text, senderHash, signature, timestamp }
  allowsShortList := false

end TransactionInfo

/-! ## Blocks -/

/-- A report on a block. -/
structure BlockInfo where
  hash : String
  predecessor : Option String
  merkleRoot : String
  tries : UInt32
  timestamp : Binary64
  leadingZeros : UInt32
  algorithm : String
  data : String
  transactions : List TransactionInfo
  deriving DecidableEq

namespace BlockInfo

/-- A number in 32 bits, or the greatest of these where it has more. -/
def clampToWord32 (n : UInt64) : UInt32 :=
  UInt32.ofNat (min n.toNat (2 ^ 32 - 1))

/-- The report on a block. -/
def ofBlock (block : Block) : BlockInfo where
  hash := block.hash.hex
  predecessor := block.predecessor.map Hash.hex
  merkleRoot := block.merkleRoot.hex
  tries := clampToWord32 block.tries
  timestamp := Binary64.ofInt block.timestamp.toInt
  leadingZeros := UInt32.ofNat block.leadingZeros
  algorithm := block.algorithm.name
  data := block.data
  transactions := block.transactions.map TransactionInfo.ofTransaction

/-- A report of which some fields are known. -/
structure Partial where
  hash : Option String := none
  predecessor : Option (Option String) := none
  merkleRoot : Option String := none
  tries : Option UInt32 := none
  timestamp : Option Binary64 := none
  leadingZeros : Option UInt32 := none
  algorithm : Option String := none
  data : Option String := none
  transactions : Option (List TransactionInfo) := none

/-- How a report on a block is read; an object may leave out the predecessor. -/
def shape : Json.Shape Partial BlockInfo where
  title := "struct BlockInfo"
  fields :=
    [⟨"hash", (·.hash.isSome), (Json.Reader.text "a string").map fun s p => { p with hash := some s }⟩,
      ⟨"previous_hash", (·.predecessor.isSome),
        (Json.Reader.text? "a string").map fun s p => { p with predecessor := some s }⟩,
      ⟨"merkle_root", (·.merkleRoot.isSome),
        (Json.Reader.text "a string").map fun s p => { p with merkleRoot := some s }⟩,
      ⟨"tries", (·.tries.isSome), Json.Reader.word32.map fun n p => { p with tries := some n }⟩,
      ⟨"timestamp", (·.timestamp.isSome), Json.Reader.float.map fun x p => { p with timestamp := some x }⟩,
      ⟨"leading_zeros", (·.leadingZeros.isSome), Json.Reader.word32.map fun n p => { p with leadingZeros := some n }⟩,
      ⟨"algorithm", (·.algorithm.isSome),
        (Json.Reader.text "a string").map fun s p => { p with algorithm := some s }⟩,
      ⟨"data", (·.data.isSome), (Json.Reader.text "a string").map fun s p => { p with data := some s }⟩,
      ⟨"transactions", (·.transactions.isSome),
        TransactionInfo.shape.reader.list.map fun ts p => { p with transactions := some ts }⟩]
  empty := {}
  finish p := do
    let hash ← Json.require "hash" p.hash
    let merkleRoot ← Json.require "merkle_root" p.merkleRoot
    let tries ← Json.require "tries" p.tries
    let timestamp ← Json.require "timestamp" p.timestamp
    let leadingZeros ← Json.require "leading_zeros" p.leadingZeros
    let algorithm ← Json.require "algorithm" p.algorithm
    let data ← Json.require "data" p.data
    let transactions ← Json.require "transactions" p.transactions
    return {
      hash, predecessor := p.predecessor.join, merkleRoot, tries, timestamp, leadingZeros, algorithm, data,
      transactions }
  allowsShortList := false

end BlockInfo

end SealedLedger
