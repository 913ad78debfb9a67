import Mathlib.Data.List.Forall2
import SealedLedger.Info

/-!
# What a report shows

A report shows what it reports on field by field: hashes and signatures by their spelling, timestamps by the number in double precision
next to them, and counters in 32 bits (`TransactionInfo.Shows`, `BlockInfo.Shows`). The transactions of a block are shown place by
place, so their number and their order can be read off the report. Main statement: `BlockInfo.shows_ofBlock`.
-/

namespace SealedLedger

/-- A report shows a transaction. -/
structure TransactionInfo.Shows (info : TransactionInfo) (transaction : Transaction) : Prop where
  hash : info.hash = transaction.hash.hex
  text : info.text = transaction.text
  senderHash : info.senderHash = transaction.senderHash.hex
  signature : info.signature = Text.Hex.encode transaction.signature
  timestamp : info.timestamp = Binary64.ofInt transaction.timestamp.toInt

/-- The report on a transaction shows it. -/
theorem TransactionInfo.shows_ofTransaction (transaction : Transaction) : (ofTransaction transaction).Shows transaction :=
  ⟨rfl, rfl, rfl, rfl, rfl⟩

/-- Reports on transactions show them place by place. -/
theorem TransactionInfo.forall₂_shows (transactions : List Transaction) :
    List.Forall₂ Shows (transactions.map ofTransaction) transactions := by
  rw [List.forall₂_map_left_iff, List.forall₂_same]
  intro transaction _
  exact shows_ofTransaction transaction

/-- A report shows a block. The counter of tries is cut off at the greatest number of 32 bits; the number of leading zeros, which is no
greater than the length of a hash, is taken modulo `2 ^ 32`. -/
structure BlockInfo.Shows (info : BlockInfo) (block : Block) : Prop where
  hash : info.hash = block.hash.hex
  predecessor : info.predecessor = block.predecessor.map Hash.hex
  merkleRoot : info.merkleRoot = block.merkleRoot.hex
  tries : info.tries.toNat = min block.tries.toNat (2 ^ 32 - 1)
  timestamp : info.timestamp = Binary64.ofInt block.timestamp.toInt
  leadingZeros : info.leadingZeros.toNat = block.hash.leadingZeroBytes % 2 ^ 32
  algorithm : info.algorithm = block.algorithm.name
  data : info.data = block.data
  transactions : List.Forall₂ TransactionInfo.Shows info.transactions block.transactions

/-- The report on a block shows it. -/
theorem BlockInfo.shows_ofBlock (block : Block) : (ofBlock block).Shows block where
  hash := rfl
  predecessor := rfl
  merkleRoot := rfl
  tries := UInt32.toNat_ofNat_of_lt' (Nat.lt_of_le_of_lt (Nat.min_le_right _ _) (by decide))
  timestamp := rfl
  leadingZeros := UInt32.toNat_ofNat'
  algorithm := rfl
  data := rfl
  transactions := TransactionInfo.forall₂_shows block.transactions

end SealedLedger
