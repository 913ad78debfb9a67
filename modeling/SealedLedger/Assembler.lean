import SealedLedger.Address
import SealedLedger.Boundary
import SealedLedger.Info

/-!
# Assembling blocks

An assembler queues transactions and seals them into blocks, all under one algorithm and the standard combiner. Its clock gives
the time in double precision. Calls that can change the assembler give the state after them beside their answer, whether they
succeed or are refused.
-/

namespace SealedLedger

/-- The transactions that wait for the next block, and the algorithm of all that is made. -/
structure Assembler where
  algorithm : Algorithm
  pending : List Transaction
  deriving DecidableEq

namespace Assembler

open Boundary

/-- An assembler for the named algorithm, or for the configured one where the name is unknown. -/
def create (algorithm : Option String) : Except Refusal (Traced Assembler) := do
  let algorithm ← orFault (parseAlgorithm algorithm)
  return do
    let algorithm ← Combiner.standard.resolve algorithm
    return { algorithm, pending := [] }

/-- The sender's hash and the signature that texts spell; the hash is read first. -/
def readSigned (senderHash signature : String) : Except Refusal (Hash × Bytes) := do
  let senderHash ← orFault (parseHash senderHash)
  let signature ← orUndecodable (decodeBytes signature)
  return (senderHash, signature)

/-- The builder of a transaction with everything set, stamped with the clock. -/
def builder (assembler : Assembler) (now : Binary64) (text : String) (senderHash : Hash) (signature : Bytes) :
    Transaction.Builder :=
  .ofSettings
    [.text text, .senderHash senderHash, .signature signature, .timestamp now.toInt64, .algorithm assembler.algorithm]

/-- Such a builder misses nothing. -/
theorem build_builder (assembler : Assembler) (now : Binary64) (text : String) (senderHash : Hash) (signature : Bytes) :
    (assembler.builder now text senderHash signature).build Combiner.standard now.toInt64 =
      .ok (Transaction.assemble Combiner.standard text senderHash signature now.toInt64 assembler.algorithm) :=
  rfl

/-- Queues the transaction that is built, stamped with the clock; the answer is its hash. -/
def add (assembler : Assembler) (now : Binary64) (text senderHash signature : String) :
    Traced (Assembler × Except Refusal String) :=
  match readSigned senderHash signature with
  | .error refusal => pure (assembler, .error refusal)
  | .ok (senderHash, signature) =>
    match orFault ((assembler.builder now text senderHash signature).build Combiner.standard now.toInt64) with
    | .error refusal => pure (assembler, .error refusal)
    | .ok building => do
      let transaction ← building
      return ({ assembler with pending := assembler.pending ++ [transaction] }, .ok transaction.hash.hex)

/-- The line that tells of a sealed block. -/
def sealedLine (block : Block) : String :=
  "sealed block " ++ block.hash.hex ++ " (" ++ toString block.transactions.length ++ " transactions, " ++
    toString block.leadingZeros ++ " leading zero bytes)"

/-- The draft of the next block: all that is pending, on top of the predecessor if there is one. -/
def draft (assembler : Assembler) (now : Binary64) (predecessor : Option Hash) (tries : UInt32)
    (data : Option String) : Draft :=
  (predecessor.elim Draft.genesis Draft.onTopOf).editAll
    [.transactions assembler.pending, .tries tries.toUInt64, .timestamp now.toInt64, .data (data.getD ""),
      .algorithm assembler.algorithm]

/-- Seals all pending transactions into a block, stamped with the clock; the answer is the block's report. The predecessor is read
before the queue is touched. -/
def sealPending (assembler : Assembler) (now : Binary64) (predecessor : Option String) (tries : UInt32)
    (data : Option String) : Traced (Assembler × Except Refusal BlockInfo) :=
  match orFault (parseOptionalHash predecessor) with
  | .error refusal => pure (assembler, .error refusal)
  | .ok predecessor => do
    let block ← (assembler.draft now predecessor tries data).sealWith Combiner.standard now.toInt64
    log (sealedLine block)
    return ({ assembler with pending := [] }, .ok (BlockInfo.ofBlock block))

/-- The reports on the pending transactions. -/
def pendingInfos (assembler : Assembler) : List TransactionInfo :=
  assembler.pending.map TransactionInfo.ofTransaction

/-- The number of pending transactions. -/
def pendingCount (assembler : Assembler) : UInt32 :=
  UInt32.ofNat assembler.pending.length

/-- Drops all pending transactions. -/
def clear (assembler : Assembler) : Assembler :=
  { assembler with pending := [] }

/-- The hash of the address of a name and a key. -/
def addressHash (assembler : Assembler) (name publicKey : String) : Traced (Except Refusal String) :=
  match orUndecodable (decodeBytes publicKey) with
  | .error refusal => pure (.error refusal)
  | .ok publicKey =>
    (fun address => .ok address.hash.hex) <$> Address.derive Combiner.standard name publicKey assembler.algorithm

/-! ## Calls in sequence -/

/-- A call on an assembler. -/
inductive Call where
  | add (text senderHash signature : String)
  | sealPending (predecessor : Option String) (tries : UInt32) (data : Option String)
  | clear
  | pending
  | pendingCount
  | addressHash (name publicKey : String)
  | algorithm
  deriving DecidableEq

/-- The answer to a call. -/
inductive Reply where
  | hash (hex : String)
  | block (info : BlockInfo)
  | done
  | pending (infos : List TransactionInfo)
  | count (n : UInt32)
  | algorithm (name : String)
  deriving DecidableEq

/-- The state after a call at a time, and its answer. -/
def step (assembler : Assembler) (now : Binary64) : Call → Traced (Assembler × Except Refusal Reply)
  | .add text senderHash signature =>
    (fun (next, hash) => (next, hash.map .hash)) <$> assembler.add now text senderHash signature
  | .sealPending predecessor tries data =>
    (fun (next, info) => (next, info.map .block)) <$> assembler.sealPending now predecessor tries data
  | .clear => pure (assembler.clear, .ok .done)
  | .pending => pure (assembler, .ok (.pending assembler.pendingInfos))
  | .pendingCount => pure (assembler, .ok (.count assembler.pendingCount))
  | .addressHash name publicKey =>
    (fun hash => (assembler, hash.map .hash)) <$> assembler.addressHash name publicKey
  | .algorithm => pure (assembler, .ok (.algorithm assembler.algorithm.name))

/-- The state after calls at their times, in order, and their answers. -/
def run (assembler : Assembler) : List (Binary64 × Call) → Traced (Assembler × List (Except Refusal Reply))
  | [] => pure (assembler, [])
  | (now, call) :: calls => do
    let (assembler, reply) ← assembler.step now call
    let (assembler, replies) ← assembler.run calls
    return (assembler, reply :: replies)

end Assembler

end SealedLedger
