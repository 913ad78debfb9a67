import SealedLedger.Combiner

/-!
# Transactions and their builder

A transaction is a text signed by a sender, stamped with a time. Its hash is the digest of text, sender hash, signature and
timestamp, under the algorithm that the transaction stores. A builder gathers the fields in any order; the last setting of a field
counts, and text, sender hash and signature have to be set.
-/

namespace SealedLedger

/-- A signed statement with its hash. -/
structure Transaction where
  text : String
  senderHash : Hash
  signature : Bytes
  /-- Milliseconds since the start of 1970. -/
  timestamp : Int64
  algorithm : Algorithm
  hash : Hash
  deriving DecidableEq

namespace Transaction

/-- The fields that the hash covers. -/
def fields (text : String) (senderHash : Hash) (signature : Bytes) (timestamp : Int64) : List Field :=
  [Field.ofText text, Field.ofHash senderHash, .bytes signature, .integer timestamp]

/-- The bytes that the hash of a transaction covers: text, sender hash, signature and the timestamp's eight bytes. -/
def preimage (transaction : Transaction) : Bytes :=
  Bytes.ofText transaction.text ++ transaction.senderHash.bytes ++ transaction.signature ++
    Bytes.bigEndian 8 transaction.timestamp.toUInt64.toNat

/-- The transaction of the given fields, with its hash. -/
def assemble (combiner : Combiner) (text : String) (senderHash : Hash) (signature : Bytes) (timestamp : Int64)
    (algorithm : Algorithm) : Traced Transaction := do
  let algorithm ← combiner.resolve algorithm
  let hash ← combiner.digestWith (fields text senderHash signature timestamp) algorithm
  return { text, senderHash, signature, timestamp, algorithm, hash }

/-- The transaction of a text, a sender and a signature at the time `now`, where nothing else is chosen. -/
def create (text : String) (senderHash : Hash) (signature : Bytes) (now : Int64) : Traced Transaction :=
  assemble Combiner.standard text senderHash signature now .unknown

/-- The bytes that a signer signs: the text's. -/
def signableData (transaction : Transaction) : Bytes :=
  Bytes.ofText transaction.text

/-- Whether the stored hash is the one that the other fields lead to. -/
def verify (combiner : Combiner) (transaction : Transaction) : Traced Bool := do
  let hash ← combiner.digestWith
    (fields transaction.text transaction.senderHash transaction.signature transaction.timestamp) transaction.algorithm
  return hash = transaction.hash

/-- The JSON value that describes a transaction. -/
def toJson (transaction : Transaction) : Json.Value :=
  .object
    [("text", .text transaction.text),
      ("sender_hash", transaction.senderHash.toJson),
      ("signature", .text (Text.Hex.encode transaction.signature)),
      ("timestamp", .ofInt transaction.timestamp.toInt),
      ("algorithm", transaction.algorithm.toJson),
      ("hash", transaction.hash.toJson)]

/-! ## Building -/

/-- The fields gathered so far. -/
structure Builder where
  text : Option String := none
  senderHash : Option Hash := none
  signature : Option Bytes := none
  timestamp : Option Int64 := none
  algorithm : Option Algorithm := none
  deriving DecidableEq

namespace Builder

/-- The setting of one field. -/
inductive Setting where
  | text (text : String)
  | senderHash (hash : Hash)
  | signature (signature : Bytes)
  | timestamp (timestamp : Int64)
  | algorithm (algorithm : Algorithm)
  deriving DecidableEq

/-- The builder after a setting; an earlier one of the same field is lost. -/
def set (builder : Builder) : Setting → Builder
  | .text text => { builder with text := some text }
  | .senderHash hash => { builder with senderHash := some hash }
  | .signature signature => { builder with signature := some signature }
  | .timestamp timestamp => { builder with timestamp := some timestamp }
  | .algorithm algorithm => { builder with algorithm := some algorithm }

/-- The builder after settings in order, from one without fields on. -/
def ofSettings (settings : List Setting) : Builder :=
  settings.foldl set {}

/-- The transaction of the gathered fields; a missing timestamp is the time `now` and a missing algorithm the configured one. -/
def build (builder : Builder) (combiner : Combiner) (now : Int64) : Except Fault (Traced Transaction) :=
  match builder.text, builder.senderHash, builder.signature with
  | none, _, _ => .error (.missingField .text)
  | _, none, _ => .error (.missingField .senderHash)
  | _, _, none => .error (.missingField .signature)
  | some text, some senderHash, some signature =>
    .ok (assemble combiner text senderHash signature (builder.timestamp.getD now)
      (builder.algorithm.getD combiner.config.fallback))

end Builder

/-! ## The covered bytes -/

/-- The fields laid end to end are the covered bytes. -/
theorem encodeAll_fields (transaction : Transaction) :
    Field.encodeAll
        (fields transaction.text transaction.senderHash transaction.signature transaction.timestamp) =
      transaction.preimage := by
  simp [fields, preimage, Field.encodeAll, Field.encode, Field.ofText, Field.ofHash]

end Transaction

end SealedLedger
