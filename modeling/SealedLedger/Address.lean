import SealedLedger.Combiner

/-!
# Addresses

An address binds a display name to a public key. Its hash is the digest of the name followed by the key, under the algorithm that
the address stores.
-/

namespace SealedLedger

/-- A named public key with its hash. -/
structure Address where
  name : String
  publicKey : Bytes
  algorithm : Algorithm
  hash : Hash
  deriving DecidableEq

namespace Address

/-- The fields that the hash covers. -/
def fields (name : String) (publicKey : Bytes) : List Field :=
  [Field.ofText name, .bytes publicKey]

/-- The bytes that the hash of an address covers: the name and the key. -/
def preimage (address : Address) : Bytes :=
  Bytes.ofText address.name ++ address.publicKey

/-- The address of a name and a key under an algorithm. -/
def derive (combiner : Combiner) (name : String) (publicKey : Bytes) (algorithm : Algorithm) : Traced Address := do
  let algorithm ← combiner.resolve algorithm
  let hash ← combiner.digestWith (fields name publicKey) algorithm
  return { name, publicKey, algorithm, hash }

/-- The address of a name and a key where nothing else is chosen. -/
def create (name : String) (publicKey : Bytes) : Traced Address :=
  derive Combiner.standard name publicKey .unknown

/-- Whether the stored hash is the one that the other fields lead to. -/
def verify (combiner : Combiner) (address : Address) : Traced Bool := do
  let hash ← combiner.digestWith (fields address.name address.publicKey) address.algorithm
  return hash = address.hash

/-- The JSON value that describes an address. -/
def toJson (address : Address) : Json.Value :=
  .object
    [("name", .text address.name),
      ("public_key", .text (Text.Hex.encode address.publicKey)),
      ("algorithm", address.algorithm.toJson),
      ("hash", address.hash.toJson)]

/-- The fields laid end to end are the covered bytes. -/
theorem encodeAll_fields (address : Address) :
    Field.encodeAll (fields address.name address.publicKey) = address.preimage := by
  simp [fields, preimage, Field.encodeAll, Field.encode, Field.ofText]

end Address

end SealedLedger
