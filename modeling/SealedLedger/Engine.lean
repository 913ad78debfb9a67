import SealedLedger.Algorithm
import SealedLedger.Sha.Sha1
import SealedLedger.Sha.Sha2

/-!
# Digest engines

An engine is a pure function from an algorithm and data to the bytes of a digest. The standard engine computes the algorithms of
the SHA family; the others show what they are asked and serve to probe the operations that are built on an engine. Main
statement: a standard digest has the length that its algorithm fixes (`Engine.length_standard`).
-/

namespace SealedLedger

/-- What turns data into the bytes of a digest. -/
abbrev Engine := Algorithm → Bytes → Bytes

namespace Engine

/-- The algorithms as they are published; the mark of unknown names counts as SHA-256. -/
def standard : Engine
  | .sha1 => Sha.Sha1.digest
  | .sha256 | .unknown => Sha.Sha2.sha256
  | .sha384 => Sha.Sha2.sha384
  | .sha512 => Sha.Sha2.sha512

/-- The data itself. -/
def identity : Engine :=
  fun _ data => data

/-- The data from its last byte to its first. -/
def reversed : Engine :=
  fun _ data => data.reverse

/-- Zeros, as many as a digest has bytes. -/
def zeros : Engine :=
  fun algorithm _ => Bytes.zeros (algorithm.outputLength.getD 0)

/-- No bytes at all. -/
def empty : Engine :=
  fun _ _ => []

/-- The first bytes of the data, at most `count`. -/
def leading (count : Nat) : Engine :=
  fun _ data => data.take count

/-- A standard digest has the length that its algorithm fixes. -/
theorem length_standard {algorithm : Algorithm} {length : Nat} (h : algorithm.outputLength = some length) (data : Bytes) :
    (standard algorithm data).length = length := by
  cases algorithm <;> cases h
  · exact Sha.Sha1.length_digest data
  · exact Sha.Sha2.length_digest _ _ (by decide) data
  · exact Sha.Sha2.length_digest _ _ (by decide) data
  · exact Sha.Sha2.length_digest _ _ (by decide) data

end Engine

end SealedLedger
