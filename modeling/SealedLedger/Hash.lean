import SealedLedger.Text.Hex

/-!
# Hashes, their order and their difficulty

A hash is a byte string that stands for a digest; its length depends on the algorithm that made it. Hashes are ordered byte by
byte, and a hash comes before those that extend it. The difficulty of a hash is the number of zero bytes it starts with.
-/

namespace SealedLedger

/-- A digest. -/
structure Hash where
  bytes : Bytes
  deriving DecidableEq, Inhabited

namespace Hash

/-- The hash of `length` zero bytes. -/
def zero (length : Nat) : Hash :=
  ⟨Bytes.zeros length⟩

/-- The number of bytes. -/
def length (hash : Hash) : Nat :=
  hash.bytes.length

/-- Whether the hash has no bytes. -/
def isEmpty (hash : Hash) : Bool :=
  hash.bytes.isEmpty

/-- The lowercase hexadecimal spelling. -/
def hex (hash : Hash) : String :=
  Text.Hex.encode hash.bytes

/-- The hash a hexadecimal text spells. -/
def ofHex (text : String) : Except Text.Hex.Error Hash :=
  (Text.Hex.decode text).map Hash.mk

/-- A hash is shown by its spelling. -/
instance : ToString Hash where
  toString := hex

/-- The form in which diagnostics show a hash. -/
def diagnostic (hash : Hash) : String :=
  "Hash(" ++ hash.hex ++ ")"

/-! ## Order -/

/-- Hashes compare as their byte strings: byte by byte, a shorter one before those that extend it. -/
instance : Ord Hash where
  compare a b := compare a.bytes b.bytes

/-- The hashes in ascending order. -/
def sort (hashes : List Hash) : List Hash :=
  hashes.mergeSort fun a b => (compare a b).isLE

/-! ## Difficulty -/

/-- The number of zero bytes before the first other byte. -/
def leadingZeroBytes (hash : Hash) : Nat :=
  (hash.bytes.takeWhile (· = 0)).length

/-- Whether the hash starts with at least that many zero bytes. -/
def meetsDifficulty (hash : Hash) (zeroBytes : Nat) : Bool :=
  zeroBytes ≤ hash.leadingZeroBytes

/-! ## Basic facts -/

@[simp] theorem length_zero (n : Nat) : (zero n).length = n := by
  simp [zero, length]

/-- Reading a hash's spelling gives the hash back. -/
theorem ofHex_hex (hash : Hash) : ofHex hash.hex = .ok hash := by
  simp [ofHex, hex, Text.Hex.decode_encode, Except.map]

theorem meetsDifficulty_iff (hash : Hash) (zeroBytes : Nat) :
    hash.meetsDifficulty zeroBytes = true ↔ zeroBytes ≤ hash.leadingZeroBytes :=
  decide_eq_true_iff

/-- A zero byte at the start counts for one more than the bytes after it, and any other byte ends the count. -/
theorem leadingZeroBytes_cons (b : UInt8) (bytes : Bytes) :
    leadingZeroBytes ⟨b :: bytes⟩ = if b = 0 then leadingZeroBytes ⟨bytes⟩ + 1 else 0 := by
  rw [leadingZeroBytes, List.takeWhile_cons]
  by_cases zero : b = 0
  · simp [zero, leadingZeroBytes]
  · simp [zero]

/-- A hash has no more leading zero bytes than bytes. -/
theorem leadingZeroBytes_le_length (hash : Hash) : hash.leadingZeroBytes ≤ hash.length :=
  List.Sublist.length_le (List.takeWhile_sublist _)

end Hash

end SealedLedger
