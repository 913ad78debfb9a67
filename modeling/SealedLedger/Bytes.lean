import SealedLedger.Natural

/-!
# Byte strings and the numbers they spell

Everything that is digested is a list of bytes. `Bytes.bigEndian` spells a number in a fixed number of base-256 digits, most
significant first, and `Bytes.value` reads such a spelling back. `Bytes.pieces` cuts a byte string into pieces of one size.
-/

namespace SealedLedger

/-- A byte string. -/
abbrev Bytes := List UInt8

namespace Bytes

/-- The last `width` base-256 digits of a number, most significant first. -/
def bigEndian : Nat → Nat → Bytes
  | 0, _ => []
  | width + 1, n => bigEndian width (n / 256) ++ [UInt8.ofNat n]

/-- The number a byte string spells in base 256, most significant byte first. -/
def value (bytes : Bytes) : Nat :=
  bytes.foldl (fun n b => 256 * n + b.toNat) 0

/-- A byte string of zeros. -/
def zeros (length : Nat) : Bytes :=
  List.replicate length 0

/-- The bytes of a text in UTF-8. -/
def ofText (text : String) : Bytes :=
  text.toList.flatMap String.utf8EncodeChar

/-- The first `count` pieces of `size` bytes each. -/
def pieces (size : Nat) : Nat → Bytes → List Bytes
  | 0, _ => []
  | count + 1, bytes => bytes.take size :: pieces size count (bytes.drop size)

/-! ## Lengths -/

@[simp] theorem length_bigEndian (width n : Nat) : (bigEndian width n).length = width := by
  induction width generalizing n with
  | zero => rfl
  | succ width ih => simp [bigEndian, ih]

@[simp] theorem length_zeros (length : Nat) : (zeros length).length = length := by
  simp [zeros]

/-- Bytes read after a number are its lower digits. -/
theorem foldl_value (n : Nat) (bytes : Bytes) :
    bytes.foldl (fun n b => 256 * n + b.toNat) n = 256 ^ bytes.length * n + value bytes := by
  induction bytes generalizing n with
  | nil => simp [value]
  | cons b bytes ih =>
    have first : value (b :: bytes) = 256 ^ bytes.length * b.toNat + value bytes := by
      rw [value, List.foldl_cons, ih, Nat.mul_zero, Nat.zero_add]
    rw [List.foldl_cons, ih, first, List.length_cons, Nat.pow_succ, Nat.mul_add, Nat.mul_assoc, Nat.add_assoc]

/-- A first byte is the highest digit. -/
theorem value_cons (b : UInt8) (bytes : Bytes) : value (b :: bytes) = 256 ^ bytes.length * b.toNat + value bytes := by
  rw [value, List.foldl_cons, foldl_value, Nat.mul_zero, Nat.zero_add]

/-- Bytes spell a number below the power of 256 that belongs to their length. -/
theorem value_lt (bytes : Bytes) : value bytes < 256 ^ bytes.length := by
  induction bytes with
  | nil => simp [value]
  | cons b bytes ih =>
    have digit : 256 ^ bytes.length * (b.toNat + 1) ≤ 256 ^ bytes.length * 256 := Nat.mul_le_mul_left _ b.toNat_lt
    rw [value_cons, List.length_cons, Nat.pow_succ]
    rw [Nat.mul_add_one] at digit
    omega

/-- A last byte is the lowest digit. -/
theorem value_concat (bytes : Bytes) (b : UInt8) : value (bytes ++ [b]) = 256 * value bytes + b.toNat := by
  simp [value]

/-- What is spelled in `width` digits is read back up to a multiple of `256 ^ width`. -/
theorem value_bigEndian (width n : Nat) : value (bigEndian width n) = n % 256 ^ width := by
  induction width generalizing n with
  | zero => simp [bigEndian, value, Nat.mod_one]
  | succ width ih =>
    rw [bigEndian, value_concat, ih, Nat.pow_succ', Nat.mod_mul, UInt8.toNat_ofNat']
    omega

/-- Spelling the number that bytes spell, in as many digits, gives the bytes back. -/
theorem bigEndian_value {width : Nat} {bytes : Bytes} (size : bytes.length = width) : bigEndian width (value bytes) = bytes := by
  induction width generalizing bytes with
  | zero => rw [List.length_eq_zero_iff.1 size, bigEndian]
  | succ width ih =>
    have some : bytes ≠ [] := List.ne_nil_of_length_eq_add_one size
    obtain ⟨front, last, rfl⟩ : ∃ front last, bytes = front ++ [last] :=
      ⟨bytes.dropLast, bytes.getLast some, (List.dropLast_concat_getLast some).symm⟩
    have high : (256 * value front + last.toNat) / 256 = value front := by
      have := last.toNat_lt
      omega
    have low : UInt8.ofNat (256 * value front + last.toNat) = last := by
      apply UInt8.toNat_inj.1
      rw [UInt8.toNat_ofNat']
      have := last.toNat_lt
      omega
    rw [value_concat, bigEndian, high, low, ih (by simpa using size)]

/-- A number that `width` digits have room for is spelled by the one byte string of that length that has its value. -/
theorem bigEndian_eq_iff {width n : Nat} (room : n < 256 ^ width) {bytes : Bytes} :
    bigEndian width n = bytes ↔ bytes.length = width ∧ value bytes = n := by
  constructor
  · rintro rfl
    rw [value_bigEndian]
    exact ⟨length_bigEndian width n, Nat.mod_eq_of_lt room⟩
  · rintro ⟨size, rfl⟩
    exact bigEndian_value size

/-- Numbers that `width` digits have room for are told apart by their spelling. -/
theorem bigEndian_inj {width n m : Nat} (hn : n < 256 ^ width) (hm : m < 256 ^ width) (h : bigEndian width n = bigEndian width m) :
    n = m := by
  have hv := congrArg value h
  rwa [value_bigEndian, value_bigEndian, Nat.mod_eq_of_lt hn, Nat.mod_eq_of_lt hm] at hv

/-- The eight bytes of a 64-bit integer in two's complement tell it apart from all others. -/
theorem bigEndian_integer_inj {n m : Int64} (h : bigEndian 8 n.toUInt64.toNat = bigEndian 8 m.toUInt64.toNat) : n = m := by
  have words : n.toUInt64 = m.toUInt64 := UInt64.toNat_inj.1 (bigEndian_inj n.toUInt64.toNat_lt m.toUInt64.toNat_lt h)
  have same := congrArg UInt64.toInt64 words
  rwa [Int64.toInt64_toUInt64, Int64.toInt64_toUInt64] at same

/-- Texts are told apart by their bytes. -/
theorem ofText_inj {text other : String} (h : ofText text = ofText other) : text = other := by
  have encoded : text.toList.utf8Encode = other.toList.utf8Encode := congrArg List.toByteArray h
  rwa [← String.toByteArray_ofList, ← String.toByteArray_ofList, String.ofList_toList, String.ofList_toList,
    String.toByteArray_inj] at encoded

end Bytes

end SealedLedger
