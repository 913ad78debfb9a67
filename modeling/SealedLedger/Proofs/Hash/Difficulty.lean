import Mathlib.Order.Bounds.Basic
import SealedLedger.Proofs.Boundary.Recomputing
import SealedLedger.Info

/-!
# Difficulty as a numeric target

Bytes spell a number in base 256. A hash starts with a number of zero bytes if it has as many bytes and the number that it spells is
below the power of 256 that belongs to the other bytes (`Hash.le_leadingZeroBytes_iff`), so a difficulty is a target that the number has
to stay below. The block, its report and the boundary all give the count for the block's hash (`BlockInfo.toNat_leadingZeros_ofBlock`).
Main statement: `Hash.difficulty_is_target`.
-/

namespace SealedLedger

namespace Hash

variable (hash : Hash)

/-- A hash starts with so many zero bytes if it is that long and spells a number that the other bytes have room for. -/
theorem le_leadingZeroBytes_iff (zeroBytes : Nat) :
    zeroBytes ≤ hash.leadingZeroBytes ↔
      zeroBytes ≤ hash.length ∧ Bytes.value hash.bytes < 256 ^ (hash.length - zeroBytes) := by
  obtain ⟨bytes⟩ := hash
  -- each byte that is taken off the front takes one off the target
  induction bytes generalizing zeroBytes with
  | nil =>
    rw [length, leadingZeroBytes]
    simp [Bytes.value]
  | cons b bytes ih =>
    have room : Bytes.value bytes < 256 ^ bytes.length := Bytes.value_lt bytes
    cases zeroBytes with
    | zero => exact iff_of_true (Nat.zero_le _) ⟨Nat.zero_le _, Bytes.value_lt _⟩
    | succ zeroBytes =>
      rw [leadingZeroBytes_cons]
      have lengths : length ⟨b :: bytes⟩ = length ⟨bytes⟩ + 1 := List.length_cons
      by_cases zero : b = 0
      · have same : Bytes.value (b :: bytes) = Bytes.value bytes := by
          rw [Bytes.value_cons, zero]
          exact Nat.zero_add _
        rw [if_pos zero, Nat.add_le_add_iff_right, ih, lengths, Nat.add_le_add_iff_right, Nat.add_sub_add_right, same]
      · have digit : 1 ≤ b.toNat := Nat.one_le_iff_ne_zero.2 fun none => zero (UInt8.toNat_inj.1 none)
        have high : 256 ^ bytes.length ≤ Bytes.value (b :: bytes) := by
          rw [Bytes.value_cons]
          exact (Nat.le_mul_of_pos_right _ digit).trans (Nat.le_add_right _ _)
        have target : 256 ^ (bytes.length - zeroBytes) ≤ 256 ^ bytes.length := Nat.pow_le_pow_right (by decide) (Nat.sub_le _ _)
        rw [if_neg zero, lengths, Nat.add_sub_add_right]
        refine iff_of_false (Nat.not_succ_le_zero _) fun low => ?_
        exact absurd low.2 (Nat.not_lt.2 (target.trans high))

/-- All bytes are zero if as many are counted as there are. -/
theorem leadingZeroBytes_eq_length_iff : hash.leadingZeroBytes = hash.length ↔ ∀ b ∈ hash.bytes, b = 0 := by
  obtain ⟨bytes⟩ := hash
  induction bytes with
  | nil => simp [leadingZeroBytes, length]
  | cons b bytes ih =>
    have lengths : length ⟨b :: bytes⟩ = length ⟨bytes⟩ + 1 := List.length_cons
    rw [leadingZeroBytes_cons, lengths, List.forall_mem_cons, ← ih]
    by_cases zero : b = 0
    · simp [zero]
    · simp [zero]

/-- Zeros before a byte that is not zero are all counted, and nothing after it is. -/
theorem leadingZeroBytes_zeros_append (zeros : Nat) {b : UInt8} (other : b ≠ 0) (rest : Bytes) :
    leadingZeroBytes ⟨Bytes.zeros zeros ++ b :: rest⟩ = zeros := by
  induction zeros with
  | zero =>
    rw [Bytes.zeros, List.replicate_zero, List.nil_append, leadingZeroBytes_cons, if_neg other]
  | succ zeros ih =>
    rw [Bytes.zeros, List.replicate_succ, List.cons_append, leadingZeroBytes_cons, if_pos rfl]
    exact congrArg (· + 1) ih

/-- What the probe says about a hash. A difficulty is met if the hash is that long and spells a number below the target, the power of
256 that belongs to the other bytes. The count of zero bytes is the greatest difficulty that is met. It is the length of the hash for
zeros only, and the number of zeros before a first other byte. Lower difficulties are met too, and none above the length is. -/
structure Probed (hash : Hash) : Prop where
  target : ∀ zeroBytes, hash.meetsDifficulty zeroBytes = true ↔
    zeroBytes ≤ hash.length ∧ Bytes.value hash.bytes < 256 ^ (hash.length - zeroBytes)
  greatest : IsGreatest {zeroBytes | hash.meetsDifficulty zeroBytes = true} hash.leadingZeroBytes
  whole : hash.leadingZeroBytes = hash.length ↔ ∀ b ∈ hash.bytes, b = 0
  counted : ∀ zeros b rest, hash.bytes = Bytes.zeros zeros ++ b :: rest → b ≠ 0 → hash.leadingZeroBytes = zeros
  lower : ∀ zeroBytes, hash.meetsDifficulty zeroBytes = true → ∀ fewer ≤ zeroBytes, hash.meetsDifficulty fewer = true
  above : ∀ zeroBytes, hash.length < zeroBytes → hash.meetsDifficulty zeroBytes = false

theorem probed : hash.Probed where
  target zeroBytes := by rw [meetsDifficulty_iff, le_leadingZeroBytes_iff]
  greatest := by
    constructor
    · exact (hash.meetsDifficulty_iff _).2 le_rfl
    · intro zeroBytes met
      exact (hash.meetsDifficulty_iff zeroBytes).1 met
  whole := hash.leadingZeroBytes_eq_length_iff
  counted zeros b rest split other := by
    have parts : hash = ⟨Bytes.zeros zeros ++ b :: rest⟩ := congrArg Hash.mk split
    rw [parts, leadingZeroBytes_zeros_append zeros other]
  lower zeroBytes met fewer le := by
    rw [meetsDifficulty_iff] at met ⊢
    exact le.trans met
  above zeroBytes long := by
    rw [Bool.eq_false_iff, Ne, meetsDifficulty_iff, Nat.not_le]
    exact hash.leadingZeroBytes_le_length.trans_lt long

end Hash

/-! ## Blocks -/

/-- A report on a block gives the number of zero bytes of its hash, if that has less than `2 ^ 32` bytes. -/
theorem BlockInfo.toNat_leadingZeros_ofBlock {block : Block} (short : block.hash.length < 2 ^ 32) :
    (ofBlock block).leadingZeros.toNat = block.leadingZeros :=
  UInt32.toNat_ofNat_of_lt' (block.hash.leadingZeroBytes_le_length.trans_lt short)

/-- Difficulty is a numeric target, whatever the hash, and all that is said about a block agrees on it: the count of zero bytes of the
block, the difficulties that it meets, the count that its report holds in 32 bits and the one that the boundary gives for the
reported hash. -/
theorem Hash.difficulty_is_target :
    (∀ hash : Hash, hash.Probed) ∧
      ∀ block : Block,
        block.leadingZeros = block.hash.leadingZeroBytes ∧
          (∀ zeroBytes, block.meetsDifficulty zeroBytes = true ↔ zeroBytes ≤ block.leadingZeros) ∧
          Boundary.leadingZeroBytesHex (BlockInfo.ofBlock block).hash = .ok (BlockInfo.ofBlock block).leadingZeros ∧
          (block.hash.length < 2 ^ 32 → (BlockInfo.ofBlock block).leadingZeros.toNat = block.leadingZeros) := by
  refine ⟨probed, fun block => ⟨rfl, block.hash.meetsDifficulty_iff, ?_, BlockInfo.toNat_leadingZeros_ofBlock⟩⟩
  exact Boundary.leadingZeroBytesHex_hex block.hash

/-- Zeros after the first other byte do not count: a hash of four bytes that starts with one zero spells a number below `256 ^ 3`
and not below `256 ^ 2`. -/
theorem Hash.difficulty_is_target_later_zeros :
    let hash : Hash := ⟨[0, 0x80, 0, 0]⟩
    let block : Block := ⟨some hash, [], 5, 7, hash, hash, "", .sha1⟩
    hash.leadingZeroBytes = 1 ∧ (0x00800000 < 256 ^ 3 ∧ hash.meetsDifficulty 1 = true) ∧
      (¬0x00800000 < 256 ^ 2 ∧ hash.meetsDifficulty 2 = false) ∧ hash.meetsDifficulty 0 = true ∧ hash.meetsDifficulty 5 = false ∧
      (BlockInfo.ofBlock block).leadingZeros.toNat = block.leadingZeros ∧
      Boundary.leadingZeroBytesHex "00800000" = .ok (BlockInfo.ofBlock block).leadingZeros := by
  intro hash block
  obtain ⟨probed, blocks⟩ := difficulty_is_target
  obtain ⟨target, -, -, counted, lower, above⟩ := probed hash
  obtain ⟨-, -, boundary, report⟩ := blocks block
  have met : hash.meetsDifficulty 1 = true := (target 1).2 (by decide)
  have missed : hash.meetsDifficulty 2 = false := by
    rw [Bool.eq_false_iff, Ne, target]
    decide
  exact ⟨counted 1 0x80 [0, 0] rfl (by decide), ⟨by decide, met⟩, ⟨by decide, missed⟩, lower 1 met 0 (by decide),
    above 5 (by decide), report (by decide), boundary⟩

end SealedLedger
