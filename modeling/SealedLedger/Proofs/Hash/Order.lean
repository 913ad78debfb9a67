import SealedLedger.Proofs.Hash.Difficulty

/-!
# The order of hashes

Hashes compare byte by byte, and so do their spellings: the codes of the digits ascend with what they stand for, the letters behind the
decimal digits, so a byte compares as its two digits do, the high one first (`Text.Hex.compare_ofText_encode`). Hashes of one length
compare as the numbers that they spell (`Bytes.compare_eq_compare_value`), and a lower number starts with at least as many zero bytes.
Sorting therefore comes to the same for hashes and for their spellings. Main statement: `Hash.order_embeds`.
-/

namespace SealedLedger

/-! ## Numbers -/

/-- A higher first part is not made up for by a second part that is below the base. -/
theorem mul_add_lt_of_lt {base high high' low : Nat} (lt : high < high') (bound : low < base) (low' : Nat) :
    base * high + low < base * high' + low' :=
  calc
    base * high + low < base * (high + 1) := by
      rw [Nat.mul_add_one]
      exact Nat.add_lt_add_left bound _
    _ ≤ base * high' := Nat.mul_le_mul_left _ lt
    _ ≤ base * high' + low' := Nat.le_add_right _ _

/-- Numbers of two parts, the second one below the base, compare as their first parts do, and as the second ones where those are
equal. -/
theorem compare_mul_add {base low low' : Nat} (bound : low < base) (bound' : low' < base) (high high' : Nat) :
    compare (base * high + low) (base * high' + low') = (compare high high').then (compare low low') := by
  rcases Nat.lt_trichotomy high high' with lt | rfl | gt
  · rw [Nat.compare_eq_lt.2 lt, Nat.compare_eq_lt.2 (mul_add_lt_of_lt lt bound low')]
    rfl
  · rw [Nat.compare_eq_eq.2 rfl, Ordering.then]
    rcases Nat.lt_trichotomy low low' with lt | rfl | gt
    · rw [Nat.compare_eq_lt.2 lt, Nat.compare_eq_lt.2 (Nat.add_lt_add_left lt _)]
    · rw [Nat.compare_eq_eq.2 rfl, Nat.compare_eq_eq.2 rfl]
    · rw [Nat.compare_eq_gt.2 gt, Nat.compare_eq_gt.2 (Nat.add_lt_add_left gt _)]
  · rw [Nat.compare_eq_gt.2 gt, Nat.compare_eq_gt.2 (mul_add_lt_of_lt gt bound' low)]
    rfl

/-- Byte strings of one length compare as the numbers that they spell. -/
theorem Bytes.compare_eq_compare_value {bytes bytes' : Bytes} (same : bytes.length = bytes'.length) :
    compare bytes bytes' = compare (value bytes) (value bytes') := by
  induction bytes generalizing bytes' with
  | nil =>
    obtain rfl := List.length_eq_zero_iff.1 same.symm
    rfl
  | cons b bytes ih =>
    cases bytes' with
    | nil => cases same
    | cons b' bytes' =>
      have same : bytes.length = bytes'.length := Nat.succ.inj same
      have room' := value_lt bytes'
      rw [← same] at room'
      rw [List.compare_cons_cons, ih same, UInt8.compare_eq_toNat_compare_toNat, value_cons, value_cons, ← same,
        compare_mul_add (value_lt bytes) room']

/-! ## Spellings -/

namespace Text.Hex

/-- The ASCII code of the digit that stands for a number below 16. -/
def digitCode (n : Nat) : UInt8 :=
  (Nat.digitChar n).val.toUInt8

theorem utf8EncodeChar_digitChar : ∀ n < 16, String.utf8EncodeChar (Nat.digitChar n) = [digitCode n] := by
  decide

/-- Digits compare as what they stand for. -/
theorem compare_digitCode : ∀ n < 16, ∀ m < 16, compare (digitCode n) (digitCode m) = compare n m := by
  decide

/-- The bytes of a spelling are two codes for each byte. -/
theorem ofText_encode (bytes : Bytes) :
    Bytes.ofText (encode bytes) = bytes.flatMap fun b => [digitCode (b.toNat / 16), digitCode (b.toNat % 16)] := by
  rw [Bytes.ofText, encode, String.toList_ofList, List.flatMap_assoc]
  refine congrArg (List.flatMap · bytes) (funext fun b => ?_)
  have bounded := b.toNat_lt
  rw [digits, List.flatMap_cons, List.flatMap_cons, utf8EncodeChar_digitChar _ (by omega), utf8EncodeChar_digitChar _ (by omega)]
  rfl

/-- A byte compares as its two digits do, the high one first. -/
theorem compare_byte (b b' : UInt8) :
    compare b b' =
      (compare (digitCode (b.toNat / 16)) (digitCode (b'.toNat / 16))).then
        (compare (digitCode (b.toNat % 16)) (digitCode (b'.toNat % 16))) := by
  have bounded := b.toNat_lt
  have bounded' := b'.toNat_lt
  rw [compare_digitCode _ (by omega) _ (by omega), compare_digitCode _ (by omega) _ (by omega),
    ← compare_mul_add (Nat.mod_lt _ (by decide)) (Nat.mod_lt _ (by decide)), Nat.div_add_mod, Nat.div_add_mod,
    UInt8.compare_eq_toNat_compare_toNat]

/-- Spellings compare byte by byte as the bytes that they spell. -/
theorem compare_ofText_encode (bytes bytes' : Bytes) :
    compare (Bytes.ofText (encode bytes)) (Bytes.ofText (encode bytes')) = compare bytes bytes' := by
  rw [ofText_encode, ofText_encode]
  induction bytes generalizing bytes' with
  | nil => cases bytes' <;> rfl
  | cons b bytes ih =>
    cases bytes' with
    | nil => rfl
    | cons b' bytes' =>
      simp only [List.flatMap_cons, List.cons_append, List.nil_append, List.compare_cons_cons]
      rw [ih, compare_byte b b', Ordering.then_assoc]

end Text.Hex

/-! ## Hashes -/

namespace Hash

theorem compare_eq (a b : Hash) : compare a b = compare a.bytes b.bytes :=
  rfl

/-- Comparing is a total order, since it is one on byte strings. -/
instance : Std.TransOrd Hash where
  eq_swap := by
    intro a b
    rw [compare_eq, compare_eq]
    exact Std.OrientedCmp.eq_swap
  isLE_trans := by
    intro a b c ab bc
    rw [compare_eq] at ab bc ⊢
    exact Std.TransCmp.isLE_trans ab bc

theorem isLE_total (a b : Hash) : ((compare a b).isLE || (compare b a).isLE) = true := by
  have swapped : compare b a = (compare a b).swap := Std.OrientedCmp.eq_swap
  rw [swapped]
  cases compare a b <;> rfl

/-- Hashes compare as their spellings, byte by byte. -/
theorem compare_hex (a b : Hash) : compare (Bytes.ofText a.hex) (Bytes.ofText b.hex) = compare a b :=
  Text.Hex.compare_ofText_encode a.bytes b.bytes

/-- A hash comes before those that extend it. -/
theorem compare_append (front : Bytes) (b : UInt8) (rest : Bytes) : compare (Hash.mk front) ⟨front ++ b :: rest⟩ = .lt := by
  rw [compare_eq]
  induction front with
  | nil => rfl
  | cons c front ih =>
    rw [List.cons_append, List.compare_cons_cons, Std.compare_self]
    exact ih

theorem compare_of_prefix {a b : Hash} (starts : a.bytes <+: b.bytes) (other : a ≠ b) : compare a b = .lt := by
  obtain ⟨rest, parts⟩ := starts
  cases a with
  | mk front =>
    cases b with
    | mk bytes =>
      obtain rfl : front ++ rest = bytes := parts
      cases rest with
      | nil => exact absurd (congrArg mk (List.append_nil front).symm) other
      | cons c rest => exact compare_append front c rest

/-- A hash of the same length comes no later if it spells no greater number. -/
theorem isLE_compare_iff {a b : Hash} (same : a.length = b.length) :
    (compare a b).isLE = true ↔ Bytes.value a.bytes ≤ Bytes.value b.bytes := by
  rw [compare_eq, Bytes.compare_eq_compare_value same, Nat.isLE_compare]

/-- A hash of the same length that comes no later starts with no fewer zero bytes. -/
theorem leadingZeroBytes_le_of_isLE {a b : Hash} (same : a.length = b.length) (before : (compare a b).isLE = true) :
    b.leadingZeroBytes ≤ a.leadingZeroBytes := by
  have value := (isLE_compare_iff same).1 before
  obtain ⟨long, target⟩ := (b.le_leadingZeroBytes_iff _).1 le_rfl
  rw [le_leadingZeroBytes_iff, same]
  exact ⟨long, value.trans_lt target⟩

/-! ## Sorting -/

theorem sort_perm (hashes : List Hash) : (sort hashes).Perm hashes :=
  List.mergeSort_perm ..

theorem sort_ascends (hashes : List Hash) : (sort hashes).Pairwise fun a b => (compare a b).isLE = true :=
  List.pairwise_mergeSort (fun _ _ _ => Std.TransCmp.isLE_trans) isLE_total hashes

/-- The texts in ascending order of their bytes. -/
def sortTexts (texts : List String) : List String :=
  texts.mergeSort fun s t => (compare (Bytes.ofText s) (Bytes.ofText t)).isLE

/-- The spellings of sorted hashes are the sorted spellings. -/
theorem map_hex_sort (hashes : List Hash) : (sort hashes).map hex = sortTexts (hashes.map hex) :=
  List.map_mergeSort fun a _ b _ => by rw [compare_hex]

/-- Hashes of one length are sorted by their leading zero bytes, from the most on. -/
theorem leadingZeroBytes_sort {hashes : List Hash} {length : Nat} (same : ∀ hash ∈ hashes, hash.length = length) :
    (sort hashes).Pairwise fun a b => b.leadingZeroBytes ≤ a.leadingZeroBytes := by
  refine (sort_ascends hashes).imp_of_mem fun {a b} ha hb before => ?_
  have lengths : ∀ hash ∈ sort hashes, hash.length = length := fun hash h => same hash ((sort_perm hashes).mem_iff.1 h)
  exact leadingZeroBytes_le_of_isLE ((lengths a ha).trans (lengths b hb).symm) before

/-- The order of hashes is that of their spellings, and for hashes of one length that of the numbers that they spell. Any two hashes
compare as their spellings do, byte by byte, and a hash comes before those that extend it. Of two hashes of one length the one that comes
no later spells the number that is not greater, and then starts with no fewer zero bytes. So to sort hashes, which puts the same hashes
in ascending order, is to sort their spellings and to read these, and hashes of one length are listed from the most leading zero bytes
to the fewest. -/
theorem order_embeds :
    (∀ a b : Hash,
      compare a b = compare (Bytes.ofText a.hex) (Bytes.ofText b.hex) ∧
        (a.bytes <+: b.bytes → a ≠ b → compare a b = .lt) ∧
        (a.length = b.length →
          ((compare a b).isLE = true ↔ Bytes.value a.bytes ≤ Bytes.value b.bytes) ∧
            ((compare a b).isLE = true → b.leadingZeroBytes ≤ a.leadingZeroBytes))) ∧
      ∀ hashes : List Hash,
        (sort hashes).Perm hashes ∧ (sort hashes).Pairwise (fun a b => (compare a b).isLE = true) ∧
          (sortTexts (hashes.map hex)).map ofHex = (sort hashes).map .ok ∧
          ∀ length, (∀ hash ∈ hashes, hash.length = length) →
            (sort hashes).Pairwise fun a b => b.leadingZeroBytes ≤ a.leadingZeroBytes := by
  refine ⟨fun a b => ⟨(compare_hex a b).symm, compare_of_prefix, fun same => ⟨?_, ?_⟩⟩, fun hashes => ⟨?_, ?_, ?_, ?_⟩⟩
  · exact isLE_compare_iff same
  · exact leadingZeroBytes_le_of_isLE same
  · exact sort_perm hashes
  · exact sort_ascends hashes
  · rw [← map_hex_sort, List.map_map]
    exact List.map_congr_left fun hash _ => ofHex_hex hash
  · exact fun length same => leadingZeroBytes_sort same

/-- A decimal digit comes before a letter in the spelling as its byte does in the hash, a hash before the same one with a zero byte
behind it, and three hashes of two bytes are sorted from one zero byte to none. -/
theorem order_embeds_two_bytes :
    let first : Hash := ⟨[0, 0x9A]⟩
    let second : Hash := ⟨[0, 0xA9]⟩
    let third : Hash := ⟨[1, 0]⟩
    compare first ⟨[0, 0x9A, 0]⟩ = .lt ∧
      (compare first second).isLE = true ∧ second.leadingZeroBytes ≤ first.leadingZeroBytes ∧
      (sort [third, second, first]).Pairwise fun a b => b.leadingZeroBytes ≤ a.leadingZeroBytes := by
  intro first second third
  obtain ⟨pairs, lists⟩ := order_embeds
  obtain ⟨-, extended, -⟩ := pairs first ⟨[0, 0x9A, 0]⟩
  obtain ⟨-, -, numbers⟩ := pairs first second
  have before : (compare first second).isLE = true := (numbers rfl).1.2 (by decide)
  refine ⟨extended ⟨[0], rfl⟩ (by decide), before, (numbers rfl).2 before, (lists [third, second, first]).2.2.2 2 ?_⟩
  decide

end Hash

end SealedLedger
