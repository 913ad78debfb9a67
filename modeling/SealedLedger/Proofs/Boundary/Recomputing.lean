import SealedLedger.Boundary
import SealedLedger.Proofs.Merkle.Levels

/-!
# What the boundary makes of its own texts

Bytes that were written in hexadecimal hold no blanks, so trimming leaves them alone and every call with texts reads them back. What
a call answers is therefore what the standard engine makes of the bytes that its texts spell (`Boundary.value_digestHex`,
`Boundary.value_merkleRootHex`).
-/

namespace SealedLedger

namespace Text

theorem isBlank_digitChar : ∀ n < 16, isBlank (Nat.digitChar n) = false := by
  decide

/-- The digits of a byte are no blanks. -/
theorem Hex.isBlank_digits (b : UInt8) : ∀ c ∈ digits b, isBlank c = false := by
  intro c hc
  have bounded := b.toNat_lt
  simp only [digits, List.mem_cons, List.not_mem_nil, or_false] at hc
  rcases hc with rfl | rfl
  · exact isBlank_digitChar _ (by omega)
  · exact isBlank_digitChar _ (by omega)

/-- Trimming leaves the spelling of bytes alone. -/
theorem trim_encode (bytes : Bytes) : trim (Hex.encode bytes) = Hex.encode bytes := by
  have solid : ∀ c ∈ bytes.flatMap Hex.digits, isBlank c = false := by
    intro c hc
    obtain ⟨b, -, hb⟩ := List.mem_flatMap.1 hc
    exact Hex.isBlank_digits b c hb
  rw [trim, Hex.encode, String.toList_ofList, trimChars_of_forall solid]

end Text

namespace Boundary

open Text

/-! ## Reading what was written -/

theorem decodeBytes_encode (bytes : Bytes) : decodeBytes (Hex.encode bytes) = .ok bytes := by
  rw [decodeBytes, trim_encode, Hex.decode_encode]

theorem parseHash_hex (hash : Hash) : parseHash hash.hex = .ok hash := by
  rw [parseHash, Hash.hex, trim_encode, ← Hash.hex, Hash.ofHex_hex]
  rfl

/-- Texts are read one after the other. -/
theorem decodeAll_cons (text : String) (texts : List String) :
    decodeAll (text :: texts) =
      (decodeBytes text).bind fun bytes => (decodeAll texts).map (bytes :: ·) := by
  rw [decodeAll]
  cases decodeBytes text with
  | error e => rfl
  | ok bytes => cases decodeAll texts <;> rfl

theorem decodeAll_encode (datas : List Bytes) : decodeAll (datas.map Hex.encode) = .ok datas := by
  induction datas with
  | nil => rfl
  | cons data datas ih =>
    rw [List.map_cons, decodeAll_cons, decodeBytes_encode, ih]
    rfl

theorem parseHashes_hex (hashes : List Hash) : parseHashes (hashes.map Hash.hex) = .ok hashes := by
  induction hashes with
  | nil => rfl
  | cons hash hashes ih =>
    rw [List.map_cons, parseHashes, parseHash_hex, ih]
    rfl

/-! ## Answers -/

/-- The algorithm under which the boundary works for a name that is given. -/
def chosen (name : String) : Algorithm :=
  (Combiner.standard.resolve (Algorithm.ofName name)).value

/-- Under the name of a known algorithm the boundary works with that algorithm. -/
theorem chosen_name {algorithm : Algorithm} (known : algorithm ≠ .unknown) : chosen algorithm.name = algorithm := by
  rw [chosen, Algorithm.ofName_name, Combiner.resolve_of_known _ known]
  rfl

theorem encodeAll_bytes (datas : List Bytes) : Field.encodeAll (datas.map Field.bytes) = datas.flatten := by
  rw [Field.encodeAll, List.flatMap_map, List.flatten_eq_flatMap]
  rfl

/-- The digest of texts is the standard engine's digest of the bytes they spell, laid end to end. -/
theorem value_digestHex (fields : List String) (name : String) :
    (digestHex fields (some name)).map Traced.value =
      (orUndecodable (decodeAll fields)).map fun datas => (Hash.mk (Engine.standard (chosen name) datas.flatten)).hex := by
  rw [digestHex]
  cases decodeAll fields with
  | error e => rfl
  | ok datas =>
    simp only [← encodeAll_bytes]
    rfl

/-- Bytes that were written are digested as they were. -/
theorem digestHex_encode {algorithm : Algorithm} (known : algorithm ≠ .unknown) (datas : List Bytes) :
    (digestHex (datas.map Hex.encode) (some algorithm.name)).map Traced.value =
      .ok (Hash.mk (Engine.standard algorithm datas.flatten)).hex := by
  rw [value_digestHex, decodeAll_encode, chosen_name known]
  rfl

/-- The Merkle root of texts is the standard engine's root of the hashes they spell. -/
theorem value_merkleRootHex (leaves : List String) (name : String) :
    (merkleRootHex leaves (some name)).map Traced.value =
      (orFault (parseHashes leaves)).map fun leaves => (Engine.standard.merkleRoot (chosen name) leaves).hex := by
  rw [merkleRootHex]
  cases parseHashes leaves with
  | error fault => rfl
  | ok leaves => exact congrArg (fun root => Except.ok root.hex) (Combiner.standard.value_merkleRootWith leaves _)

/-- The root of hashes that were written is their own. -/
theorem merkleRootHex_hex {algorithm : Algorithm} (known : algorithm ≠ .unknown) (leaves : List Hash) :
    (merkleRootHex (leaves.map Hash.hex) (some algorithm.name)).map Traced.value =
      .ok (Engine.standard.merkleRoot algorithm leaves).hex := by
  rw [value_merkleRootHex, parseHashes_hex, chosen_name known]
  rfl

/-- The zero bytes at the start of a written hash are counted. -/
theorem leadingZeroBytesHex_hex (hash : Hash) : leadingZeroBytesHex hash.hex = .ok (UInt32.ofNat hash.leadingZeroBytes) := by
  rw [leadingZeroBytesHex, parseHash_hex]
  rfl

end Boundary

end SealedLedger
