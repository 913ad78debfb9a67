import Mathlib.Logic.ExistsUnique
import SealedLedger.Proofs.Collision

/-!
# What a digest sees of its fields

A digest asks the engine once, about the encodings of its fields laid end to end. An integer is eight bytes in it, with a sign or
without, and any eight bytes are the encoding of exactly one integer of either kind (`Field.encode_integer_eq_iff`,
`Field.encode_ofWord_eq_iff`). Nothing is left of where one field ends and the next one starts: two lists of fields have one
concatenation if data can be cut and joined, and integers spelled out, until one list is the other, and in no other case
(`Field.rewritten_iff`). Where the fields at each place have encodings of one length, the concatenation determines all encodings
(`Field.encodeAll_eq_iff_of_lengths`). Main statement: `Combiner.digestWith_sees_concatenation`.
-/

namespace SealedLedger

namespace Field

/-! ## Integers -/

/-- The bits of an integer as a number without sign are its value modulo `2 ^ 64`. -/
theorem toNat_toUInt64 (n : Int64) : (n.toUInt64.toNat : Int) = n.toInt % 2 ^ 64 := by
  have bits : n.toInt = (n.toUInt64.toNat : Int).bmod (2 ^ 64) := BitVec.toInt_eq_toNat_bmod n.toBitVec
  have room : (n.toUInt64.toNat : Int) < 2 ^ 64 := by exact_mod_cast n.toUInt64.toNat_lt
  have kept : n.toInt % 2 ^ 64 = (n.toUInt64.toNat : Int) % 2 ^ 64 := by
    rw [bits]
    exact Int.bmod_emod
  rw [kept, Int.emod_eq_of_lt (Int.natCast_nonneg _) room]

/-- The encoding of an integer with a sign is its eight bytes in two's complement, most significant first. -/
theorem encode_integer_eq_iff (n : Int64) (bytes : Bytes) :
    (integer n).encode = bytes ↔ bytes.length = 8 ∧ (Bytes.value bytes : Int) = n.toInt % 2 ^ 64 := by
  rw [encode, Bytes.bigEndian_eq_iff n.toUInt64.toNat_lt, ← toNat_toUInt64, Int.natCast_inj]

/-- The encoding of a number without sign is its eight digits in base 256, most significant first. -/
theorem encode_ofWord_eq_iff (n : UInt64) (bytes : Bytes) :
    (ofWord n).encode = bytes ↔ bytes.length = 8 ∧ Bytes.value bytes = n.toNat := by
  rw [encode_ofWord, Bytes.bigEndian_eq_iff n.toNat_lt]

/-- An integer with a sign and a number without one have the same encoding if they have the same bits. -/
theorem encode_integer_eq_encode_ofWord_iff (n : Int64) (word : UInt64) :
    (integer n).encode = (ofWord word).encode ↔ (word.toNat : Int) = n.toInt % 2 ^ 64 := by
  obtain ⟨size, value⟩ := (encode_ofWord_eq_iff word _).1 rfl
  rw [encode_integer_eq_iff, value, and_iff_right size]

/-- Any eight bytes are the encoding of one number without sign. -/
theorem existsUnique_ofWord {bytes : Bytes} (size : bytes.length = 8) : ∃! n : UInt64, (ofWord n).encode = bytes := by
  have room : Bytes.value bytes < 2 ^ 64 := by
    have bound := Bytes.value_lt bytes
    rw [size] at bound
    exact bound
  refine ⟨UInt64.ofNat (Bytes.value bytes), ?_, fun n encoded => ?_⟩
  · exact (encode_ofWord_eq_iff _ _).2 ⟨size, (UInt64.toNat_ofNat_of_lt' room).symm⟩
  · rw [((encode_ofWord_eq_iff n bytes).1 encoded).2, UInt64.ofNat_toNat]

/-- Any eight bytes are the encoding of one integer with a sign: the one that has the bits of the number without sign. -/
theorem existsUnique_integer {bytes : Bytes} (size : bytes.length = 8) : ∃! n : Int64, (integer n).encode = bytes := by
  obtain ⟨n, encoded, -⟩ := existsUnique_ofWord size
  refine ⟨n.toInt64, encoded, fun m encoded' => ?_⟩
  apply Bytes.bigEndian_integer_inj
  exact encoded'.trans encoded.symm

/-! ## Lists of fields with one concatenation -/

theorem encodeAll_append (fields fields' : List Field) : encodeAll (fields ++ fields') = encodeAll fields ++ encodeAll fields' :=
  List.flatMap_append

/-- One list of fields is rewritten into another: data is cut in two, empty data is left out, and an integer is replaced by the eight
bytes that spell it, each of these at any place of the list, in either direction and any number of times. -/
inductive Rewritten : List Field → List Field → Prop where
  | cut (data data' : Bytes) : Rewritten [bytes (data ++ data')] [bytes data, bytes data']
  | leave : Rewritten [bytes []] []
  | signed {n : Int64} {data : Bytes} (size : data.length = 8) (value : (Bytes.value data : Int) = n.toInt % 2 ^ 64) :
    Rewritten [integer n] [bytes data]
  | unsigned {n : UInt64} {data : Bytes} (size : data.length = 8) (value : Bytes.value data = n.toNat) :
    Rewritten [ofWord n] [bytes data]
  | append {front front' back back' : List Field} (first : Rewritten front front') (second : Rewritten back back') :
    Rewritten (front ++ back) (front' ++ back')
  | refl (fields : List Field) : Rewritten fields fields
  | symm {fields fields' : List Field} (turned : Rewritten fields fields') : Rewritten fields' fields
  | trans {fields fields' fields'' : List Field} (first : Rewritten fields fields') (second : Rewritten fields' fields'') :
    Rewritten fields fields''

/-- Rewriting keeps the concatenation. -/
theorem Rewritten.encodeAll_eq {fields fields' : List Field} (rewritten : Rewritten fields fields') :
    encodeAll fields = encodeAll fields' := by
  induction rewritten with
  | cut data data' => simp [encodeAll, encode]
  | leave => rfl
  | @signed n data size value =>
    have encoded := (encode_integer_eq_iff n data).2 ⟨size, value⟩
    rw [encodeAll, encodeAll, List.flatMap_singleton, List.flatMap_singleton, encoded, encode]
  | @unsigned n data size value =>
    have encoded := (encode_ofWord_eq_iff n data).2 ⟨size, value⟩
    rw [encodeAll, encodeAll, List.flatMap_singleton, List.flatMap_singleton, encoded, encode]
  | append _ _ front back => rw [encodeAll_append, encodeAll_append, front, back]
  | refl => rfl
  | symm _ ih => exact ih.symm
  | trans _ _ first second => exact first.trans second

/-- A field is rewritten into the data of its encoding. -/
theorem rewritten_encode (field : Field) : Rewritten [field] [bytes field.encode] := by
  cases field with
  | bytes data => exact .refl _
  | integer n =>
    obtain ⟨size, value⟩ := (encode_integer_eq_iff n _).1 rfl
    exact .signed size value

/-- A list of fields is rewritten into the one field of their concatenation. -/
theorem rewritten_encodeAll (fields : List Field) : Rewritten fields [bytes (encodeAll fields)] := by
  induction fields with
  | nil => exact .symm .leave
  | cons field fields ih =>
    have joined : Rewritten ([bytes field.encode] ++ [bytes (encodeAll fields)]) [bytes (field.encode ++ encodeAll fields)] :=
      .symm (.cut _ _)
    exact .trans (.append (rewritten_encode field) ih) joined

/-- Lists of fields have one concatenation if they are rewritten into each other, and in no other case. -/
theorem rewritten_iff {fields fields' : List Field} : Rewritten fields fields' ↔ encodeAll fields = encodeAll fields' := by
  constructor
  · exact Rewritten.encodeAll_eq
  · intro same
    have joined := rewritten_encodeAll fields
    rw [same] at joined
    exact joined.trans (rewritten_encodeAll fields').symm

/-! ## Lists of one shape -/

/-- How many bytes each field of a list contributes. -/
def lengths (fields : List Field) : List Nat :=
  fields.map fun field => field.encode.length

/-- Where the fields at each place are equally long, one concatenation comes from the same encodings only. -/
theorem encodeAll_eq_iff_of_lengths {fields fields' : List Field} (shape : lengths fields = lengths fields') :
    encodeAll fields = encodeAll fields' ↔ fields.map encode = fields'.map encode := by
  have sizes : (fields.map encode).map List.length = (fields'.map encode).map List.length := by
    rw [List.map_map, List.map_map]
    exact shape
  rw [encodeAll, encodeAll, List.flatMap_def, List.flatMap_def, List.eq_iff_flatten_eq, and_iff_left sizes]

end Field

namespace Combiner

/-- Where the fields at each place are equally long, one digest comes from the same encodings, or from a collision of the two
concatenations. -/
theorem value_digestWith_eq_iff_of_lengths (combiner : Combiner) (algorithm : Algorithm) {fields fields' : List Field}
    (shape : Field.lengths fields = Field.lengths fields') :
    (combiner.digestWith fields algorithm).value = (combiner.digestWith fields' algorithm).value ↔
      fields.map Field.encode = fields'.map Field.encode ∨
        combiner.engine.Collides (combiner.resolve algorithm).value [Field.encodeAll fields, Field.encodeAll fields'] := by
  rw [Engine.hash_eq_iff (combiner.value_digestWith fields algorithm) (combiner.value_digestWith fields' algorithm) rfl,
    Field.encodeAll_eq_iff_of_lengths shape]

/-- A digest sees the concatenation of its fields and nothing else of them. It asks the engine once, about the encodings in order, where
an integer is eight bytes: in two's complement with a sign, and in base 256 without one, up to the greatest number of 64 bits; each
eight bytes encode exactly one integer of either kind, and two of different kinds have one encoding if they have the same bits. So lists
with one concatenation, which are those that can be rewritten into each other, have one digest and show the same on the way to it.
Of lists with equally long fields at each place, those with other encodings have another concatenation, and the same digest only by a
collision. -/
theorem digestWith_sees_concatenation (combiner : Combiner) (algorithm : Algorithm) :
    (∀ fields, (combiner.digestWith fields algorithm).calls =
          [((combiner.resolve algorithm).value, (fields.map Field.encode).flatten)] ∧
        (combiner.digestWith fields algorithm).value =
          ⟨combiner.engine (combiner.resolve algorithm).value (fields.map Field.encode).flatten⟩) ∧
      (∀ (n : Int64) (bytes : Bytes),
        (Field.integer n).encode = bytes ↔ bytes.length = 8 ∧ (Bytes.value bytes : Int) = n.toInt % 2 ^ 64) ∧
      (∀ (n : UInt64) (bytes : Bytes), (Field.ofWord n).encode = bytes ↔ bytes.length = 8 ∧ Bytes.value bytes = n.toNat) ∧
      (∀ (n : Int64) (word : UInt64),
        (Field.integer n).encode = (Field.ofWord word).encode ↔ (word.toNat : Int) = n.toInt % 2 ^ 64) ∧
      (∀ bytes : Bytes, bytes.length = 8 →
        (∃! n : Int64, (Field.integer n).encode = bytes) ∧ ∃! n : UInt64, (Field.ofWord n).encode = bytes) ∧
      (∀ fields fields', Field.Rewritten fields fields' ↔ Field.encodeAll fields = Field.encodeAll fields') ∧
      (∀ fields fields', Field.encodeAll fields = Field.encodeAll fields' →
        combiner.digestWith fields algorithm = combiner.digestWith fields' algorithm) ∧
      ∀ fields fields', Field.lengths fields = Field.lengths fields' →
        (Field.encodeAll fields = Field.encodeAll fields' ↔ fields.map Field.encode = fields'.map Field.encode) ∧
          ((combiner.digestWith fields algorithm).value = (combiner.digestWith fields' algorithm).value ↔
            fields.map Field.encode = fields'.map Field.encode ∨
              combiner.engine.Collides (combiner.resolve algorithm).value
                [Field.encodeAll fields, Field.encodeAll fields']) := by
  refine ⟨fun fields => ?_, Field.encode_integer_eq_iff, Field.encode_ofWord_eq_iff, Field.encode_integer_eq_encode_ofWord_iff,
    fun bytes size => ?_, fun _ _ => Field.rewritten_iff, fun fields fields' same => ?_, fun fields fields' shape => ?_⟩
  · rw [← List.flatMap_def]
    exact ⟨combiner.calls_digestWith fields algorithm, combiner.value_digestWith fields algorithm⟩
  · exact ⟨Field.existsUnique_integer size, Field.existsUnique_ofWord size⟩
  · rw [digestWith, digestWith, same]
  · exact ⟨Field.encodeAll_eq_iff_of_lengths shape, combiner.value_digestWith_eq_iff_of_lengths algorithm shape⟩

/-- Minus one and a text are laid down as the greatest number and the same text cut in two, and as these bytes with nothing in between;
another integer in the first place changes the digest of an engine that returns what it is given. The least integer is encoded as
`2 ^ 63`. -/
theorem digestWith_sees_concatenation_signs :
    let plain : Combiner := ⟨Engine.identity, Config.standard⟩
    let signed : List Field := [.integer (-1), .ofText "ab"]
    let unsigned : List Field := [.ofWord 0xFFFFFFFFFFFFFFFF, .bytes [97], .bytes [], .bytes [98]]
    let other : List Field := [.integer 1, .bytes [97, 98]]
    plain.digestWith signed .unknown = plain.digestWith unsigned .unknown ∧ Field.Rewritten signed unsigned ∧
      (plain.digestWith signed .unknown).calls = [(.sha256, [255, 255, 255, 255, 255, 255, 255, 255, 97, 98])] ∧
      Field.lengths signed = Field.lengths other ∧
      (plain.digestWith signed .unknown).value ≠ (plain.digestWith other .unknown).value ∧
      (Field.integer (-0x8000000000000000)).encode = (Field.ofWord 0x8000000000000000).encode := by
  intro plain signed unsigned other
  obtain ⟨asked, -, -, bits, -, rewritten, seen, shaped⟩ := digestWith_sees_concatenation plain .unknown
  have same : Field.encodeAll signed = Field.encodeAll unsigned := by decide
  have shape : Field.lengths signed = Field.lengths other := by decide
  refine ⟨seen signed unsigned same, (rewritten signed unsigned).2 same, (asked signed).1, shape, fun equal => ?_, (bits _ _).2 (by decide)⟩
  rcases ((shaped signed other shape).2).1 equal with encodings | collision
  · exact absurd encodings (by decide)
  · exact Engine.identity_not_collides collision

end Combiner

end SealedLedger
