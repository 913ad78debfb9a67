import SealedLedger.Config
import SealedLedger.Engine
import SealedLedger.Traced

/-!
# Combining fields into a digest

Fields are laid end to end, without separators or lengths, and the engine is asked once for the digest of the whole. An unknown
algorithm is replaced by the configured one, which is reported. Main statements: what is asked of the engine is the fields' bytes
laid end to end (`Combiner.calls_digestWith`), and never under the mark of unknown names (`Combiner.resolve_known`).
-/

namespace SealedLedger

/-- One input to a digest. -/
inductive Field where
  /-- Bytes, as they are. -/
  | bytes (data : Bytes)
  /-- A 64-bit integer, as its eight bytes in two's complement, most significant first. -/
  | integer (n : Int64)
  deriving DecidableEq

namespace Field

/-- The field of a text's UTF-8 bytes. -/
def ofText (text : String) : Field :=
  .bytes (Bytes.ofText text)

/-- The field of a hash's bytes. -/
def ofHash (hash : Hash) : Field :=
  .bytes hash.bytes

/-- The field of a 64-bit number without sign: the integer with the same bits. -/
def ofWord (n : UInt64) : Field :=
  .integer n.toInt64

/-- The bytes that a field contributes. -/
def encode : Field → Bytes
  | .bytes data => data
  | .integer n => Bytes.bigEndian 8 n.toUInt64.toNat

/-- The bytes of fields laid end to end. -/
def encodeAll (fields : List Field) : Bytes :=
  fields.flatMap encode

/-- A number without sign contributes its eight digits in base 256. -/
theorem encode_ofWord (n : UInt64) : (ofWord n).encode = Bytes.bigEndian 8 n.toNat := by
  simp [ofWord, encode]

end Field

/-- An engine and the algorithm to fall back on. -/
structure Combiner where
  engine : Engine
  config : Config

namespace Combiner

/-- The combiner with the standard engine. -/
def withConfig (config : Config) : Combiner :=
  ⟨Engine.standard, config⟩

/-- The combiner in use where none is given. -/
def standard : Combiner :=
  withConfig Config.standard

/-- The algorithm itself if it is a known one, and otherwise the configured one, which is reported. -/
def resolve (combiner : Combiner) (algorithm : Algorithm) : Traced Algorithm :=
  if algorithm = .unknown then do
    Traced.report (.event (.fallback combiner.config.fallback))
    return combiner.config.fallback
  else return algorithm

/-- The engine's digest of data. -/
def ask (combiner : Combiner) (algorithm : Algorithm) (data : Bytes) : Traced Hash :=
  ⟨⟨combiner.engine algorithm data⟩, [.call algorithm data]⟩

/-- The digest of fields under an algorithm. -/
def digestWith (combiner : Combiner) (fields : List Field) (algorithm : Algorithm) : Traced Hash := do
  let algorithm ← combiner.resolve algorithm
  combiner.ask algorithm (Field.encodeAll fields)

/-- The digest of fields under the configured algorithm. -/
def digest (combiner : Combiner) (fields : List Field) : Traced Hash :=
  combiner.digestWith fields combiner.config.fallback

/-- The digest of fields under an algorithm that has to be given. -/
def digestRequiring (combiner : Combiner) (fields : List Field) : Option Algorithm → Except Fault (Traced Hash)
  | none => .error .missingAlgorithm
  | some algorithm => .ok (combiner.digestWith fields algorithm)

/-! ## What is asked and reported -/

/-- The outcome of resolving: a known algorithm stays, an unknown one becomes the configured one. -/
theorem value_resolve (combiner : Combiner) (algorithm : Algorithm) :
    (combiner.resolve algorithm).value = if algorithm = .unknown then combiner.config.fallback else algorithm := by
  unfold resolve
  split <;> rfl

/-- Resolving an algorithm gives a known one. -/
theorem resolve_known (combiner : Combiner) (algorithm : Algorithm) : (combiner.resolve algorithm).value ≠ .unknown := by
  rw [value_resolve]
  split
  · exact combiner.config.fallback_known
  · assumption

/-- Resolving shows nothing but the algorithm that is put in for an unknown one. -/
theorem entries_resolve (combiner : Combiner) (algorithm : Algorithm) :
    (combiner.resolve algorithm).entries =
      if algorithm = .unknown then [.event (.fallback combiner.config.fallback)] else [] := by
  unfold resolve
  split <;> rfl

/-- A known algorithm resolves to itself and nothing is reported. -/
theorem resolve_of_known (combiner : Combiner) {algorithm : Algorithm} (h : algorithm ≠ .unknown) :
    combiner.resolve algorithm = pure algorithm := by
  rw [resolve, if_neg h]

/-- A digest under a known algorithm is one question to the engine and depends on nothing else. -/
theorem digestWith_of_known (combiner : Combiner) (fields : List Field) {algorithm : Algorithm} (h : algorithm ≠ .unknown) :
    combiner.digestWith fields algorithm = combiner.ask algorithm (Field.encodeAll fields) := by
  rw [digestWith, combiner.resolve_of_known h, pure_bind]

/-- Resolving asks nothing of the engine. -/
theorem calls_resolve (combiner : Combiner) (algorithm : Algorithm) : (combiner.resolve algorithm).calls = [] := by
  unfold resolve
  split <;> rfl

/-- A digest is one question to the engine: the fields' bytes, under the resolved algorithm. -/
theorem calls_digestWith (combiner : Combiner) (fields : List Field) (algorithm : Algorithm) :
    (combiner.digestWith fields algorithm).calls =
      [((combiner.resolve algorithm).value, Field.encodeAll fields)] := by
  have h := calls_resolve combiner algorithm
  simp only [Traced.calls] at h ⊢
  simp [digestWith, ask, h]

/-- The digest is the engine's answer to that question. -/
theorem value_digestWith (combiner : Combiner) (fields : List Field) (algorithm : Algorithm) :
    (combiner.digestWith fields algorithm).value =
      ⟨combiner.engine (combiner.resolve algorithm).value (Field.encodeAll fields)⟩ := rfl

end Combiner

end SealedLedger
