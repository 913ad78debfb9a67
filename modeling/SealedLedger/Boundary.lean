import SealedLedger.Merkle
import SealedLedger.Text.Blank

/-!
# The text boundary

Callers that know only text hand over bytes in hexadecimal, with blanks around them at will, and get hexadecimal back. An absent
algorithm is refused, and an unknown name is left to the standard combiner.
-/

namespace SealedLedger.Boundary

/-- The version of the library. -/
def version : String := "0.1.0"

/-- Why a call with texts was refused. -/
inductive Refusal where
  | fault (cause : Fault)
  /-- A text spells no bytes where plain bytes are wanted. -/
  | undecodable (cause : Text.Hex.Error)
  deriving DecidableEq

/-- The wording of a refusal. -/
def Refusal.message : Refusal → String
  | .fault cause => cause.message
  | .undecodable cause => cause.message

/-! ## Reading arguments -/

/-- The bytes that a text spells between its outer blanks. -/
def decodeBytes (text : String) : Except Text.Hex.Error Bytes :=
  Text.Hex.decode (Text.trim text)

/-- An error in hexadecimal text as a fault. -/
def orInvalidHex {α : Type} : Except Text.Hex.Error α → Except Fault α
  | .ok a => .ok a
  | .error e => .error (.invalidHex e)

/-- The hash that a text spells between its outer blanks. -/
def parseHash (text : String) : Except Fault Hash :=
  orInvalidHex (Hash.ofHex (Text.trim text))

/-- The hashes that texts spell, or the fault of the first that spells none. -/
def parseHashes : List String → Except Fault (List Hash)
  | [] => .ok []
  | text :: texts => do
    let hash ← parseHash text
    let hashes ← parseHashes texts
    return hash :: hashes

/-- The hash that an optional text spells; a blank text counts as none. -/
def parseOptionalHash : Option String → Except Fault (Option Hash)
  | none => .ok none
  | some text => if (Text.trim text).isEmpty then .ok none else (parseHash text).map some

/-- The algorithm that a name stands for; the name has to be given, but need not be a known one. -/
def parseAlgorithm : Option String → Except Fault Algorithm
  | none => .error .missingAlgorithm
  | some name => .ok (Algorithm.ofName name)

/-- The byte strings that texts spell, or the error of the first that spells none. -/
def decodeAll : List String → Except Text.Hex.Error (List Bytes)
  | [] => .ok []
  | text :: texts => do
    let bytes ← decodeBytes text
    let rest ← decodeAll texts
    return bytes :: rest

/-- A fault as a refusal. -/
def orFault {α : Type} : Except Fault α → Except Refusal α
  | .ok a => .ok a
  | .error fault => .error (.fault fault)

/-- An error in plain bytes as a refusal. -/
def orUndecodable {α : Type} : Except Text.Hex.Error α → Except Refusal α
  | .ok a => .ok a
  | .error e => .error (.undecodable e)

/-! ## Calls -/

/-- The digest of fields laid end to end. -/
def digestHex (fields : List String) (algorithm : Option String) : Except Refusal (Traced String) := do
  let algorithm ← orFault (parseAlgorithm algorithm)
  let decoded ← orUndecodable (decodeAll fields)
  return Hash.hex <$> Combiner.standard.digestWith (decoded.map Field.bytes) algorithm

/-- The Merkle root of leaves. -/
def merkleRootHex (leaves : List String) (algorithm : Option String) : Except Refusal (Traced String) := do
  let algorithm ← orFault (parseAlgorithm algorithm)
  let leaves ← orFault (parseHashes leaves)
  return Hash.hex <$> Combiner.standard.merkleRootWith leaves algorithm

/-- The number of zero bytes that a hash starts with. -/
def leadingZeroBytesHex (hash : String) : Except Refusal UInt32 := do
  let hash ← orFault (parseHash hash)
  return UInt32.ofNat hash.leadingZeroBytes

/-- Writes a line. -/
def log (message : String) : Traced Unit :=
  Traced.report (.line message)

end SealedLedger.Boundary
