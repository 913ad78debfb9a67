import SealedLedger.Algorithm
import SealedLedger.Hash
import SealedLedger.Json.Reader
import SealedLedger.Json.Value

/-!
# Algorithms and hashes in JSON

An algorithm is written by its name and read from any name; a hash is written and read in hexadecimal. Main statement: a written
hash is read back (`Hash.readAll_render`).
-/

namespace SealedLedger

/-- The JSON value of an algorithm. -/
def Algorithm.toJson (algorithm : Algorithm) : Json.Value :=
  .text algorithm.name

/-- Reads an algorithm; a name that stands for none is not an error. -/
def Algorithm.reader : Json.Reader Algorithm :=
  (Json.Reader.text "a string").map Algorithm.ofName

/-- The JSON value of a hash. -/
def Hash.toJson (hash : Hash) : Json.Value :=
  .text hash.hex

/-- Reads a hash. -/
def Hash.reader : Json.Reader Hash :=
  .ofToken fun
    | .text s =>
      match Hash.ofHex s with
      | .ok hash => .ok hash
      | .error e => .error (.hex e)
    | token => .error (.wrongType token "a hex encoded string")

/-- A written hash is read back. -/
theorem Hash.readAll_render (hash : Hash) : Hash.reader.readAll hash.toJson.render = .ok hash := by
  have h : Json.readToken (Json.quoted hash.hex) = .ok (.text hash.hex, []) := by
    have hq := Json.readText_escape [] hash.hex.toList []
    have hs : Json.skipSpace (Json.quoted hash.hex) = '"' :: (Json.escape hash.hex.toList ++ ['"']) := by
      simp [Json.skipSpace, Json.quoted, Json.isSpace]
    simp [Json.readToken, hs, Json.readTokenFrom, hq, Except.map]
  simp [Json.Reader.readAll, Hash.reader, Json.Reader.ofToken, Hash.toJson, Json.Value.render, Json.Value.chars, h,
    Hash.ofHex_hex, Except.map, Json.skipSpace]

end SealedLedger
