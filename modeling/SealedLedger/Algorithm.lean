import SealedLedger.Text.Blank

/-!
# Digest algorithms and their names

Four algorithms are supported. A name stands for one of them if, without its outer blanks and then without dashes and underscores, it is
that algorithm's name up to case; every other name stands for `Algorithm.unknown`, which is left to a configured default.
-/

namespace SealedLedger

/-- A digest algorithm, or the mark of a name that stands for none. -/
inductive Algorithm where
  | sha1 | sha256 | sha384 | sha512 | unknown
  deriving DecidableEq, Inhabited

namespace Algorithm

/-- The algorithms that can be asked for by name. -/
def supported : List Algorithm :=
  [sha1, sha256, sha384, sha512]

/-- The name under which an algorithm is reported. -/
def name : Algorithm → String
  | sha1 => "SHA-1"
  | sha256 => "SHA-256"
  | sha384 => "SHA-384"
  | sha512 => "SHA-512"
  | unknown => "UNKNOWN"

/-- The length of a digest in bytes, where the algorithm fixes one. -/
def outputLength : Algorithm → Option Nat
  | sha1 => some 20
  | sha256 => some 32
  | sha384 => some 48
  | sha512 => some 64
  | unknown => none

/-- What of a name counts: its characters between the outer blanks, in upper case, without dashes and underscores. -/
def spelling (text : String) : List Char :=
  ((Text.trimChars text.toList).filter fun c => c ≠ '-' ∧ c ≠ '_').map Char.toUpper

/-- The algorithm a name stands for: the supported one with the same spelling, if there is one. -/
def ofName (text : String) : Algorithm :=
  (supported.find? fun algorithm => spelling algorithm.name = spelling text).getD unknown

/-- Every supported algorithm is found under its own name, and the mark's own name is no algorithm's. -/
theorem ofName_name (algorithm : Algorithm) : ofName algorithm.name = algorithm := by
  cases algorithm <;> decide +kernel

/-- A fixed length belongs to every algorithm but the mark. -/
theorem outputLength_eq_none_iff {algorithm : Algorithm} : algorithm.outputLength = none ↔ algorithm = unknown := by
  cases algorithm <;> decide

end Algorithm

end SealedLedger
