import SealedLedger.Codec
import SealedLedger.Fault
import SealedLedger.Json.Record

/-!
# Configurations

A configuration names the algorithm that is used where none is known. That algorithm is never the mark of unknown names itself,
which is part of the type.
-/

namespace SealedLedger

/-- The choice of the algorithm to fall back on. -/
structure Config where
  fallback : Algorithm
  fallback_known : fallback ≠ .unknown
  deriving DecidableEq

namespace Config

/-- The configuration in use where none is given. -/
def standard : Config :=
  ⟨.sha256, by decide⟩

/-- The configuration with the given algorithm, which has to be a known one. -/
def ofAlgorithm (algorithm : Algorithm) : Except Fault Config :=
  if h : algorithm = .unknown then .error .unknownDefault else .ok ⟨algorithm, h⟩

/-- The record of a configuration: one name, which may be absent and need not be a known one. -/
def shape : Json.Shape (Option Algorithm) Algorithm where
  title := "struct RawConfig"
  fields :=
    [{ name := "default_algorithm"
       isSet := Option.isSome
       reader := Algorithm.reader.map fun algorithm _ => some algorithm }]
  empty := none
  finish given := .ok (given.getD standard.fallback)
  allowsShortList := true

/-- The configuration that a JSON text describes. -/
def ofJson (text : String) : Except Fault Config :=
  match shape.reader.readAll text with
  | .error e => .error (.invalidConfig e)
  | .ok algorithm => ofAlgorithm algorithm

/-- Only the mark of unknown names is refused as an algorithm to fall back on. -/
theorem ofAlgorithm_eq_error_iff (algorithm : Algorithm) :
    ofAlgorithm algorithm = .error .unknownDefault ↔ algorithm = .unknown := by
  by_cases h : algorithm = .unknown <;> simp [ofAlgorithm, h]

/-- A text that can be read is refused if and only if it names an unknown algorithm. -/
theorem ofJson_eq_error_iff (text : String) :
    ofJson text = .error .unknownDefault ↔ shape.reader.readAll text = .ok .unknown := by
  rw [ofJson]
  cases shape.reader.readAll text with
  | error e => simp
  | ok algorithm => simp [ofAlgorithm_eq_error_iff]

/-- The algorithm to fall back on is known, so the one that is taken is unknown only if it was given. -/
theorem getD_fallback_eq_unknown_iff (config : Config) (given : Option Algorithm) :
    given.getD config.fallback = .unknown ↔ given = some .unknown := by
  cases given with
  | none => simp [config.fallback_known]
  | some algorithm => simp

/-- The JSON value that describes a configuration. -/
def toJson (config : Config) : Json.Value :=
  .object [("default_algorithm", config.fallback.toJson)]

end Config

end SealedLedger
