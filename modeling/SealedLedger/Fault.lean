import SealedLedger.Json.Error

/-!
# What an operation can refuse

A fault names its cause; the wording is in one place.
-/

namespace SealedLedger

/-- A field that a transaction cannot do without. -/
inductive RequiredField where
  | text | senderHash | signature
  deriving DecidableEq

/-- The name of a required field. -/
def RequiredField.name : RequiredField → String
  | text => "text"
  | senderHash => "sender_hash"
  | signature => "signature"

/-- Why an operation refused its input. -/
inductive Fault where
  /-- No algorithm was given where one has to be. -/
  | missingAlgorithm
  /-- A transaction was to be built without this field. -/
  | missingField (field : RequiredField)
  /-- The mark of unknown names was given as a default. -/
  | unknownDefault
  /-- A text spells no bytes. -/
  | invalidHex (error : Text.Hex.Error)
  /-- A text is no configuration. -/
  | invalidConfig (error : Json.Error)
  deriving DecidableEq

/-- The wording of a fault. -/
def Fault.message : Fault → String
  | missingAlgorithm => "hash algorithm must be provided"
  | missingField field => "missing required field: " ++ field.name
  | unknownDefault => "UNKNOWN cannot be used as the default hash algorithm"
  | invalidHex error => "invalid hex: " ++ error.message
  | invalidConfig error => "invalid configuration: " ++ error.message

end SealedLedger
