import SealedLedger.Binary64.Decimal
import SealedLedger.Text.Hex

/-!
# What can be wrong with a JSON text

An error names what was wanted at the place where reading stopped, or what was found there instead. Reading goes from left to
right and stops at the first error.
-/

namespace SealedLedger.Json

/-- The start of a value: a scalar, which is read whole, or the bracket that opens a list or an object. -/
inductive Token where
  | null
  | boolean (b : Bool)
  | integer (n : Int)
  | float (x : Binary64)
  | text (s : String)
  | openList
  | openObject
  deriving DecidableEq

/-- How messages name a value that was not wanted. -/
def Token.description : Token → String
  | null => "null"
  | boolean b => "boolean `" ++ (if b then "true" else "false") ++ "`"
  | integer n => "integer `" ++ toString n ++ "`"
  | float x => "floating point `" ++ x.shortest ++ "`"
  | text s => "string " ++ Text.quoteText s
  | openList => "sequence"
  | openObject => "map"

/-- Why a text could not be read. -/
inductive Error where
  /-- The text ends where a value, the rest of a string, of a list or of an object is wanted. -/
  | endInValue
  | endInString
  | endInList
  | endInObject
  /-- No value starts here. -/
  | expectedValue
  /-- A letter that does not continue a literal. -/
  | expectedLiteral
  | expectedColon
  /-- An entry of a list or of an object is followed by neither a comma nor the end. -/
  | expectedListEnd
  | expectedObjectEnd
  | invalidNumber
  /-- A number too large for double precision. -/
  | numberOutOfRange
  | invalidEscape
  /-- A raw control character inside a string. -/
  | controlCharacter
  /-- A trailing surrogate on its own, or another code unit in its place. -/
  | loneSurrogate
  /-- A leading surrogate that no escape follows. -/
  | unfinishedSurrogate
  /-- The key of an object's entry does not start with a quote. -/
  | keyMustBeString
  /-- A comma right before the end of a list or of an object. -/
  | trailingComma
  /-- Something other than blanks after the value. -/
  | trailingCharacters
  /-- A value of another type than the expected one. -/
  | wrongType (found : Token) (expected : String)
  /-- A value of the expected type, but not one that can be taken. -/
  | wrongValue (found : Token) (expected : String)
  /-- Too few entries in a list that stands for a record. -/
  | wrongLength (length : Nat) (expected : String)
  | missingField (name : String)
  | duplicateField (name : String)
  /-- A text that is no hexadecimal spelling of bytes. -/
  | hex (error : Text.Hex.Error)
  deriving DecidableEq

/-- The wording of an error. -/
def Error.message : Error → String
  | endInValue => "EOF while parsing a value"
  | endInString => "EOF while parsing a string"
  | endInList => "EOF while parsing a list"
  | endInObject => "EOF while parsing an object"
  | expectedValue => "expected value"
  | expectedLiteral => "expected ident"
  | expectedColon => "expected `:`"
  | expectedListEnd => "expected `,` or `]`"
  | expectedObjectEnd => "expected `,` or `\x7d`"
  | invalidNumber => "invalid number"
  | numberOutOfRange => "number out of range"
  | invalidEscape => "invalid escape"
  | controlCharacter => "control character (\\u0000-\\u001F) found while parsing a string"
  | loneSurrogate => "lone leading surrogate in hex escape"
  | unfinishedSurrogate => "unexpected end of hex escape"
  | keyMustBeString => "key must be a string"
  | trailingComma => "trailing comma"
  | trailingCharacters => "trailing characters"
  | wrongType found expected => "invalid type: " ++ found.description ++ ", expected " ++ expected
  | wrongValue found expected => "invalid value: " ++ found.description ++ ", expected " ++ expected
  | wrongLength length expected => "invalid length " ++ toString length ++ ", expected " ++ expected
  | missingField name => "missing field `" ++ name ++ "`"
  | duplicateField name => "duplicate field `" ++ name ++ "`"
  | hex error => error.message

end SealedLedger.Json
