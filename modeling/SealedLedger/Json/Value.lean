import SealedLedger.Json.Number
import SealedLedger.Json.Text

/-!
# JSON values and their compact text

A value is written without blanks, and the entries of an object in the order in which they are given; keys may repeat.
-/

namespace SealedLedger.Json

/-- A JSON value. -/
inductive Value where
  | null
  | boolean (b : Bool)
  | number (n : Numeral)
  | text (s : String)
  | list (items : List Value)
  | object (members : List (String × Value))

namespace Value

/-- The value of an integer. -/
def ofInt (n : Int) : Value :=
  number (Numeral.ofInt n)

/-- The value of an optional text: the text, or null. -/
def ofText? : Option String → Value
  | none => null
  | some s => text s

mutual

/-- The characters of a value's compact text. -/
def chars : Value → List Char
  | null => ['n', 'u', 'l', 'l']
  | boolean true => ['t', 'r', 'u', 'e']
  | boolean false => ['f', 'a', 'l', 's', 'e']
  | number n => n.chars
  | text s => quoted s
  | list [] => ['[', ']']
  | list (item :: items) => '[' :: item.chars ++ itemsChars items
  | object [] => ['{', '}']
  | object ((key, value) :: members) => '{' :: quoted key ++ ':' :: value.chars ++ membersChars members

/-- The characters after an item of a list: the other items, each after a comma, and the end. -/
def itemsChars : List Value → List Char
  | [] => [']']
  | item :: items => ',' :: item.chars ++ itemsChars items

/-- The characters after an entry of an object: the other entries, each after a comma, and the end. -/
def membersChars : List (String × Value) → List Char
  | [] => ['}']
  | (key, value) :: members => ',' :: quoted key ++ ':' :: value.chars ++ membersChars members

end

/-- The compact text of a value. -/
def render (value : Value) : String :=
  String.ofList value.chars

end Value

end SealedLedger.Json
