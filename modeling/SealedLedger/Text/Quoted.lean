import SealedLedger.Text.Printable

/-!
# Quoted text in messages

Messages show a character between single quotes and a text between double quotes. Inside, the quote in use and the backslash are
escaped by a backslash, NUL, tab, line feed and carriage return have short escapes, and every other character that is not
printable is spelled by its code point.
-/

namespace SealedLedger.Text

/-- The escape that spells a character by its code point, in hexadecimal without padding. -/
def codePointEscape (c : Char) : List Char :=
  '\\' :: 'u' :: '{' :: Nat.toDigits 16 c.toNat ++ ['}']

/-- A character as it stands between two of the given quotes. -/
def quotedForm (quote c : Char) : List Char :=
  if c = '\x00' then ['\\', '0']
  else if c = '\t' then ['\\', 't']
  else if c = '\n' then ['\\', 'n']
  else if c = '\r' then ['\\', 'r']
  else if c = '\\' ∨ c = quote then ['\\', c]
  else if isPrintable c then [c]
  else codePointEscape c

-- each quote escapes itself and leaves the other kind alone
example :
    quotedForm '"' '"' = ['\\', '"'] ∧ quotedForm '"' '\'' = ['\''] ∧
      quotedForm '\'' '\'' = ['\\', '\''] ∧ quotedForm '\'' '"' = ['"'] := by
  decide

/-- A character between single quotes. -/
def quoteChar (c : Char) : String :=
  String.ofList ('\'' :: quotedForm '\'' c ++ ['\''])

/-- A text between double quotes. -/
def quoteText (text : String) : String :=
  String.ofList ('"' :: text.toList.flatMap (quotedForm '"') ++ ['"'])

end SealedLedger.Text
