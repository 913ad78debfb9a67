import SealedLedger.Json.Number
import SealedLedger.Json.Text

/-!
# Reading values of a known type

A reader takes a value off the front of a text and says what is left. Every reader that succeeds consumes text, which is part of
its type, so that lists and records of any size can be read. Scalars are read by looking at the token that starts a value: a value
of another type is read as far as that token before it is refused.
-/

namespace SealedLedger.Json

/-- A way to read a value off the front of a text. -/
structure Reader (α : Type) where
  /-- The value and the text after it. -/
  read : List Char → Except Error (α × List Char)
  /-- A value takes at least one character. -/
  shorter : ∀ {text : List Char} {a : α} {rest : List Char}, read text = .ok (a, rest) → rest.length < text.length

/-! ## Blanks and literals -/

/-- The blanks of the format. -/
def isSpace (c : Char) : Bool :=
  c = ' ' || c = '\t' || c = '\n' || c = '\r'

/-- The text from its first character on that is not a blank. -/
def skipSpace (text : List Char) : List Char :=
  text.dropWhile isSpace

theorem skipSpace_le (text : List Char) : (skipSpace text).length ≤ text.length :=
  length_dropWhile_le text

/-- The text after the given letters. -/
def expectLetters : List Char → List Char → Except Error (List Char)
  | [], text => .ok text
  | _ :: _, [] => .error .endInValue
  | letter :: letters, c :: text => if c = letter then expectLetters letters text else .error .expectedLiteral

theorem expectLetters_le {letters text rest : List Char} (h : expectLetters letters text = .ok rest) :
    rest.length ≤ text.length := by
  fun_induction expectLetters letters text with
  | case1 => cases h; simp
  | case2 => cases h
  | case3 letters c text ih =>
    have := ih h
    simp only [List.length_cons]
    omega
  | case4 => cases h

/-! ## Tokens -/

/-- The token of a value that starts with this character, and the text after it. -/
def readTokenFrom (c : Char) (rest : List Char) : Except Error (Token × List Char) :=
  if c = 'n' then (expectLetters ['u', 'l', 'l'] rest).map (Token.null, ·)
  else if c = 't' then (expectLetters ['r', 'u', 'e'] rest).map (Token.boolean true, ·)
  else if c = 'f' then (expectLetters ['a', 'l', 's', 'e'] rest).map (Token.boolean false, ·)
  else if c = '-' then readNumber true rest
  else if c.isDigit then readNumber false (c :: rest)
  else if c = '"' then (readText [] rest).map fun (cs, rest) => (.text (String.ofList cs), rest)
  else if c = '[' then .ok (.openList, rest)
  else if c = '{' then .ok (.openObject, rest)
  else .error .expectedValue

/-- The token that starts the next value, and the text after it. -/
def readToken (text : List Char) : Except Error (Token × List Char) :=
  match skipSpace text with
  | [] => .error .endInValue
  | c :: rest => readTokenFrom c rest

theorem map_eq_ok {ε α β : Type} {f : α → β} {x : Except ε α} {b : β} (h : x.map f = .ok b) : ∃ a, x = .ok a ∧ f a = b := by
  cases x with
  | error e => cases h
  | ok a => exact ⟨a, rfl, by cases h; rfl⟩

theorem readTokenFrom_shorter {c : Char} {text rest : List Char} {t : Token}
    (h : readTokenFrom c text = .ok (t, rest)) : rest.length < text.length + 1 := by
  unfold readTokenFrom at h
  repeat' split at h
  · obtain ⟨r, hr, he⟩ := map_eq_ok h
    cases he
    have := expectLetters_le hr
    omega
  · obtain ⟨r, hr, he⟩ := map_eq_ok h
    cases he
    have := expectLetters_le hr
    omega
  · obtain ⟨r, hr, he⟩ := map_eq_ok h
    cases he
    have := expectLetters_le hr
    omega
  · have := readNumber_shorter h
    omega
  · have := readNumber_shorter h
    simp only [List.length_cons] at this
    omega
  · obtain ⟨r, hr, he⟩ := map_eq_ok h
    cases he
    have := readText_shorter hr
    omega
  · cases h
    omega
  · cases h
    omega
  · cases h

theorem readToken_shorter {text rest : List Char} {t : Token} (h : readToken text = .ok (t, rest)) :
    rest.length < text.length := by
  unfold readToken at h
  have hs := skipSpace_le text
  split at h
  · cases h
  · next c after hc =>
    have := readTokenFrom_shorter h
    rw [hc, List.length_cons] at hs
    omega

namespace Reader

/-- A reader of scalars: what to make of the token that starts the value. -/
def ofToken {α : Type} (accept : Token → Except Error α) : Reader α where
  read text :=
    match readToken text with
    | .error e => .error e
    | .ok (token, rest) => (accept token).map (·, rest)
  shorter h := by
    split at h
    · cases h
    · next hr =>
      obtain ⟨a, -, he⟩ := map_eq_ok h
      cases he
      exact readToken_shorter hr

/-- The same reader with its outcome changed. -/
def map {α β : Type} (f : α → β) (reader : Reader α) : Reader β where
  read text := (reader.read text).map fun (a, rest) => (f a, rest)
  shorter h := by
    obtain ⟨p, hp, he⟩ := map_eq_ok h
    cases he
    exact reader.shorter hp

/-- A string; `expected` names it in errors. -/
def text (expected : String) : Reader String :=
  ofToken fun
    | .text s => .ok s
    | token => .error (.wrongType token expected)

/-- A string or null. -/
def text? (expected : String) : Reader (Option String) :=
  ofToken fun
    | .text s => .ok (some s)
    | .null => .ok none
    | token => .error (.wrongType token expected)

/-- A number in double precision, written in any form. -/
def float : Reader Binary64 :=
  ofToken fun
    | .integer n => .ok (Binary64.ofInt n)
    | .float x => .ok x
    | token => .error (.wrongType token "f64")

/-- An integer without sign of 32 bits. -/
def word32 : Reader UInt32 :=
  ofToken fun
    | .integer n =>
      if 0 ≤ n ∧ n < 2 ^ 32 then .ok (UInt32.ofNat n.toNat) else .error (.wrongValue (.integer n) "u32")
    | token => .error (.wrongType token "u32")

end Reader

/-! ## Lists -/

/-- What stands at the place of an item of a list. -/
inductive ItemPlace where
  /-- The end of the list, and the text after it. -/
  | closed (rest : List Char)
  /-- An item, and the text from it on. -/
  | item (text : List Char)

/-- The place of an item: the first one follows the bracket, every other one a comma. -/
def itemPlace (first : Bool) (text : List Char) : Except Error ItemPlace :=
  match skipSpace text with
  | [] => .error .endInList
  | c :: rest =>
    if c = ']' then .ok (.closed rest)
    else if first then .ok (.item (c :: rest))
    else if c = ',' then
      match skipSpace rest with
      | [] => .error .endInValue
      | d :: after => if d = ']' then .error .trailingComma else .ok (.item (d :: after))
    else .error .expectedListEnd

theorem itemPlace_closed_shorter {first : Bool} {text rest : List Char}
    (h : itemPlace first text = .ok (.closed rest)) : rest.length < text.length := by
  unfold itemPlace at h
  have hs := skipSpace_le text
  split at h
  · cases h
  · next c after hc =>
    rw [hc, List.length_cons] at hs
    split at h
    · cases h
      omega
    · split at h
      · cases h
      · split at h
        · split at h
          · cases h
          · split at h <;> cases h
        · cases h

theorem itemPlace_item_le {first : Bool} {text rest : List Char} (h : itemPlace first text = .ok (.item rest)) :
    rest.length ≤ text.length := by
  unfold itemPlace at h
  have hs := skipSpace_le text
  split at h
  · cases h
  · next c after hc =>
    rw [hc, List.length_cons] at hs
    split at h
    · cases h
    · split at h
      · cases h
        simpa using hs
      · split at h
        · have ha := skipSpace_le after
          split at h
          · cases h
          · next d tail hd =>
            rw [hd] at ha
            split at h
            · cases h
            · cases h
              omega
        · cases h

/-- The items up to the end of a list, after those already read (last one first), and the text after the end. -/
def readItems {α : Type} (reader : Reader α) (read : List α) (text : List Char) : Except Error (List α × List Char) :=
  match _h : itemPlace read.isEmpty text with
  | .error e => .error e
  | .ok (.closed rest) => .ok (read.reverse, rest)
  | .ok (.item text) =>
    match _hr : reader.read text with
    | .error e => .error e
    | .ok (a, rest) => readItems reader (a :: read) rest
termination_by text.length
decreasing_by exact Nat.lt_of_lt_of_le (reader.shorter ‹_›) (itemPlace_item_le ‹_›)

theorem readItems_shorter {α : Type} {reader : Reader α} {read items : List α} {text rest : List Char}
    (h : readItems reader read text = .ok (items, rest)) : rest.length < text.length := by
  fun_induction readItems reader read text with
  | case1 => cases h
  | case2 read text rest' hp =>
    cases h
    exact itemPlace_closed_shorter hp
  | case3 => cases h
  | case4 read text text' hp a rest' hr ih =>
    exact Nat.lt_trans (ih h) (Nat.lt_of_lt_of_le (reader.shorter hr) (itemPlace_item_le hp))

/-- A list. -/
def Reader.list {α : Type} (reader : Reader α) : Reader (List α) where
  read text :=
    match readToken text with
    | .error e => .error e
    | .ok (.openList, rest) => readItems reader [] rest
    | .ok (token, _) => .error (.wrongType token "a sequence")
  shorter h := by
    split at h
    · cases h
    · next ht => exact Nat.lt_trans (readItems_shorter h) (readToken_shorter ht)
    · cases h

/-! ## Whole texts -/

/-- The value that makes up a whole text. -/
def Reader.readAll {α : Type} (reader : Reader α) (text : String) : Except Error α :=
  match reader.read text.toList with
  | .error e => .error e
  | .ok (a, rest) => if (skipSpace rest).isEmpty then .ok a else .error .trailingCharacters

end SealedLedger.Json
