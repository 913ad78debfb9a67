import SealedLedger.Json.Skip

/-!
# Reading records

A record is read from an object, whose entries may come in any order and among entries nobody knows, or from a list of its fields
in their declared order. What has been read so far is a draft of the record; a field may be given once.
-/

namespace SealedLedger.Json

/-- A field of a record: its name, whether a draft has it already, and how to read it into a draft. -/
structure Field (draft : Type) where
  name : String
  isSet : draft → Bool
  reader : Reader (draft → draft)

/-- How a record is read by way of drafts. -/
structure Shape (draft α : Type) where
  /-- The name in errors. -/
  title : String
  fields : List (Field draft)
  /-- The draft without any field. -/
  empty : draft
  /-- The record of a draft, or the first field it misses. -/
  finish : draft → Except Error α
  /-- Whether a list may end before the last field. -/
  allowsShortList : Bool

/-- A field that has to be known at the end of a record. -/
def require {α : Type} (name : String) : Option α → Except Error α
  | none => .error (.missingField name)
  | some a => .ok a

/-! ## From an object -/

/-- What stands at the place of an entry of an object. -/
inductive EntryPlace where
  /-- The end of the object, and the text after it. -/
  | closed (rest : List Char)
  /-- A key, and the text after its opening quote. -/
  | key (text : List Char)

/-- The place of an entry: the first one follows the bracket, every other one a comma. -/
def entryPlace (first : Bool) (text : List Char) : Except Error EntryPlace :=
  match skipSpace text with
  | [] => .error .endInObject
  | c :: rest =>
    if c = '}' then .ok (.closed rest)
    else if first then if c = '"' then .ok (.key rest) else .error .keyMustBeString
    else if c = ',' then
      match skipSpace rest with
      | [] => .error .endInValue
      | d :: after =>
        if d = '"' then .ok (.key after) else if d = '}' then .error .trailingComma else .error .keyMustBeString
    else .error .expectedObjectEnd

/-- The text after the colon that has to stand here. -/
def expectColon (text : List Char) : Except Error (List Char) :=
  match skipSpace text with
  | [] => .error .endInObject
  | c :: rest => if c = ':' then .ok rest else .error .expectedColon

/-- The draft after the entry with this key, and the text after it: a known field is read and an unknown one skipped. -/
def readEntry {draft : Type} (fields : List (Field draft)) (d : draft) (key : String) (text : List Char) :
    Except Error (draft × List Char) :=
  match fields.find? fun field => field.name = key with
  | some field =>
    if field.isSet d then .error (.duplicateField field.name)
    else
      match expectColon text with
      | .error e => .error e
      | .ok text => (field.reader.read text).map fun (set, rest) => (set d, rest)
  | none =>
    match expectColon text with
    | .error e => .error e
    | .ok text => (skipValue text).map (d, ·)

theorem entryPlace_closed_shorter {first : Bool} {text rest : List Char}
    (h : entryPlace first text = .ok (.closed rest)) : rest.length < text.length := by
  unfold entryPlace at h
  have hs := skipSpace_le text
  split at h
  · cases h
  · next c after hc =>
    rw [hc, List.length_cons] at hs
    split at h
    · cases h
      omega
    · split at h
      · split at h <;> cases h
      · split at h
        · split at h
          · cases h
          · split at h
            · cases h
            · split at h <;> cases h
        · cases h

theorem entryPlace_key_shorter {first : Bool} {text rest : List Char} (h : entryPlace first text = .ok (.key rest)) :
    rest.length < text.length := by
  unfold entryPlace at h
  have hs := skipSpace_le text
  split at h
  · cases h
  · next c after hc =>
    rw [hc, List.length_cons] at hs
    split at h
    · cases h
    · split at h
      · split at h
        · cases h
          omega
        · cases h
      · split at h
        · have ha := skipSpace_le after
          split at h
          · cases h
          · next d tail hd =>
            rw [hd, List.length_cons] at ha
            split at h
            · cases h
              omega
            · split at h <;> cases h
        · cases h

theorem expectColon_shorter {text rest : List Char} (h : expectColon text = .ok rest) : rest.length < text.length := by
  unfold expectColon at h
  have hs := skipSpace_le text
  split at h
  · cases h
  · next c after hc =>
    rw [hc, List.length_cons] at hs
    split at h
    · cases h
      omega
    · cases h

theorem readEntry_shorter {draft : Type} {fields : List (Field draft)} {d d' : draft} {key : String}
    {text rest : List Char} (h : readEntry fields d key text = .ok (d', rest)) : rest.length < text.length := by
  unfold readEntry at h
  split at h
  · next field _ =>
    split at h
    · cases h
    · split at h
      · cases h
      · next hc =>
        obtain ⟨p, hp, he⟩ := map_eq_ok h
        cases he
        exact Nat.lt_trans (field.reader.shorter hp) (expectColon_shorter hc)
  · split at h
    · cases h
    · next hc =>
      obtain ⟨p, hp, he⟩ := map_eq_ok h
      cases he
      exact Nat.lt_trans (skipValue_shorter hp) (expectColon_shorter hc)

/-- The draft at the end of an object, from the one at the place of an entry, and the text after the end. -/
def readEntries {draft : Type} (fields : List (Field draft)) (first : Bool) (d : draft) (text : List Char) :
    Except Error (draft × List Char) :=
  match _h : entryPlace first text with
  | .error e => .error e
  | .ok (.closed rest) => .ok (d, rest)
  | .ok (.key text) =>
    match _ht : readText [] text with
    | .error e => .error e
    | .ok (key, text) =>
      match _he : readEntry fields d (String.ofList key) text with
      | .error e => .error e
      | .ok (d, rest) => readEntries fields false d rest
termination_by text.length
decreasing_by
  exact Nat.lt_trans (readEntry_shorter ‹_›) (Nat.lt_trans (readText_shorter ‹_›) (entryPlace_key_shorter ‹_›))

theorem readEntries_shorter {draft : Type} {fields : List (Field draft)} {first : Bool} {d d' : draft}
    {text rest : List Char} (h : readEntries fields first d text = .ok (d', rest)) : rest.length < text.length := by
  fun_induction readEntries fields first d text with
  | case1 => cases h
  | case2 first d text rest' hp =>
    cases h
    exact entryPlace_closed_shorter hp
  | case3 => cases h
  | case4 => cases h
  | case5 first d text text' hp key text'' ht d'' rest' he ih =>
    exact Nat.lt_trans (ih h)
      (Nat.lt_trans (readEntry_shorter he) (Nat.lt_trans (readText_shorter ht) (entryPlace_key_shorter hp)))

/-! ## From a list -/

/-- The text after the bracket that has to close a list right after the last field. -/
def closeRecordList (text : List Char) : Except Error (List Char) :=
  match skipSpace text with
  | [] => .error .endInList
  | c :: rest =>
    if c = ']' then .ok rest
    else if c = ',' ∧ (skipSpace rest).head? = some ']' then .error .trailingComma
    else .error .trailingCharacters

/-- What stands in a list for a record with this many fields. -/
def listExpectation (title : String) (fields : Nat) : String :=
  title ++ " with " ++ toString fields ++ (if fields = 1 then " element" else " elements")

/-- The draft at the end of a list, from the one after `seen` fields, and the text after the list. -/
def readFields {draft α : Type} (shape : Shape draft α) :
    Nat → List (Field draft) → draft → List Char → Except Error (draft × List Char)
  | _, [], d, text => (closeRecordList text).map (d, ·)
  | seen, field :: fields, d, text =>
    match itemPlace (seen = 0) text with
    | .error e => .error e
    | .ok (.closed rest) =>
      if shape.allowsShortList then .ok (d, rest)
      else .error (.wrongLength seen (listExpectation shape.title shape.fields.length))
    | .ok (.item text) =>
      match field.reader.read text with
      | .error e => .error e
      | .ok (set, rest) => readFields shape (seen + 1) fields (set d) rest

theorem closeRecordList_shorter {text rest : List Char} (h : closeRecordList text = .ok rest) :
    rest.length < text.length := by
  unfold closeRecordList at h
  have hs := skipSpace_le text
  split at h
  · cases h
  · next c after hc =>
    rw [hc, List.length_cons] at hs
    split at h
    · cases h
      omega
    · split at h <;> cases h

theorem readFields_shorter {draft α : Type} {shape : Shape draft α} {seen : Nat} {fields : List (Field draft)}
    {d d' : draft} {text rest : List Char} (h : readFields shape seen fields d text = .ok (d', rest)) :
    rest.length < text.length := by
  induction fields generalizing seen d text with
  | nil =>
    obtain ⟨r, hr, he⟩ := map_eq_ok h
    cases he
    exact closeRecordList_shorter hr
  | cons field fields ih =>
    unfold readFields at h
    split at h
    · cases h
    · next hp =>
      split at h
      · cases h
        exact itemPlace_closed_shorter hp
      · cases h
    · next hp =>
      split at h
      · cases h
      · next hr => exact Nat.lt_trans (ih h) (Nat.lt_of_lt_of_le (field.reader.shorter hr) (itemPlace_item_le hp))

/-! ## Records -/

/-- A draft, from an object or from a list. -/
def Shape.draftReader {draft α : Type} (shape : Shape draft α) : Reader draft where
  read text :=
    match readToken text with
    | .error e => .error e
    | .ok (.openObject, rest) => readEntries shape.fields true shape.empty rest
    | .ok (.openList, rest) => readFields shape 0 shape.fields shape.empty rest
    | .ok (token, _) => .error (.wrongType token shape.title)
  shorter h := by
    split at h
    · cases h
    · next ht => exact Nat.lt_trans (readEntries_shorter h) (readToken_shorter ht)
    · next ht => exact Nat.lt_trans (readFields_shorter h) (readToken_shorter ht)
    · cases h

/-- A record, from an object or from a list. -/
def Shape.reader {draft α : Type} (shape : Shape draft α) : Reader α where
  read text :=
    match shape.draftReader.read text with
    | .error e => .error e
    | .ok (d, rest) => (shape.finish d).map (·, rest)
  shorter h := by
    split at h
    · cases h
    · next hd =>
      obtain ⟨a, -, he⟩ := map_eq_ok h
      cases he
      exact shape.draftReader.shorter hd

end SealedLedger.Json
