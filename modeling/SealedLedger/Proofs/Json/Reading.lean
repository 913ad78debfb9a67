import SealedLedger.Info
import SealedLedger.Proofs.Json.Skipping

/-!
# What was written is read back

A reader that gives a certain result for a written value gives it whatever follows the value (`Reader.Reads`). Strings come back
character by character, and integers of 64 bits digit by digit. A record is read from an object whose entries fill its draft one
after the other, in any order, while entries that nobody knows are skipped (`Fills`, `Shape.reads_object`). A transaction is written
with an algorithm, and in another order than its report has; its text is still read as that report. Main statement:
`TransactionInfo.readAll_toJson`.
-/

namespace SealedLedger.Json

/-! ## Integers -/

/-- More digits do not make a number smaller. -/
theorem le_ofDigitChars (digits : List Char) (n : Nat) : n ≤ Nat.ofDigitChars 10 digits n := by
  rw [Nat.ofDigitChars_eq_ofDigitChars_zero]
  exact Nat.le_add_right_of_le (Nat.le_mul_of_pos_left n (Nat.pow_pos (by decide)))

/-- Nothing is gathered where no digit stands. -/
theorem gather_of_avoids (n taken : Nat) {rest : List Char} (stop : Avoids Char.isDigit rest) :
    gather n taken rest = (n, taken, rest) := by
  cases rest with
  | nil => rfl
  | cons c rest =>
    have other : ¬(c.isDigit = true ∧ 10 * n + digitValue c < 2 ^ 64) := by simp [stop c rfl]
    rw [gather, if_neg other]

/-- Digits of a number below `2 ^ 64` are all gathered. -/
theorem gather_append {digits rest : List Char} (all : ∀ c ∈ digits, c.isDigit = true) (stop : Avoids Char.isDigit rest)
    {n : Nat} (taken : Nat) (small : Nat.ofDigitChars 10 digits n < 2 ^ 64) :
    gather n taken (digits ++ rest) = (Nat.ofDigitChars 10 digits n, taken + digits.length, rest) := by
  induction digits generalizing n taken with
  | nil => exact gather_of_avoids n taken stop
  | cons c digits ih =>
    have digit := all c (.head _)
    rw [Nat.ofDigitChars_cons] at small ⊢
    have room : 10 * n + digitValue c < 2 ^ 64 := Nat.lt_of_le_of_lt (le_ofDigitChars digits _) small
    rw [List.cons_append, gather, if_pos ⟨digit, room⟩, List.length_cons, Nat.add_comm digits.length, ← Nat.add_assoc]
    exact ih (fun d h => all d (.tail _ h)) (taken + 1) small

/-- Digits that nothing of a number follows are an integer. -/
theorem finishNumber_of_ends (negative : Bool) (n : Nat) {rest : List Char} (ends : Ends rest) :
    finishNumber negative n 0 rest = .ok (integerToken negative n, rest) := by
  cases rest with
  | nil => rfl
  | cons c rest =>
    have plain := ends.avoids (p := fun c => c = '.' || c = 'e' || c = 'E') rfl rfl rfl c rfl
    simp only [Bool.or_eq_false_iff, decide_eq_false_iff_not] at plain
    obtain ⟨⟨point, letter⟩, capital⟩ := plain
    simp [finishNumber, point, letter, capital]

/-- The digits of a number below `2 ^ 64` are read as that number. -/
theorem readNumber_toDigits (negative : Bool) {n : Nat} (small : n < 2 ^ 64) {rest : List Char} (ends : Ends rest) :
    readNumber negative (Nat.toDigits 10 n ++ rest) = .ok (integerToken negative n, rest) := by
  have stop : Avoids Char.isDigit rest := ends.avoids rfl rfl rfl
  obtain ⟨c, cs, start, digit⟩ := exists_toDigits_eq_cons n
  have all := isDigit_toDigits n
  have whole := Nat.ofDigitChars_ten_toDigits (n := n)
  rw [start] at all whole ⊢
  by_cases zero : c = '0'
  · subst zero
    obtain ⟨rfl, rfl⟩ := eq_zero_of_toDigits start
    rw [List.cons_append, List.nil_append, readNumber, if_pos rfl, startsWithDigit_eq_false stop, if_neg Bool.false_ne_true]
    exact finishNumber_of_ends negative 0 ends
  · rw [Nat.ofDigitChars_cons, Nat.mul_zero, Nat.zero_add] at whole
    have gathered : gather (digitValue c) 0 (cs ++ rest) = (n, 0 + cs.length, rest) := by
      rw [gather_append (fun d h => all d (.tail _ h)) stop 0 (by rw [digitValue, whole]; exact small), digitValue, whole]
    have empty : ∀ c ∈ ([] : List Char), c.isDigit = true := by simp
    have none : rest.takeWhile Char.isDigit = [] := takeWhile_append_of_avoids empty stop
    have kept : rest.dropWhile Char.isDigit = rest := dropWhile_append_of_avoids empty stop
    rw [List.cons_append, readNumber, if_neg zero, if_pos digit, gathered]
    simp only [none, kept, List.length_nil]
    exact finishNumber_of_ends negative n ends

/-- The digits of an integer of 64 bits, with or without a sign, stand for it. -/
theorem integerToken_natAbs {n : Int} (low : -2 ^ 63 ≤ n) : integerToken (decide (n < 0)) n.natAbs = .integer n := by
  by_cases negative : n < 0
  · have fits : ¬(n.natAbs = 0 ∨ 2 ^ 63 < n.natAbs) := by omega
    have size : -(n.natAbs : Int) = n := by omega
    rw [integerToken, decide_eq_true negative, if_neg (by decide), if_neg fits, size]
  · have size : (n.natAbs : Int) = n := by omega
    rw [integerToken, decide_eq_false negative, if_pos (by decide), size]

/-- A number is read from its digits on, after its sign. -/
theorem readToken_signChars (negative : Bool) (n : Nat) (rest : List Char) :
    readToken (Numeral.signChars negative ++ (Nat.toDigits 10 n ++ rest)) = readNumber negative (Nat.toDigits 10 n ++ rest) := by
  cases negative with
  | true => rfl
  | false =>
    obtain ⟨c, cs, start, digit⟩ := exists_toDigits_eq_cons n
    have number : readTokenFrom c = fun text => readNumber false (c :: text) := by
      funext text
      simp [readTokenFrom, ne_of_isDigit digit, digit]
    rw [start, Numeral.signChars, if_neg Bool.false_ne_true, List.nil_append, List.cons_append, readToken,
      skipSpace_cons (isSpace_of_isDigit digit)]
    exact congrFun number _

theorem readToken_ofInt {n : Int} (low : -2 ^ 63 ≤ n) (high : n < 2 ^ 64) {rest : List Char} (ends : Ends rest) :
    readToken ((Value.ofInt n).chars ++ rest) = .ok (.integer n, rest) := by
  have small : n.natAbs < 2 ^ 64 := by omega
  have text : (Value.ofInt n).chars ++ rest = Numeral.signChars (decide (n < 0)) ++ (Nat.toDigits 10 n.natAbs ++ rest) := by
    rw [Value.ofInt, Value.chars, Numeral.chars_eq]
    simp [Numeral.ofInt, Numeral.fractionChars, Numeral.exponentChars]
  rw [text, readToken_signChars, readNumber_toDigits (decide (n < 0)) small ends, integerToken_natAbs low]

/-! ## Readers -/

theorem readToken_quoted (text : String) (rest : List Char) : readToken (quoted text ++ rest) = .ok (.text text, rest) := by
  have inner : quoted text ++ rest = '"' :: (escape text.toList ++ '"' :: rest) := by simp [quoted]
  have read := readText_escape [] text.toList rest
  rw [inner, readToken, skipSpace_cons rfl]
  refine (congrArg (Except.map fun read => (Token.text (String.ofList read.1), read.2)) read).trans ?_
  simp [Except.map]

/-- A reader gives a result for a written value, whatever may follow the value. -/
def Reader.Reads {α : Type} (reader : Reader α) (value : Value) (a : α) : Prop :=
  ∀ ⦃rest⦄, Ends rest → reader.read (value.chars ++ rest) = .ok (a, rest)

namespace Reader

variable {α β : Type} {reader : Reader α} {value : Value} {a : α}

/-- What is read with something after it is read on its own. -/
theorem Reads.readAll (reads : reader.Reads value a) : reader.readAll value.render = .ok a := by
  have whole := reads ends_nil
  rw [List.append_nil] at whole
  simp only [Reader.readAll, Value.render, String.toList_ofList, whole]
  rfl

theorem Reads.map (reads : reader.Reads value a) (f : α → β) : (reader.map f).Reads value (f a) := by
  intro rest ends
  exact congrArg (Except.map fun read => (f read.1, read.2)) (reads ends)

theorem reads_text (expected text : String) : (Reader.text expected).Reads (.text text) text := by
  intro rest _
  have token : readToken ((Value.text text).chars ++ rest) = .ok (.text text, rest) := readToken_quoted text rest
  simp only [Reader.text, ofToken, token]
  rfl

/-- An integer of 64 bits is read as the number in double precision next to it. -/
theorem reads_float {n : Int} (low : -2 ^ 63 ≤ n) (high : n < 2 ^ 64) : float.Reads (.ofInt n) (Binary64.ofInt n) := by
  intro rest ends
  have token := readToken_ofInt low high ends
  simp only [float, ofToken, token]
  rfl

end Reader

/-! ## Records -/

section

variable {draft α : Type}

/-- The entries of an object fill a draft one after the other: an entry of a known field, which the draft does not have yet, is read,
and any other entry changes nothing. -/
inductive Fills (fields : List (Field draft)) : draft → List (String × Value) → draft → Prop where
  | nil {d : draft} : Fills fields d [] d
  | known {d d' : draft} {key : String} {value : Value} {members : List (String × Value)} {field : Field draft}
    {set : draft → draft} (found : (fields.find? fun field => field.name = key) = some field) (fresh : field.isSet d = false)
    (reads : field.reader.Reads value set) (later : Fills fields (set d) members d') :
    Fills fields d ((key, value) :: members) d'
  | unknown {d d' : draft} {key : String} {value : Value} {members : List (String × Value)}
    (missing : (fields.find? fun field => field.name = key) = none) (later : Fills fields d members d') :
    Fills fields d ((key, value) :: members) d'

variable {fields : List (Field draft)} {d d' : draft} {members : List (String × Value)}

/-- A field that stores what a reader gives is filled by a value which that reader reads. -/
theorem Fills.stored {key name : String} {value : Value} {isSet : draft → Bool} {reader : Reader α} {store : α → draft → draft}
    {a : α} (found : (fields.find? fun field => field.name = key) = some ⟨name, isSet, reader.map store⟩)
    (fresh : isSet d = false) (reads : reader.Reads value a) (later : Fills fields (store a d) members d') :
    Fills fields d ((key, value) :: members) d' :=
  .known found fresh (reads.map store) later

theorem readEntries_of_closed {first : Bool} {text rest : List Char} (place : entryPlace first text = .ok (.closed rest)) :
    readEntries fields first d text = .ok (d, rest) := by
  rw [readEntries]
  split <;> simp_all

/-- A key is read with the entry after it, and then the others follow. -/
theorem readEntries_of_key {first : Bool} {key : String} {text after : List Char}
    (place : entryPlace first text = .ok (.key (escape key.toList ++ '"' :: after))) :
    readEntries fields first d text =
      (readEntry fields d key after).bind fun entry => readEntries fields false entry.1 entry.2 := by
  have read := readText_escape [] key.toList after
  rw [readEntries]
  split
  · simp_all
  · simp_all
  · next inner place' =>
    rw [place] at place'
    cases place'
    split
    · simp_all
    · next key' after' read' =>
      rw [read] at read'
      cases read'
      split <;> simp_all [Except.bind]

/-- The first key of an object follows the bracket. -/
theorem entryPlace_quoted (key : String) (after : List Char) :
    entryPlace true (quoted key ++ after) = .ok (.key (escape key.toList ++ '"' :: after)) := by
  simp [entryPlace, skipSpace_cons, isSpace, quoted]

/-- Every other key follows a comma. -/
theorem entryPlace_membersChars (key : String) (value : Value) (members : List (String × Value)) (rest : List Char) :
    entryPlace false (Value.membersChars ((key, value) :: members) ++ rest) =
      .ok (.key (escape key.toList ++ '"' :: ':' :: (value.chars ++ (Value.membersChars members ++ rest)))) := by
  rw [Value.membersChars_append]
  simp [entryPlace, skipSpace_cons, isSpace, quoted]

/-- The first of the entries that fill a draft is read or skipped, and the others fill what comes of it. -/
theorem Fills.readEntry {key : String} {value : Value} (fills : Fills fields d ((key, value) :: members) d') :
    ∃ d₁, (∀ {rest}, Ends rest → Json.readEntry fields d key (':' :: (value.chars ++ rest)) = .ok (d₁, rest)) ∧
      Fills fields d₁ members d' := by
  have colon : ∀ text, expectColon (':' :: text) = .ok text := fun _ => rfl
  cases fills with
  | @known _ _ _ _ _ field set found fresh reads later =>
    refine ⟨set d, fun {rest} ends => ?_, later⟩
    simp only [Json.readEntry, found, fresh, colon, reads ends]
    rfl
  | unknown missing later =>
    refine ⟨d, fun {rest} ends => ?_, later⟩
    simp only [Json.readEntry, missing, colon, value.skipValue_chars ends]
    rfl

/-- Entries that fill a draft are read, one by one, up to the end of the object. -/
theorem Fills.readEntries (fills : Fills fields d members d') (rest : List Char) :
    Json.readEntries fields false d (Value.membersChars members ++ rest) = .ok (d', rest) := by
  induction members generalizing d with
  | nil =>
    cases fills
    exact readEntries_of_closed rfl
  | cons member members ih =>
    obtain ⟨key, value⟩ := member
    obtain ⟨d₁, entry, later⟩ := fills.readEntry
    rw [readEntries_of_key (entryPlace_membersChars key value members rest), entry (Value.ends_membersChars members rest)]
    exact ih later

/-- An object whose entries fill a draft is read as the record of that draft. -/
theorem Shape.reads_object {shape : Shape draft α} {a : α} (fills : Fills shape.fields shape.empty members d)
    (finished : shape.finish d = .ok a) : shape.reader.Reads (.object members) a := by
  intro rest ends
  have gathered : shape.draftReader.read ((Value.object members).chars ++ rest) = .ok (d, rest) := by
    cases members with
    | nil =>
      cases fills
      exact readEntries_of_closed rfl
    | cons member members =>
      obtain ⟨key, value⟩ := member
      obtain ⟨d₁, entry, later⟩ := fills.readEntry
      rw [Value.chars_object_append]
      refine (readEntries_of_key (entryPlace_quoted key _)).trans ?_
      rw [entry (Value.ends_membersChars members rest)]
      exact later.readEntries rest
  simp only [Shape.reader, gathered, finished]
  rfl

end

end SealedLedger.Json

namespace SealedLedger.TransactionInfo

open Json

/-- The text that a transaction is written as is read as its report. The text may hold any characters, the hashes and the signature
any bytes, and the timestamp any number of milliseconds that 64 bits can hold, which the report shows in double precision; the
algorithm is left out. -/
theorem readAll_toJson (transaction : Transaction) :
    shape.reader.readAll transaction.toJson.render = .ok (ofTransaction transaction) := by
  have timestamp := Reader.reads_float transaction.timestamp.le_toInt
    (Int.lt_trans transaction.timestamp.toInt_lt (by decide))
  have reads := Reader.reads_text "a string"
  let filled : Partial :=
    { hash := some transaction.hash.hex, text := some transaction.text, senderHash := some transaction.senderHash.hex,
      signature := some (Text.Hex.encode transaction.signature),
      timestamp := some (Binary64.ofInt transaction.timestamp.toInt) }
  have fills : Fills shape.fields shape.empty
      [("text", .text transaction.text), ("sender_hash", transaction.senderHash.toJson),
        ("signature", .text (Text.Hex.encode transaction.signature)), ("timestamp", .ofInt transaction.timestamp.toInt),
        ("algorithm", transaction.algorithm.toJson), ("hash", transaction.hash.toJson)] filled := by
    refine .stored rfl rfl (reads transaction.text) ?_
    refine .stored rfl rfl (reads transaction.senderHash.hex) ?_
    refine .stored rfl rfl (reads (Text.Hex.encode transaction.signature)) ?_
    refine .stored rfl rfl timestamp ?_
    refine .unknown rfl ?_
    refine .stored rfl rfl (reads transaction.hash.hex) ?_
    exact .nil
  exact (Shape.reads_object fills rfl).readAll

end SealedLedger.TransactionInfo
