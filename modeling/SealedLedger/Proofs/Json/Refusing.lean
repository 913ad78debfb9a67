import SealedLedger.Proofs.Json.Reading

/-!
# What is refused is refused whatever follows

What a written number stands for, or why it cannot be taken, does not depend on what follows it, though its digits are taken in
portions and what is left of them is looked at character by character (`Numeral.readsNumber`). So a reader of strings refuses every
written value but strings, always with the same error (`Reader.exists_text_refuses`). A record refuses an object at the first entry
that repeats a field or that the reader of its field refuses (`Stops`), and none of the entries before it, of which there may be
any number, shows in the error. Main statement: `Shape.refuses_object`.
-/

namespace SealedLedger.Json

/-! ## Numbers -/

/-- What is read off a written text is a number or an error, the same whatever may follow the text. -/
def ReadsNumber (read : List Char → Except Error (Token × List Char)) (written : List Char) : Prop :=
  ∃ outcome : Except Error Token, (∀ s, outcome ≠ .ok (.text s)) ∧
    ∀ ⦃rest⦄, Ends rest → read (written ++ rest) = outcome.map (·, rest)

/-- A number that another way of reading finds in another text is read from there. -/
theorem ReadsNumber.of_eq {read read' : List Char → Except Error (Token × List Char)} {written written' : List Char}
    (reads : ReadsNumber read written) (same : ∀ ⦃rest⦄, Ends rest → read' (written' ++ rest) = read (written ++ rest)) :
    ReadsNumber read' written' := by
  obtain ⟨outcome, number, reads⟩ := reads
  exact ⟨outcome, number, fun rest ends => (same ends).trans (reads ends)⟩

theorem integerToken_ne_text (negative : Bool) (n : Nat) (s : String) : integerToken negative n ≠ .text s := by
  unfold integerToken
  split
  · simp
  · split <;> simp

theorem floatToken_ne_text (negative : Bool) (n : Nat) (power : Int) (s : String) : floatToken negative n power ≠ .ok (.text s) := by
  unfold floatToken
  cases scaleByTen (Binary64.ofInt n) power with
  | error e => simp [bind, Except.bind]
  | ok x => simp [bind, Except.bind, pure, Except.pure]

/-- Which digits are gathered, and which are left, does not depend on what follows the digits. -/
theorem exists_gather_append {digits : List Char} (all : ∀ c ∈ digits, c.isDigit = true) (n taken : Nat) :
    ∃ m count left, (∀ c ∈ left, c.isDigit = true) ∧
      ∀ ⦃rest⦄, Avoids Char.isDigit rest → gather n taken (digits ++ rest) = (m, count, left ++ rest) := by
  induction digits generalizing n taken with
  | nil => exact ⟨n, taken, [], by simp, fun rest stop => gather_of_avoids n taken stop⟩
  | cons c digits ih =>
    have digit := all c (.head _)
    by_cases room : 10 * n + digitValue c < 2 ^ 64
    · obtain ⟨m, count, left, digits_left, gathered⟩ := ih (fun d h => all d (.tail _ h)) (10 * n + digitValue c) (taken + 1)
      refine ⟨m, count, left, digits_left, fun rest stop => ?_⟩
      rw [List.cons_append, gather, if_pos ⟨digit, room⟩]
      exact gathered stop
    · refine ⟨n, taken, c :: digits, all, fun rest _ => ?_⟩
      rw [List.cons_append, gather, if_neg fun h => room h.2]

/-- Without an exponent, the digits are all there is of a number. -/
theorem finishFloat_of_avoids (negative : Bool) (n : Nat) (power : Int) {rest : List Char}
    (plain : Avoids (fun c => c = 'e' || c = 'E') rest) :
    finishFloat negative n power rest = (floatToken negative n power).map (·, rest) := by
  cases rest with
  | nil => cases token : floatToken negative n power <;> simp [finishFloat, token, bind, Except.bind, pure, Except.pure, Except.map]
  | cons c rest =>
    have letter : ¬(c = 'e' ∨ c = 'E') := by simpa using plain c rfl
    rw [finishFloat, if_neg letter]
    cases floatToken negative n power <;> rfl

/-- Digits that were not gathered and an exponent both lead to a number in double precision. -/
theorem finishNumber_of_avoids (negative : Bool) (n : Nat) {dropped : Nat} {text : List Char}
    (point : Avoids (fun c => c = '.') text) (float : dropped ≠ 0 ∨ text.head? = some 'e') :
    finishNumber negative n dropped text = finishFloat negative n dropped text := by
  cases text with
  | nil =>
    have some_dropped : dropped ≠ 0 := by simpa using float
    rw [finishNumber, if_neg some_dropped]
  | cons c rest =>
    have no_point : c ≠ '.' := of_decide_eq_false (point c rfl)
    have float : c = 'e' ∨ c = 'E' ∨ dropped ≠ 0 := by
      obtain some_dropped | letter := float
      · exact .inr (.inr some_dropped)
      · exact .inl (Option.some.inj letter)
    rw [finishNumber, if_neg no_point, if_pos float]

namespace Numeral

/-- A written exponent is read as some power of ten. -/
theorem exists_readExponent (e : Int) :
    ∃ power, ∀ ⦃rest⦄, Ends rest → readExponent (signChars (e < 0) ++ (Nat.toDigits 10 e.natAbs ++ rest)) = .ok (power, rest) := by
  let size : Int := (Nat.toDigits 10 e.natAbs).foldl (fun n c => 10 * n + digitValue c) 0
  refine ⟨if decide (e < 0) then -size else size, fun rest ends => ?_⟩
  have stop : Avoids Char.isDigit rest := ends.avoids rfl rfl rfl
  have starts : startsWithDigit (Nat.toDigits 10 e.natAbs ++ rest) = true := by
    obtain ⟨c, cs, start, digit⟩ := exists_toDigits_eq_cons e.natAbs
    rw [start]
    exact digit
  simp only [readExponent, exponentSign_signChars, starts, if_true, dropWhile_append_of_avoids (isDigit_toDigits _) stop,
    takeWhile_append_of_avoids (isDigit_toDigits _) stop]
  rfl

theorem finishFloat_readsNumber (negative : Bool) (n : Nat) (power : Int) (exponent : Option Int) :
    ReadsNumber (finishFloat negative n power) (exponentChars exponent) := by
  cases exponent with
  | none =>
    refine ⟨floatToken negative n power, floatToken_ne_text negative n power, fun rest ends => ?_⟩
    exact finishFloat_of_avoids negative n power (ends.avoids rfl rfl rfl)
  | some e =>
    obtain ⟨shift, read⟩ := exists_readExponent e
    refine ⟨floatToken negative n (power + shift), floatToken_ne_text negative n (power + shift), fun rest ends => ?_⟩
    rw [exponentChars, List.cons_append, List.append_assoc, finishFloat, if_pos (Or.inl rfl), read ends]
    cases token : floatToken negative n (power + shift) <;> simp [token, bind, Except.bind, pure, Except.pure, Except.map]

/-- What follows the whole part of a written number is read in the same way, whether it is a fraction, an exponent, both or none. -/
theorem finishNumber_readsNumber (negative : Bool) (n dropped : Nat) (fraction : List (Fin 10)) (exponent : Option Int) :
    ReadsNumber (finishNumber negative n dropped) (fractionChars fraction ++ exponentChars exponent) := by
  cases fraction with
  | nil =>
    by_cases whole : exponent = none ∧ dropped = 0
    · obtain ⟨rfl, rfl⟩ := whole
      refine ⟨.ok (integerToken negative n), fun s h => integerToken_ne_text negative n s (Except.ok.inj h), fun rest ends => ?_⟩
      exact finishNumber_of_ends negative n ends
    · refine (finishFloat_readsNumber negative n dropped exponent).of_eq fun rest ends => ?_
      rw [fractionChars, List.isEmpty_nil, if_pos rfl, List.nil_append]
      refine finishNumber_of_avoids negative n (avoids_exponentChars exponent rfl (ends.avoids rfl rfl rfl)) ?_
      cases exponent with
      | none => exact .inl fun all => whole ⟨rfl, all⟩
      | some e => exact .inr rfl
  | cons d ds =>
    have all := isDigit_fraction (d :: ds)
    obtain ⟨m, taken, left, digits_left, gathered⟩ := exists_gather_append all n 0
    refine (finishFloat_readsNumber negative m ((dropped : Int) - taken) exponent).of_eq fun rest ends => ?_
    have stop : Avoids Char.isDigit (exponentChars exponent ++ rest) := avoids_exponentChars exponent rfl (ends.avoids rfl rfl rfl)
    have starts : startsWithDigit ((d :: ds).map (fun d => Nat.digitChar d.val) ++ (exponentChars exponent ++ rest)) = true :=
      all _ (.head _)
    rw [fractionChars, List.isEmpty_cons, if_neg Bool.false_ne_true, List.append_assoc, List.cons_append, finishNumber, if_pos rfl,
      gathered stop]
    simp only [starts, if_true, dropWhile_append_of_avoids digits_left stop]

theorem readNumber_readsNumber (negative : Bool) (whole : Nat) (fraction : List (Fin 10)) (exponent : Option Int) :
    ReadsNumber (readNumber negative) (Nat.toDigits 10 whole ++ (fractionChars fraction ++ exponentChars exponent)) := by
  have stop : ∀ {rest}, Ends rest → Avoids Char.isDigit (fractionChars fraction ++ exponentChars exponent ++ rest) := by
    intro rest ends
    rw [List.append_assoc]
    exact avoids_fractionChars fraction rfl (avoids_exponentChars exponent rfl (ends.avoids rfl rfl rfl))
  obtain ⟨c, cs, start, digit⟩ := exists_toDigits_eq_cons whole
  have all := isDigit_toDigits whole
  rw [start] at all ⊢
  by_cases zero : c = '0'
  · subst zero
    obtain ⟨rfl, rfl⟩ := eq_zero_of_toDigits start
    refine (finishNumber_readsNumber negative 0 0 fraction exponent).of_eq fun rest ends => ?_
    rw [List.cons_append, List.nil_append, List.cons_append, readNumber, if_pos rfl, startsWithDigit_eq_false (stop ends),
      if_neg Bool.false_ne_true]
  · obtain ⟨n, taken, left, digits_left, gathered⟩ := exists_gather_append (fun d h => all d (.tail _ h)) (digitValue c) 0
    refine (finishNumber_readsNumber negative n left.length fraction exponent).of_eq fun rest ends => ?_
    rw [List.append_assoc, List.cons_append, readNumber, if_neg zero, if_pos digit, gathered (stop ends)]
    simp only [dropWhile_append_of_avoids digits_left (stop ends), takeWhile_append_of_avoids digits_left (stop ends)]

/-- A written number is read as the same number, or refused for the same reason, whatever may follow it. -/
theorem readsNumber (n : Numeral) : ReadsNumber readToken n.chars := by
  refine (readNumber_readsNumber n.negative n.whole n.fraction n.exponent).of_eq fun rest _ => ?_
  rw [chars_eq, List.append_assoc, List.append_assoc, readToken_signChars, List.append_assoc]

end Numeral

/-! ## Readers -/

/-- A reader refuses a written value with this error, whatever may follow the value. -/
def Reader.Refuses {α : Type} (reader : Reader α) (value : Value) (e : Error) : Prop :=
  ∀ ⦃rest⦄, Ends rest → reader.read (value.chars ++ rest) = .error e

namespace Reader

variable {α β : Type} {reader : Reader α} {value : Value} {e : Error}

/-- What is refused with something after it is refused on its own. -/
theorem Refuses.readAll (refuses : reader.Refuses value e) : reader.readAll value.render = .error e := by
  have whole := refuses ends_nil
  rw [List.append_nil] at whole
  simp only [Reader.readAll, Value.render, String.toList_ofList, whole]

theorem Refuses.map (refuses : reader.Refuses value e) (f : α → β) : (reader.map f).Refuses value e := by
  intro rest ends
  exact congrArg (Except.map fun read => (f read.1, read.2)) (refuses ends)

/-- A string is wanted, and the token that stands there is none. -/
theorem text_refuses_of_readToken (expected : String) {token : Token} (other : ∀ s, token ≠ .text s)
    {text rest : List Char} (read : readToken text = .ok (token, rest)) :
    (Reader.text expected).read text = .error (.wrongType token expected) := by
  simp only [Reader.text, ofToken, read]
  cases token with
  | text s => exact absurd rfl (other s)
  | null | boolean b | integer n | float x | openList | openObject => rfl

/-- Every written value but a string is refused where a string is wanted: for its type, or since it is a number that double
precision cannot hold. -/
theorem exists_text_refuses (expected : String) {value : Value} (other : ∀ s, value ≠ .text s) :
    ∃ e, (Reader.text expected).Refuses value e := by
  cases value with
  | null => exact ⟨.wrongType .null expected, fun rest _ => rfl⟩
  | boolean b =>
    refine ⟨.wrongType (.boolean b) expected, fun rest _ => ?_⟩
    cases b <;> rfl
  | number n =>
    obtain ⟨outcome, number, reads⟩ := n.readsNumber
    have read : ∀ {rest}, Ends rest → readToken ((Value.number n).chars ++ rest) = outcome.map (·, rest) := by
      intro rest ends
      rw [Value.chars]
      exact reads ends
    cases outcome with
    | error e =>
      refine ⟨e, fun rest ends => ?_⟩
      simp only [Reader.text, ofToken, read ends]
      rfl
    | ok token =>
      refine ⟨.wrongType token expected, fun rest ends => ?_⟩
      exact text_refuses_of_readToken expected (fun s same => number s (congrArg Except.ok same)) (read ends)
  | text s => exact absurd rfl (other s)
  | list items =>
    refine ⟨.wrongType .openList expected, fun rest _ => ?_⟩
    cases items <;> rfl
  | object members =>
    refine ⟨.wrongType .openObject expected, fun rest _ => ?_⟩
    cases members <;> rfl

end Reader

/-! ## Records -/

section

variable {draft α : Type} {fields : List (Field draft)} {d d' : draft} {front members : List (String × Value)} {e : Error}

/-- Entries that fill a draft one part after the other fill it as a whole. -/
theorem Fills.append {d₁ : draft} (fills : Fills fields d front d₁) (later : Fills fields d₁ members d') :
    Fills fields d (front ++ members) d' := by
  induction fills with
  | nil => exact later
  | known found fresh reads _ ih => exact .known found fresh reads (ih later)
  | unknown missing _ ih => exact .unknown missing (ih later)

/-- The entries of an object cannot fill a draft: after entries that can, one gives a field again, or a value that the reader of
its field refuses. -/
inductive Stops (fields : List (Field draft)) : draft → List (String × Value) → Error → Prop where
  | repeated {d : draft} {key : String} {value : Value} {members : List (String × Value)} {field : Field draft}
    (found : (fields.find? fun field => field.name = key) = some field) (set : field.isSet d = true) :
    Stops fields d ((key, value) :: members) (.duplicateField field.name)
  | refused {d : draft} {key : String} {value : Value} {members : List (String × Value)} {field : Field draft} {e : Error}
    (found : (fields.find? fun field => field.name = key) = some field) (fresh : field.isSet d = false)
    (refuses : field.reader.Refuses value e) :
    Stops fields d ((key, value) :: members) e
  | later {d d₁ : draft} {member : String × Value} {members : List (String × Value)} {e : Error}
    (fills : Fills fields d [member] d₁) (stops : Stops fields d₁ members e) :
    Stops fields d (member :: members) e

/-- Entries that fill a draft may come before those that it stops at. -/
theorem Stops.append (fills : Fills fields d front d') (stops : Stops fields d' members e) :
    Stops fields d (front ++ members) e := by
  induction fills with
  | nil => exact stops
  | known found fresh reads _ ih => exact .later (.known found fresh reads .nil) (ih stops)
  | unknown missing _ ih => exact .later (.unknown missing .nil) (ih stops)

/-- The first of the entries that a draft stops at is refused, or is read or skipped, and the draft after it stops at a later one. -/
theorem Stops.readEntry {key : String} {value : Value} (stops : Stops fields d ((key, value) :: members) e) :
    (∀ {rest}, Ends rest → Json.readEntry fields d key (':' :: (value.chars ++ rest)) = .error e) ∨
      ∃ d₁, (∀ {rest}, Ends rest → Json.readEntry fields d key (':' :: (value.chars ++ rest)) = .ok (d₁, rest)) ∧
        Stops fields d₁ members e := by
  have colon : ∀ text, expectColon (':' :: text) = .ok text := fun _ => rfl
  cases stops with
  | repeated found set =>
    refine .inl fun {rest} _ => ?_
    simp only [Json.readEntry, found, set, if_true]
  | refused found fresh refuses =>
    refine .inl fun {rest} ends => ?_
    simp only [Json.readEntry, found, fresh, colon, refuses ends]
    rfl
  | later fills stops =>
    obtain ⟨_, entry, filled⟩ := fills.readEntry
    cases filled
    exact .inr ⟨_, entry, stops⟩

/-- Entries that a draft stops at are read up to the one at which it does, from the place of the first one on. -/
theorem Stops.readEntries {key : String} {value : Value} (stops : Stops fields d ((key, value) :: members) e) {first : Bool}
    {text rest : List Char}
    (place : entryPlace first text =
      .ok (.key (escape key.toList ++ '"' :: ':' :: (value.chars ++ (Value.membersChars members ++ rest))))) :
    Json.readEntries fields first d text = .error e := by
  induction members generalizing d key value first text with
  | nil =>
    obtain refused | ⟨d₁, -, later⟩ := stops.readEntry
    · rw [readEntries_of_key place, refused (Value.ends_membersChars [] rest)]
      rfl
    · cases later
  | cons member members ih =>
    obtain refused | ⟨d₁, entry, later⟩ := stops.readEntry
    · rw [readEntries_of_key place, refused (Value.ends_membersChars (member :: members) rest)]
      rfl
    · rw [readEntries_of_key place, entry (Value.ends_membersChars (member :: members) rest)]
      exact ih later (entryPlace_membersChars member.1 member.2 members rest)

/-- A record refuses an object whose entries stop its draft, with the error of the entry at which they do. -/
theorem Shape.refuses_object {shape : Shape draft α} (stops : Stops shape.fields shape.empty members e) :
    shape.reader.Refuses (.object members) e := by
  intro rest _
  have gathered : shape.draftReader.read ((Value.object members).chars ++ rest) = .error e := by
    cases members with
    | nil => cases stops
    | cons member members =>
      rw [Value.chars_object_append]
      exact stops.readEntries (entryPlace_quoted member.1 _)
  simp only [Shape.reader, gathered]

end

end SealedLedger.Json
