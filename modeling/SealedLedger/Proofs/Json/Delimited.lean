import SealedLedger.Json.Value

/-!
# The compact text of a value determines it

A value is written without blanks and without lengths, and its strings may hold anything that looks like structure. Still, two
texts that start with written values and go on with something that can follow a value are equal only if the values and what
follows them are. Numbers end where no digit, point or exponent goes on, strings at the first quote that no escape stands for, and
lists and objects at their own closing bracket. The first character tells what kind of value was written, so the values are taken
apart together, by their structure. Main statement: `Value.render_injective`.
-/

namespace SealedLedger.Json

/-! ## Where a run of characters ends -/

/-- A text does not start with a character of a class. -/
def Avoids (p : Char → Bool) (text : List Char) : Prop :=
  ∀ c ∈ text.head?, p c = false

/-- A text can follow a value: it is empty, or starts with a comma or a closing bracket. -/
def Ends (text : List Char) : Prop :=
  ∀ c ∈ text.head?, c ∈ [',', ']', '}']

theorem ends_nil : Ends [] := by
  simp [Ends]

/-- What can follow a value goes on with no number and no string. -/
theorem Ends.avoids {text : List Char} (ends : Ends text) {p : Char → Bool} (comma : p ',' = false)
    (bracket : p ']' = false) (brace : p '}' = false) : Avoids p text := by
  intro c hc
  have closes := ends c hc
  simp only [List.mem_cons, List.not_mem_nil, or_false] at closes
  obtain rfl | rfl | rfl := closes
  · exact comma
  · exact bracket
  · exact brace

/-- A text that avoids two classes avoids the first one. -/
theorem Avoids.of_or {p q : Char → Bool} {text : List Char} (avoids : Avoids (fun c => p c || q c) text) : Avoids p text :=
  fun c hc => (Bool.or_eq_false_iff.1 (avoids c hc)).1

theorem takeWhile_append_of_avoids {p : Char → Bool} {run rest : List Char} (all : ∀ c ∈ run, p c = true)
    (stop : Avoids p rest) : (run ++ rest).takeWhile p = run := by
  have none : rest.takeWhile p = [] := by
    cases rest with
    | nil => rfl
    | cons c rest => simp [stop c rfl]
  rw [List.takeWhile_append_of_pos all, none, List.append_nil]

/-- Runs of a class are told apart from what follows, where that starts outside the class. -/
theorem run_append_inj {p : Char → Bool} {run run' rest rest' : List Char} (all : ∀ c ∈ run, p c = true)
    (all' : ∀ c ∈ run', p c = true) (stop : Avoids p rest) (stop' : Avoids p rest') (h : run ++ rest = run' ++ rest') :
    run = run' ∧ rest = rest' := by
  have same : run = run' := by
    rw [← takeWhile_append_of_avoids all stop, h, takeWhile_append_of_avoids all' stop']
  subst same
  exact ⟨rfl, List.append_cancel_left h⟩

/-! ## Numbers -/

theorem isDigit_toDigits (n : Nat) : ∀ c ∈ Nat.toDigits 10 n, c.isDigit = true :=
  fun _ hc => Nat.isDigit_of_mem_toDigits (by decide) (by decide) hc

/-- Decimal digits determine the number and where they end. -/
theorem toDigits_append_inj {n n' : Nat} {rest rest' : List Char} (stop : Avoids Char.isDigit rest)
    (stop' : Avoids Char.isDigit rest') (h : Nat.toDigits 10 n ++ rest = Nat.toDigits 10 n' ++ rest') : n = n' ∧ rest = rest' := by
  obtain ⟨digits, rest_eq⟩ := run_append_inj (isDigit_toDigits n) (isDigit_toDigits n') stop stop' h
  have numbers := congrArg (Nat.ofDigitChars 10 · 0) digits
  simp only [Nat.ofDigitChars_ten_toDigits] at numbers
  exact ⟨numbers, rest_eq⟩

/-- The digits of a number start with a digit. -/
theorem exists_toDigits_eq_cons (n : Nat) : ∃ c cs, Nat.toDigits 10 n = c :: cs ∧ c.isDigit = true := by
  obtain ⟨c, cs, h⟩ := List.exists_cons_of_ne_nil (Nat.toDigits_ne_nil (n := n) (b := 10))
  exact ⟨c, cs, h, isDigit_toDigits n c (h ▸ List.mem_cons_self)⟩

namespace Numeral

/-- The sign of a number. -/
def signChars (negative : Bool) : List Char :=
  if negative then ['-'] else []

/-- The digits after the point, with the point. -/
def fractionChars (fraction : List (Fin 10)) : List Char :=
  if fraction.isEmpty then [] else '.' :: fraction.map fun d => Nat.digitChar d.val

/-- The exponent, with its letter. -/
def exponentChars : Option Int → List Char
  | none => []
  | some e => 'e' :: (signChars (e < 0) ++ Nat.toDigits 10 e.natAbs)

theorem chars_eq (n : Numeral) :
    n.chars = signChars n.negative ++ (Nat.toDigits 10 n.whole ++ (fractionChars n.fraction ++ exponentChars n.exponent)) := by
  rcases n with ⟨negative, whole, fraction, exponent⟩
  cases exponent <;> simp [chars, signChars, fractionChars, exponentChars, List.append_assoc]

/-- A sign is told apart from the digits after it. -/
theorem signChars_append_inj {negative negative' : Bool} {n n' : Nat} {rest rest' : List Char}
    (h : signChars negative ++ (Nat.toDigits 10 n ++ rest) = signChars negative' ++ (Nat.toDigits 10 n' ++ rest')) :
    negative = negative' ∧ Nat.toDigits 10 n ++ rest = Nat.toDigits 10 n' ++ rest' := by
  obtain ⟨c, cs, hc, digit⟩ := exists_toDigits_eq_cons n
  obtain ⟨c', cs', hc', digit'⟩ := exists_toDigits_eq_cons n'
  have sign : ('-' : Char).isDigit = false := rfl
  cases negative <;> cases negative' <;> simp only [signChars] at h
  · exact ⟨rfl, h⟩
  · rw [hc] at h
    obtain ⟨rfl, -⟩ := List.cons.inj h
    rw [sign] at digit
    cases digit
  · rw [hc'] at h
    obtain ⟨rfl, -⟩ := List.cons.inj h
    rw [sign] at digit'
    cases digit'
  · exact ⟨rfl, (List.cons.inj h).2⟩

/-- Digits of numbers below ten are told apart. -/
theorem eq_of_digitChar_eq : ∀ d d' : Fin 10, Nat.digitChar d.val = Nat.digitChar d'.val → d = d' := by
  decide

theorem isDigit_fraction (fraction : List (Fin 10)) : ∀ c ∈ fraction.map fun d => Nat.digitChar d.val, c.isDigit = true := by
  intro c hc
  obtain ⟨d, -, rfl⟩ := List.mem_map.1 hc
  exact Nat.isDigit_digitChar.trans (decide_eq_true d.isLt)

/-- The digits after the point are told apart from what follows, where that is no digit and no point. -/
theorem fractionChars_append_inj {fraction fraction' : List (Fin 10)} {rest rest' : List Char}
    (stop₁ : Avoids (fun c => c.isDigit || c = '.') rest) (stop₂ : Avoids (fun c => c.isDigit || c = '.') rest')
    (h : fractionChars fraction ++ rest = fractionChars fraction' ++ rest') : fraction = fraction' ∧ rest = rest' := by
  match fraction, fraction' with
  | [], [] => exact ⟨rfl, h⟩
  | [], _ :: _ =>
    obtain rfl : rest = _ := h
    exact absurd (stop₁ '.' rfl) (by decide)
  | _ :: _, [] =>
    obtain rfl : _ = rest' := h
    exact absurd (stop₂ '.' rfl) (by decide)
  | d :: ds, d' :: ds' =>
    obtain ⟨same, rest_eq⟩ := run_append_inj (isDigit_fraction (d :: ds)) (isDigit_fraction (d' :: ds')) stop₁.of_or stop₂.of_or
      (List.cons.inj h).2
    exact ⟨(List.map_inj_right eq_of_digitChar_eq).1 same, rest_eq⟩

/-- An exponent is told apart from what follows, where that is no digit and no letter of an exponent. -/
theorem exponentChars_append_inj {exponent exponent' : Option Int} {rest rest' : List Char}
    (stop₁ : Avoids (fun c => c.isDigit || c = 'e') rest) (stop₂ : Avoids (fun c => c.isDigit || c = 'e') rest')
    (h : exponentChars exponent ++ rest = exponentChars exponent' ++ rest') : exponent = exponent' ∧ rest = rest' := by
  match exponent, exponent' with
  | none, none => exact ⟨rfl, h⟩
  | none, some _ =>
    obtain rfl : rest = _ := h
    exact absurd (stop₁ 'e' rfl) (by decide)
  | some _, none =>
    obtain rfl : _ = rest' := h
    exact absurd (stop₂ 'e' rfl) (by decide)
  | some e, some e' =>
    simp only [exponentChars, List.cons_append, List.append_assoc, List.cons.injEq, true_and] at h
    obtain ⟨sign, h⟩ := signChars_append_inj h
    obtain ⟨size, rest_eq⟩ := toDigits_append_inj stop₁.of_or stop₂.of_or h
    have sign := decide_eq_decide.1 sign
    exact ⟨congrArg some (by omega), rest_eq⟩

/-- What follows a number's digits starts with a point, if there is a fraction. -/
theorem avoids_fractionChars {p : Char → Bool} (fraction : List (Fin 10)) {rest : List Char} (point : p '.' = false)
    (stop : Avoids p rest) : Avoids p (fractionChars fraction ++ rest) := by
  cases fraction with
  | nil => exact stop
  | cons d ds => simp [Avoids, fractionChars, point]

/-- What follows a fraction starts with a letter, if there is an exponent. -/
theorem avoids_exponentChars {p : Char → Bool} (exponent : Option Int) {rest : List Char} (letter : p 'e' = false)
    (stop : Avoids p rest) : Avoids p (exponentChars exponent ++ rest) := by
  cases exponent with
  | none => exact stop
  | some e => simp [Avoids, exponentChars, letter]

/-- A written number is told apart from what can follow a value. -/
theorem chars_append_inj {n n' : Numeral} {rest rest' : List Char} (ends : Ends rest) (ends' : Ends rest')
    (h : n.chars ++ rest = n'.chars ++ rest') : n = n' ∧ rest = rest' := by
  have after_exponent : ∀ {text}, Ends text → Avoids (fun c => c.isDigit || c = 'e') text :=
    fun ends => ends.avoids rfl rfl rfl
  have after_fraction : ∀ {text} (exponent : Option Int), Ends text →
      Avoids (fun c => c.isDigit || c = '.') (exponentChars exponent ++ text) :=
    fun exponent ends => avoids_exponentChars exponent rfl (ends.avoids rfl rfl rfl)
  have after_whole : ∀ {text} (fraction : List (Fin 10)) (exponent : Option Int), Ends text →
      Avoids Char.isDigit (fractionChars fraction ++ (exponentChars exponent ++ text)) :=
    fun fraction exponent ends => avoids_fractionChars fraction rfl (after_fraction exponent ends).of_or
  rw [chars_eq, chars_eq] at h
  simp only [List.append_assoc] at h
  obtain ⟨negative, h⟩ := signChars_append_inj h
  obtain ⟨whole, h⟩ := toDigits_append_inj (after_whole _ _ ends) (after_whole _ _ ends') h
  obtain ⟨fraction, h⟩ := fractionChars_append_inj (after_fraction _ ends) (after_fraction _ ends') h
  obtain ⟨exponent, rest_eq⟩ := exponentChars_append_inj (after_exponent ends) (after_exponent ends') h
  cases n
  cases n'
  cases negative
  cases whole
  cases fraction
  cases exponent
  exact ⟨rfl, rest_eq⟩

end Numeral

/-! ## Strings -/

/-- A written string is told apart from whatever follows, since reading it gives both back. -/
theorem quoted_append_inj {text text' : String} {rest rest' : List Char} (h : quoted text ++ rest = quoted text' ++ rest') :
    text = text' ∧ rest = rest' := by
  have inner : escape text.toList ++ '"' :: rest = escape text'.toList ++ '"' :: rest' := by
    simpa [quoted] using h
  have read := readText_escape [] text.toList rest
  rw [inner, readText_escape, Except.ok.injEq, Prod.mk.injEq] at read
  exact ⟨(String.toList_injective read.1).symm, read.2.symm⟩

/-! ## Values -/

namespace Value

/-- The first character of a written value, where `0` stands for the sign and the digits of a number. -/
def lead : Value → Char
  | null => 'n'
  | boolean true => 't'
  | boolean false => 'f'
  | number _ => '0'
  | text _ => '"'
  | list _ => '['
  | object _ => '{'

/-- The first character of a value's text, as far as it tells the kind of value. -/
def leadOf (c : Char) : Char :=
  if c = '-' ∨ c.isDigit then '0' else c

theorem exists_chars_eq_cons (value : Value) : ∃ c cs, value.chars = c :: cs ∧ leadOf c = value.lead := by
  match value with
  | null => exact ⟨_, _, rfl, by decide⟩
  | boolean true => exact ⟨_, _, rfl, by decide⟩
  | boolean false => exact ⟨_, _, rfl, by decide⟩
  | number n =>
    obtain ⟨c, cs, hc, digit⟩ := exists_toDigits_eq_cons n.whole
    rw [chars, Numeral.chars_eq, hc]
    cases n.negative with
    | true => exact ⟨'-', _, rfl, rfl⟩
    | false => exact ⟨c, _, rfl, if_pos (Or.inr digit)⟩
  | text s => exact ⟨'"', _, by rw [chars]; rfl, rfl⟩
  | list [] => exact ⟨'[', _, by rw [chars], rfl⟩
  | list (item :: items) => exact ⟨'[', _, by rw [chars]; rfl, rfl⟩
  | object [] => exact ⟨'{', _, by rw [chars], rfl⟩
  | object ((key, value) :: members) => exact ⟨'{', _, by rw [chars]; rfl, rfl⟩

/-- Values whose texts start alike are of one kind. -/
theorem lead_eq {value value' : Value} {rest rest' : List Char} (h : value.chars ++ rest = value'.chars ++ rest') :
    value.lead = value'.lead := by
  obtain ⟨c, cs, hc, lead⟩ := value.exists_chars_eq_cons
  obtain ⟨c', cs', hc', lead'⟩ := value'.exists_chars_eq_cons
  rw [hc, hc'] at h
  rw [← lead, ← lead', (List.cons.inj h).1]

/-- No value is written as a text that starts with a closing bracket. -/
theorem chars_append_ne (value : Value) (rest text : List Char) : value.chars ++ rest ≠ ']' :: text := by
  intro h
  obtain ⟨c, cs, hc, lead⟩ := value.exists_chars_eq_cons
  rw [hc] at h
  obtain ⟨rfl, -⟩ := List.cons.inj h
  have bracket : leadOf ']' = ']' := rfl
  rw [bracket] at lead
  match value with
  | .null | .boolean true | .boolean false | .number _ | .text _ | .list _ | .object _ => simp [Value.lead] at lead

theorem chars_list_append (item : Value) (items : List Value) (rest : List Char) :
    (list (item :: items)).chars ++ rest = '[' :: (item.chars ++ (itemsChars items ++ rest)) := by
  simp [chars, List.append_assoc]

theorem itemsChars_append (item : Value) (items : List Value) (rest : List Char) :
    itemsChars (item :: items) ++ rest = ',' :: (item.chars ++ (itemsChars items ++ rest)) := by
  simp [itemsChars, List.append_assoc]

theorem chars_object_append (key : String) (value : Value) (members : List (String × Value)) (rest : List Char) :
    (object ((key, value) :: members)).chars ++ rest =
      '{' :: (quoted key ++ ':' :: (value.chars ++ (membersChars members ++ rest))) := by
  simp [chars, List.append_assoc]

theorem membersChars_append (key : String) (value : Value) (members : List (String × Value)) (rest : List Char) :
    membersChars ((key, value) :: members) ++ rest =
      ',' :: (quoted key ++ ':' :: (value.chars ++ (membersChars members ++ rest))) := by
  simp [membersChars, List.append_assoc]

/-- What follows an item of a list can follow a value. -/
theorem ends_itemsChars (items : List Value) (rest : List Char) : Ends (itemsChars items ++ rest) := by
  cases items <;> simp [Ends, itemsChars]

/-- What follows an entry of an object can follow a value. -/
theorem ends_membersChars (members : List (String × Value)) (rest : List Char) : Ends (membersChars members ++ rest) := by
  match members with
  | [] => simp [Ends, membersChars]
  | (key, value) :: members => simp [Ends, membersChars]

mutual

/-- A written value is told apart from what can follow it. -/
theorem chars_append_inj (value value' : Value) {rest rest' : List Char} (ends : Ends rest) (ends' : Ends rest')
    (h : value.chars ++ rest = value'.chars ++ rest') : value = value' ∧ rest = rest' := by
  -- values of different kinds differ in their first character already
  have lead := lead_eq h
  match value, value' with
  | null, null => exact ⟨rfl, List.append_cancel_left h⟩
  | boolean true, boolean true => exact ⟨rfl, List.append_cancel_left h⟩
  | boolean false, boolean false => exact ⟨rfl, List.append_cancel_left h⟩
  | number n, number n' =>
    simp only [chars] at h
    obtain ⟨same, after⟩ := Numeral.chars_append_inj ends ends' h
    exact ⟨congrArg number same, after⟩
  | text s, text s' =>
    simp only [chars] at h
    obtain ⟨same, after⟩ := quoted_append_inj h
    exact ⟨congrArg text same, after⟩
  | list [], list [] => exact ⟨rfl, List.append_cancel_left h⟩
  | list [], list (item' :: items') =>
    rw [chars_list_append] at h
    exact absurd (List.cons.inj h).2.symm (chars_append_ne item' _ _)
  | list (item :: items), list [] =>
    rw [chars_list_append] at h
    exact absurd (List.cons.inj h).2 (chars_append_ne item _ _)
  | list (item :: items), list (item' :: items') =>
    -- after the bracket the items stand as they would after a comma
    rw [chars_list_append, chars_list_append] at h
    have h : itemsChars (item :: items) ++ rest = itemsChars (item' :: items') ++ rest' := by
      rw [itemsChars_append, itemsChars_append, (List.cons.inj h).2]
    obtain ⟨same, after⟩ := itemsChars_append_inj (item :: items) (item' :: items') h
    exact ⟨congrArg list same, after⟩
  | object [], object [] => exact ⟨rfl, List.append_cancel_left h⟩
  | object [], object ((key', value') :: members') => simp [chars, quoted] at h
  | object ((key, value) :: members), object [] => simp [chars, quoted] at h
  | object ((key, value) :: members), object ((key', value') :: members') =>
    rw [chars_object_append, chars_object_append] at h
    have h : membersChars ((key, value) :: members) ++ rest = membersChars ((key', value') :: members') ++ rest' := by
      rw [membersChars_append, membersChars_append, (List.cons.inj h).2]
    obtain ⟨same, after⟩ := membersChars_append_inj ((key, value) :: members) ((key', value') :: members') h
    exact ⟨congrArg object same, after⟩

theorem itemsChars_append_inj (items items' : List Value) {rest rest' : List Char}
    (h : itemsChars items ++ rest = itemsChars items' ++ rest') : items = items' ∧ rest = rest' := by
  match items, items' with
  | [], [] => exact ⟨rfl, List.append_cancel_left h⟩
  | [], _ :: _ => simp [itemsChars] at h
  | _ :: _, [] => simp [itemsChars] at h
  | item :: items, item' :: items' =>
    rw [itemsChars_append, itemsChars_append] at h
    obtain ⟨same, after⟩ := chars_append_inj item item' (ends_itemsChars items rest) (ends_itemsChars items' rest')
      (List.cons.inj h).2
    obtain ⟨others, after⟩ := itemsChars_append_inj items items' after
    exact ⟨List.cons_eq_cons.2 ⟨same, others⟩, after⟩

theorem membersChars_append_inj (members members' : List (String × Value)) {rest rest' : List Char}
    (h : membersChars members ++ rest = membersChars members' ++ rest') : members = members' ∧ rest = rest' := by
  match members, members' with
  | [], [] => exact ⟨rfl, List.append_cancel_left h⟩
  | [], (_, _) :: _ => simp [membersChars] at h
  | (_, _) :: _, [] => simp [membersChars] at h
  | (key, value) :: members, (key', value') :: members' =>
    rw [membersChars_append, membersChars_append] at h
    obtain ⟨same_key, after⟩ := quoted_append_inj (List.cons.inj h).2
    obtain ⟨same, after⟩ := chars_append_inj value value' (ends_membersChars members rest) (ends_membersChars members' rest')
      (List.cons.inj after).2
    obtain ⟨others, after⟩ := membersChars_append_inj members members' after
    exact ⟨List.cons_eq_cons.2 ⟨Prod.ext same_key same, others⟩, after⟩

end

/-- The compact text of a value determines it. -/
theorem render_injective : Function.Injective render := by
  intro value value' h
  have chars : value.chars = value'.chars := String.ofList_injective h
  exact (chars_append_inj value value' ends_nil ends_nil (by rw [chars])).1

end Value

end SealedLedger.Json
