import SealedLedger.Json.Skip
import SealedLedger.Proofs.Json.Delimited

/-!
# Written values are skipped whole

What nobody asked for is skipped: a number as far as its form goes, a string up to its closing quote, and what is in brackets item by
item, with the open brackets on a stack. A value as it is written is skipped up to its end, whatever is in it and however deep, by
recursion over the value (`Value.skipFrom_chars`). Main statement: `Value.skipValue_chars`.
-/

namespace SealedLedger.Json

theorem dropWhile_append_of_avoids {p : Char → Bool} {run rest : List Char} (all : ∀ c ∈ run, p c = true)
    (stop : Avoids p rest) : (run ++ rest).dropWhile p = rest := by
  rw [List.dropWhile_append_of_pos all]
  cases rest with
  | nil => rfl
  | cons c rest => rw [List.dropWhile_cons_of_neg (by rw [stop c rfl]; exact Bool.false_ne_true)]

theorem skipSpace_cons {c : Char} (visible : isSpace c = false) (rest : List Char) : skipSpace (c :: rest) = c :: rest :=
  List.dropWhile_cons_of_neg (by rw [visible]; exact Bool.false_ne_true)

/-- A digit is no character that is none. -/
theorem ne_of_isDigit {c d : Char} (digit : c.isDigit = true) (other : d.isDigit = false) : c ≠ d := by
  rintro rfl
  rw [digit] at other
  cases other

theorem isSpace_of_isDigit {c : Char} (digit : c.isDigit = true) : isSpace c = false := by
  simp [isSpace, ne_of_isDigit digit]

/-! ## Numbers -/

/-- Only zero is written with a leading zero, and as that digit alone. -/
theorem eq_zero_of_toDigits {n : Nat} {cs : List Char} (h : Nat.toDigits 10 n = '0' :: cs) : n = 0 ∧ cs = [] := by
  induction n using Nat.strongRecOn generalizing cs with
  | ind n ih =>
    by_cases small : n < 10
    · have digits : ∀ n < 10, Nat.digitChar n = '0' → n = 0 := by decide
      rw [Nat.toDigits_of_lt_base small] at h
      obtain ⟨zero, rfl⟩ := List.cons.inj h
      exact ⟨digits n small zero, rfl⟩
    · rw [Nat.toDigits_of_base_le (by decide) (Nat.le_of_not_lt small)] at h
      obtain ⟨c, front, start, -⟩ := exists_toDigits_eq_cons (n / 10)
      rw [start] at h
      obtain ⟨rfl, -⟩ := List.cons.inj h
      have less := (ih (n / 10) (by omega) start).1
      omega

theorem startsWithDigit_eq_false {rest : List Char} (stop : Avoids Char.isDigit rest) : startsWithDigit rest = false := by
  cases rest with
  | nil => rfl
  | cons c rest => exact stop c rfl

/-- Digits are skipped up to what follows them. -/
theorem skipDigits_append {run rest : List Char} (some : run ≠ []) (all : ∀ c ∈ run, c.isDigit = true)
    (stop : Avoids Char.isDigit rest) : skipDigits (run ++ rest) = .ok rest := by
  obtain ⟨c, cs, rfl⟩ := List.exists_cons_of_ne_nil some
  have starts : startsWithDigit (c :: cs ++ rest) = true := all c (.head _)
  rw [skipDigits, if_pos starts, dropWhile_append_of_avoids all stop]

/-- The digits of a whole number are skipped up to what follows them. -/
theorem skipNumber_toDigits (n : Nat) {rest : List Char} (stop : Avoids Char.isDigit rest) :
    skipNumber (Nat.toDigits 10 n ++ rest) = skipFraction rest := by
  obtain ⟨c, cs, start, digit⟩ := exists_toDigits_eq_cons n
  have all := isDigit_toDigits n
  rw [start] at all ⊢
  by_cases zero : c = '0'
  · subst zero
    obtain ⟨-, rfl⟩ := eq_zero_of_toDigits start
    rw [List.cons_append, List.nil_append, skipNumber, if_pos rfl, startsWithDigit_eq_false stop, if_neg Bool.false_ne_true]
  · rw [List.cons_append, skipNumber, if_neg zero, if_pos digit,
      dropWhile_append_of_avoids (fun d h => all d (.tail _ h)) stop]

namespace Numeral

/-- A sign in front of an exponent's digits is taken off, if there is one. -/
theorem exponentSign_signChars (negative : Bool) (n : Nat) (rest : List Char) :
    exponentSign (signChars negative ++ (Nat.toDigits 10 n ++ rest)) = (negative, Nat.toDigits 10 n ++ rest) := by
  cases negative with
  | true => rfl
  | false =>
    obtain ⟨c, cs, start, digit⟩ := exists_toDigits_eq_cons n
    have plus := ne_of_isDigit digit (d := '+') rfl
    have minus := ne_of_isDigit digit (d := '-') rfl
    rw [start]
    simp [signChars, exponentSign, plus, minus]

theorem skipExponent_append (exponent : Option Int) {rest : List Char} (ends : Ends rest) :
    skipExponent (exponentChars exponent ++ rest) = .ok rest := by
  cases exponent with
  | none =>
    cases rest with
    | nil => rfl
    | cons c rest =>
      have plain := ends.avoids (p := fun c => c = 'e' || c = 'E') rfl rfl rfl c rfl
      have letter : ¬(c = 'e' ∨ c = 'E') := by simpa using plain
      rw [exponentChars, List.nil_append, skipExponent, if_neg letter]
  | some e =>
    have digits := skipDigits_append (Nat.toDigits_ne_nil (n := e.natAbs) (b := 10)) (isDigit_toDigits e.natAbs)
      (ends.avoids (p := Char.isDigit) rfl rfl rfl)
    rw [exponentChars, List.cons_append, List.append_assoc, skipExponent, if_pos (Or.inl rfl), exponentSign_signChars, digits]

/-- A fraction and an exponent are skipped, where they stand. -/
theorem skipFraction_append (fraction : List (Fin 10)) (exponent : Option Int) {rest : List Char} (ends : Ends rest) :
    skipFraction (fractionChars fraction ++ (exponentChars exponent ++ rest)) = .ok rest := by
  cases fraction with
  | nil =>
    have plain := avoids_exponentChars (p := fun c => c = '.') exponent rfl (ends.avoids rfl rfl rfl)
    rw [fractionChars, List.isEmpty_nil, if_pos rfl, List.nil_append, ← skipExponent_append exponent ends]
    cases text : exponentChars exponent ++ rest with
    | nil => rfl
    | cons c after =>
      have point : c ≠ '.' := of_decide_eq_false (plain c (by rw [text]; rfl))
      rw [skipFraction, if_neg point]
  | cons d ds =>
    have digits := skipDigits_append (List.cons_ne_nil _ _) (isDigit_fraction (d :: ds))
      (avoids_exponentChars (p := Char.isDigit) exponent rfl (ends.avoids rfl rfl rfl))
    rw [fractionChars, List.isEmpty_cons, if_neg Bool.false_ne_true, List.cons_append, skipFraction, if_pos rfl]
    refine (congrArg (Except.bind · skipExponent) digits).trans ?_
    exact skipExponent_append exponent ends

/-- A number as it is written is skipped whole. -/
theorem skipStart_chars (n : Numeral) {rest : List Char} (ends : Ends rest) :
    skipStart (n.chars ++ rest) = .ok (.done rest) := by
  have after : skipNumber (Nat.toDigits 10 n.whole ++ (fractionChars n.fraction ++ (exponentChars n.exponent ++ rest))) = .ok rest := by
    rw [skipNumber_toDigits n.whole (avoids_fractionChars n.fraction rfl
      (avoids_exponentChars n.exponent rfl (ends.avoids rfl rfl rfl))), skipFraction_append n.fraction n.exponent ends]
  have text : n.chars ++ rest = signChars n.negative ++
      (Nat.toDigits 10 n.whole ++ (fractionChars n.fraction ++ (exponentChars n.exponent ++ rest))) := by
    rw [chars_eq]
    simp only [List.append_assoc]
  rw [text]
  cases n.negative with
  | true => exact congrArg (Except.map SkipStart.done) after
  | false =>
    obtain ⟨c, cs, start, digit⟩ := exists_toDigits_eq_cons n.whole
    rw [start] at after ⊢
    rw [signChars, if_neg Bool.false_ne_true, List.nil_append, List.cons_append, skipStart,
      skipSpace_cons (isSpace_of_isDigit digit)]
    have number : skipStartFrom c = fun text => (skipNumber (c :: text)).map .done := by
      funext text
      simp [skipStartFrom, ne_of_isDigit digit, digit]
    exact (congrFun number _).trans (congrArg (Except.map SkipStart.done) after)

end Numeral

/-! ## Strings -/

theorem skipText_of_readEscape {text rest : List Char} {e : Escape} (h : readEscape text = .ok (e, rest)) :
    skipText ('\\' :: text) = skipText rest := by
  rw [skipText, if_neg (by decide), if_pos rfl]
  split <;> simp_all

/-- The second half of a pair of surrogates is an escape of its own. -/
theorem skipText_of_readTrailingSurrogate {text rest : List Char} {n : Nat} (h : readTrailingSurrogate text = .ok (n, rest)) :
    skipText text = skipText rest := by
  unfold readTrailingSurrogate at h
  split at h
  · cases h
  · cases h
  · next digits =>
    split at h
    · next m after unit =>
      have escape : readEscape ('u' :: digits) = .ok (.unit m, after) := by rw [readEscape, if_pos rfl, unit]
      split at h
      · cases h
        exact skipText_of_readEscape escape
      · cases h
    · cases h
  · cases h

/-- Skipping goes past a character that can be read, also where two escapes spell it, and ends at the closing quote. -/
theorem skipText_of_readChar {text rest : List Char} {read : Option Char} (h : readChar text = .ok (read, rest)) :
    skipText text = if read.isSome then skipText rest else .ok rest := by
  unfold readChar at h
  split at h
  · cases h
  · next c after =>
    split at h
    · next quote =>
      obtain ⟨rfl, rfl⟩ := Prod.mk.inj (Except.ok.inj h)
      rw [skipText, if_pos quote]
      rfl
    · next unquoted =>
      split at h
      · next backslash =>
        subst backslash
        split at h
        · cases h
        · next escape =>
          obtain ⟨rfl, rfl⟩ := Prod.mk.inj (Except.ok.inj h)
          exact skipText_of_readEscape escape
        · next escape =>
          have first := skipText_of_readEscape escape
          split at h
          · cases h
          · split at h
            · split at h
              · cases h
              · next trailing =>
                obtain ⟨rfl, rfl⟩ := Prod.mk.inj (Except.ok.inj h)
                exact first.trans (skipText_of_readTrailingSurrogate trailing)
            · obtain ⟨rfl, rfl⟩ := Prod.mk.inj (Except.ok.inj h)
              exact first
      · next plain =>
        split at h
        · cases h
        · next visible =>
          obtain ⟨rfl, rfl⟩ := Prod.mk.inj (Except.ok.inj h)
          rw [skipText, if_neg unquoted, if_neg plain, if_neg visible]
          rfl

/-- A string that can be read can be skipped, up to the same place. -/
theorem skipText_of_readText {read text cs rest : List Char} (h : readText read text = .ok (cs, rest)) :
    skipText text = .ok rest := by
  fun_induction readText read text with
  | case1 => cases h
  | case2 read text rest' hc =>
    cases h
    exact skipText_of_readChar hc
  | case3 read text c rest' hc ih => exact (skipText_of_readChar hc).trans (ih h)

/-- A key as it is written is skipped with its colon. -/
theorem skipKey_quoted (key : String) (rest : List Char) : skipKey (quoted key ++ ':' :: rest) = .ok rest := by
  have skipped := skipText_of_readText (readText_escape [] key.toList (':' :: rest))
  have inner : quoted key ++ ':' :: rest = '"' :: (escape key.toList ++ '"' :: ':' :: rest) := by simp [quoted]
  rw [inner, skipKey, skipSpace_cons rfl]
  simp only [if_true, skipped, skipSpace_cons (c := ':') rfl]

/-! ## Brackets -/

theorem skipFrom_inside {opened : List Bracket} {bracket : Bracket} {text : List Char} {next : SkipStart}
    (h : skipStart text = .ok next) : skipFrom opened (.inside bracket text) = skipFrom (bracket :: opened) next := by
  rw [skipFrom]
  split <;> simp_all

theorem skipFrom_done {opened : List Bracket} {bracket : Bracket} {text : List Char} {next : SkipStart}
    (h : skipNext bracket text = .ok next) : skipFrom (bracket :: opened) (.done text) = skipFrom opened next := by
  rw [skipFrom]
  split <;> simp_all

namespace Value

/-- A value starts with a character that is neither a blank nor the end of a list. -/
theorem exists_chars_eq_cons_visible (value : Value) :
    ∃ c cs, value.chars = c :: cs ∧ isSpace c = false ∧ c ≠ ']' := by
  obtain ⟨c, cs, chars, lead⟩ := value.exists_chars_eq_cons
  have kinds : ∀ value : Value, value.lead ∈ ['n', 't', 'f', '0', '"', '[', '{'] := by
    intro value
    match value with
    | null | boolean true | boolean false | number _ | text _ | list _ | object _ => simp [Value.lead]
  have leads := kinds value
  rw [← lead] at leads
  refine ⟨c, cs, chars, ?_, ?_⟩
  · refine Bool.eq_false_iff.2 fun space => ?_
    simp only [isSpace, Bool.or_eq_true, decide_eq_true_eq] at space
    obtain ((rfl | rfl) | rfl) | rfl := space <;> exact absurd leads (by decide)
  · rintro rfl
    exact absurd leads (by decide)

mutual

/-- Skipping a written value comes to what is after it, whatever brackets are open around it. -/
theorem skipFrom_chars (value : Value) {rest : List Char} (ends : Ends rest) (opened : List Bracket) :
    ∃ start, skipStart (value.chars ++ rest) = .ok start ∧ skipFrom opened start = skipFrom opened (.done rest) := by
  match value with
  | null => exact ⟨.done rest, rfl, rfl⟩
  | boolean true => exact ⟨.done rest, rfl, rfl⟩
  | boolean false => exact ⟨.done rest, rfl, rfl⟩
  | number n => exact ⟨.done rest, n.skipStart_chars ends, rfl⟩
  | text s =>
    have inner : quoted s ++ rest = '"' :: (escape s.toList ++ '"' :: rest) := by simp [quoted]
    have skipped := skipText_of_readText (readText_escape [] s.toList rest)
    refine ⟨.done rest, ?_, rfl⟩
    rw [chars, inner, skipStart, skipSpace_cons rfl]
    exact congrArg (Except.map SkipStart.done) skipped
  | list [] => exact ⟨.done rest, rfl, rfl⟩
  | list (item :: items) =>
    obtain ⟨c, cs, start, visible, inside⟩ := item.exists_chars_eq_cons_visible
    obtain ⟨next, started, skipped⟩ := skipFrom_chars item (ends_itemsChars items rest) (.list :: opened)
    refine ⟨.inside .list (item.chars ++ (itemsChars items ++ rest)), ?_, ?_⟩
    · have opening : skipStart ((list (item :: items)).chars ++ rest) = skipOpened .list (item.chars ++ (itemsChars items ++ rest)) := by
        rw [chars_list_append, skipStart, skipSpace_cons rfl]
        rfl
      rw [opening, start, List.cons_append]
      simp only [skipOpened, skipSpace_cons visible, inside, if_false]
    · rw [skipFrom_inside started, skipped, skipFrom_itemsChars items rest opened]
  | object [] => exact ⟨.done rest, rfl, rfl⟩
  | object ((key, value) :: members) =>
    obtain ⟨next, started, skipped⟩ := skipFrom_chars value (ends_membersChars members rest) (.object :: opened)
    have entry := skipKey_quoted key (value.chars ++ (membersChars members ++ rest))
    refine ⟨.inside .object (value.chars ++ (membersChars members ++ rest)), ?_, ?_⟩
    · rw [chars_object_append, skipStart, skipSpace_cons rfl]
      exact congrArg (Except.map (SkipStart.inside .object)) entry
    · rw [skipFrom_inside started, skipped, skipFrom_membersChars members rest opened]

/-- The items of a list are skipped with the bracket that closes it. -/
theorem skipFrom_itemsChars (items : List Value) (rest : List Char) (opened : List Bracket) :
    skipFrom (.list :: opened) (.done (itemsChars items ++ rest)) = skipFrom opened (.done rest) := by
  match items with
  | [] => exact skipFrom_done rfl
  | item :: items =>
    obtain ⟨next, started, skipped⟩ := skipFrom_chars item (ends_itemsChars items rest) (.list :: opened)
    have comma : skipNext .list (itemsChars (item :: items) ++ rest) = .ok (.inside .list (item.chars ++ (itemsChars items ++ rest))) := by
      rw [itemsChars_append]
      rfl
    rw [skipFrom_done comma, skipFrom_inside started, skipped, skipFrom_itemsChars items rest opened]

/-- The entries of an object are skipped with the bracket that closes it. -/
theorem skipFrom_membersChars (members : List (String × Value)) (rest : List Char) (opened : List Bracket) :
    skipFrom (.object :: opened) (.done (membersChars members ++ rest)) = skipFrom opened (.done rest) := by
  match members with
  | [] => exact skipFrom_done rfl
  | (key, value) :: members =>
    obtain ⟨next, started, skipped⟩ := skipFrom_chars value (ends_membersChars members rest) (.object :: opened)
    have entry := skipKey_quoted key (value.chars ++ (membersChars members ++ rest))
    have comma : skipNext .object (membersChars ((key, value) :: members) ++ rest) =
        .ok (.inside .object (value.chars ++ (membersChars members ++ rest))) := by
      rw [membersChars_append]
      exact congrArg (Except.map (SkipStart.inside .object)) entry
    rw [skipFrom_done comma, skipFrom_inside started, skipped, skipFrom_membersChars members rest opened]

end

/-- A written value is skipped whole, up to what follows it. -/
theorem skipValue_chars (value : Value) {rest : List Char} (ends : Ends rest) : skipValue (value.chars ++ rest) = .ok rest := by
  obtain ⟨start, started, skipped⟩ := skipFrom_chars value ends []
  rw [skipValue, started]
  refine skipped.trans ?_
  rw [skipFrom]

end Value

end SealedLedger.Json
