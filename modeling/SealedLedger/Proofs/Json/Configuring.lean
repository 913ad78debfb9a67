import SealedLedger.Config
import SealedLedger.Proofs.Json.Refusing

/-!
# What configuration an object describes

Of an object that is read as a configuration, only the values under one key count (`Config.given`): entries under other keys are
skipped, whatever their values hold and however deep. Without such a value the configuration is the standard one, a single string
is the name of the algorithm, and anything else is refused while reading (`Config.readAll_of_given_eq_nil` and the lemmas after
it). Whether the name stands for a known algorithm is looked at only after that. Main statement: `Config.ofJson_object`.
-/

namespace SealedLedger.Config

open Json

/-- The key of the algorithm to fall back on. -/
def key : String :=
  "default_algorithm"

/-- The values that an object gives under the key of a configuration, in their order. -/
def given (members : List (String × Value)) : List Value :=
  (members.filter fun member => member.1 = key).map Prod.snd

theorem given_cons_of_eq (value : Value) (members : List (String × Value)) :
    given ((key, value) :: members) = value :: given members := by
  simp [given]

theorem given_cons_of_ne {name : String} (other : name ≠ key) (value : Value) (members : List (String × Value)) :
    given ((name, value) :: members) = given members := by
  simp [given, other]

/-- Which values are given does not depend on the order of the entries, up to their own order. -/
theorem given_perm {members members' : List (String × Value)} (perm : members.Perm members') :
    (given members).Perm (given members') :=
  (perm.filter _).map _

/-- The first value under the key comes after entries that nobody knows. -/
theorem exists_of_given_eq_cons {members : List (String × Value)} {value : Value} {values : List Value}
    (first : given members = value :: values) :
    ∃ front back, members = front ++ (key, value) :: back ∧ given front = [] ∧ given back = values := by
  induction members with
  | nil => cases first
  | cons member members ih =>
    obtain ⟨name, other⟩ := member
    by_cases known : name = key
    · subst known
      rw [given_cons_of_eq] at first
      obtain ⟨rfl, later⟩ := List.cons.inj first
      exact ⟨[], members, rfl, rfl, later⟩
    · rw [given_cons_of_ne known] at first
      obtain ⟨front, back, rfl, none, later⟩ := ih first
      exact ⟨(name, other) :: front, back, rfl, by rw [given_cons_of_ne known, none], later⟩

/-! ## Reading the entries -/

/-- The only field of a configuration. -/
theorem find?_fields_key :
    (shape.fields.find? fun field => field.name = key) =
      some ⟨key, Option.isSome, Algorithm.reader.map fun algorithm _ => some algorithm⟩ :=
  rfl

theorem find?_fields_of_ne {name : String} (other : name ≠ key) :
    (shape.fields.find? fun field => field.name = name) = none := by
  have differs : ("default_algorithm" : String) ≠ name := fun same => other same.symm
  simp [shape, differs]

/-- Entries under other keys leave a draft as it is. -/
theorem fills_of_given_eq_nil {members : List (String × Value)} (none : given members = []) (draft : Option Algorithm) :
    Fills shape.fields draft members draft := by
  induction members with
  | nil => exact .nil
  | cons member members ih =>
    obtain ⟨name, value⟩ := member
    have other : name ≠ key := by
      rintro rfl
      rw [given_cons_of_eq] at none
      cases none
    rw [given_cons_of_ne other] at none
    exact .unknown (find?_fields_of_ne other) (ih none)

/-- A name is read as the algorithm it stands for, known or not. -/
theorem fills_of_name (name : String) : Fills shape.fields none [(key, .text name)] (some (Algorithm.ofName name)) :=
  .stored find?_fields_key rfl ((Reader.reads_text "a string" name).map Algorithm.ofName) .nil

/-- A draft that has an algorithm stops at the next value under the key. -/
theorem stops_of_isSome {members : List (String × Value)} {value : Value} {values : List Value}
    (again : given members = value :: values) (algorithm : Algorithm) :
    Stops shape.fields (some algorithm) members (.duplicateField key) := by
  obtain ⟨front, back, rfl, none, -⟩ := exists_of_given_eq_cons again
  exact .append (fills_of_given_eq_nil none _) (.repeated find?_fields_key rfl)

section

variable {members : List (String × Value)} {value : Value} {values : List Value}

theorem readAll_of_given_eq_nil (skipped : given members = []) :
    shape.reader.readAll (Value.object members).render = .ok standard.fallback :=
  (Shape.reads_object (fills_of_given_eq_nil skipped _) rfl).readAll

theorem readAll_of_given_eq_text {name : String} (one : given members = [.text name]) :
    shape.reader.readAll (Value.object members).render = .ok (Algorithm.ofName name) := by
  obtain ⟨front, back, rfl, skipped, no_more⟩ := exists_of_given_eq_cons one
  have fills := (fills_of_given_eq_nil skipped none).append
    ((fills_of_name name).append (fills_of_given_eq_nil no_more _))
  exact (Shape.reads_object fills rfl).readAll

/-- After a name every other value under the key is one too many. -/
theorem readAll_of_given_again {name : String} (two : given members = .text name :: value :: values) :
    shape.reader.readAll (Value.object members).render = .error (.duplicateField key) := by
  obtain ⟨front, back, rfl, skipped, again⟩ := exists_of_given_eq_cons two
  have stops : Stops shape.fields none ((key, .text name) :: back) (.duplicateField key) :=
    .later (fills_of_name name) (stops_of_isSome again _)
  exact (Shape.refuses_object (stops.append (fills_of_given_eq_nil skipped _))).readAll

/-- A first value under the key that is no string is refused, whatever else is given. -/
theorem readAll_of_given_other {e : Error} (first : given members = value :: values) (refuses : Algorithm.reader.Refuses value e) :
    shape.reader.readAll (Value.object members).render = .error e := by
  obtain ⟨front, back, rfl, skipped, -⟩ := exists_of_given_eq_cons first
  have unset := refuses.map fun algorithm (_ : Option Algorithm) => some algorithm
  have stops : Stops shape.fields none ((key, value) :: back) e := .refused find?_fields_key rfl unset
  exact (Shape.refuses_object (stops.append (fills_of_given_eq_nil skipped _))).readAll

end

/-- The values under the key decide how an object is read, and the object is refused if they are more than one or one is no string. -/
theorem exists_readAll_outcome (values : List Value) :
    ∃ outcome : Except Error Algorithm,
      (∀ members, given members = values → shape.reader.readAll (Value.object members).render = outcome) ∧
        ((2 ≤ values.length ∨ ∃ value ∈ values, ∀ name, value ≠ .text name) → ∃ e, outcome = .error e) := by
  cases values with
  | nil => exact ⟨.ok standard.fallback, fun members => readAll_of_given_eq_nil, by simp⟩
  | cons value values =>
    by_cases string : ∃ name, value = .text name
    · obtain ⟨name, rfl⟩ := string
      cases values with
      | nil => exact ⟨.ok (Algorithm.ofName name), fun members => readAll_of_given_eq_text, by simp⟩
      | cons other values => exact ⟨.error (.duplicateField key), fun members => readAll_of_given_again, fun _ => ⟨_, rfl⟩⟩
    · obtain ⟨e, refuses⟩ := Reader.exists_text_refuses "a string" (not_exists.1 string)
      exact ⟨.error e, fun members first => readAll_of_given_other first (refuses.map _), fun _ => ⟨e, rfl⟩⟩

/-! ## The configuration -/

theorem ofJson_of_readAll_eq_ok {text : String} {algorithm : Algorithm} (read : shape.reader.readAll text = .ok algorithm) :
    ofJson text = ofAlgorithm algorithm := by
  rw [ofJson, read]

theorem ofJson_of_readAll_eq_error {text : String} {e : Error} (unread : shape.reader.readAll text = .error e) :
    ofJson text = .error (.invalidConfig e) := by
  rw [ofJson, unread]

/-- An algorithm is taken if it is known. -/
theorem ofAlgorithm_of_ne {algorithm : Algorithm} (known : algorithm ≠ .unknown) : ofAlgorithm algorithm = .ok ⟨algorithm, known⟩ :=
  dif_neg known

/-- A text describes a configuration if and only if it is read as the algorithm of that configuration. -/
theorem ofJson_eq_ok_iff (text : String) (config : Config) :
    ofJson text = .ok config ↔ shape.reader.readAll text = .ok config.fallback := by
  constructor
  · intro described
    cases read : shape.reader.readAll text with
    | error e =>
      rw [ofJson_of_readAll_eq_error read] at described
      cases described
    | ok algorithm =>
      rw [ofJson_of_readAll_eq_ok read] at described
      by_cases unknown : algorithm = .unknown
      · rw [(ofAlgorithm_eq_error_iff algorithm).2 unknown] at described
        cases described
      · rw [ofAlgorithm_of_ne unknown] at described
        cases described
        rfl
  · intro read
    rw [ofJson_of_readAll_eq_ok read, ofAlgorithm_of_ne config.fallback_known]

/-- Two texts come to the same: they describe the same configuration or are refused for the same reason, or neither can be read. -/
inductive Agree : Except Fault Config → Except Fault Config → Prop where
  | same (result : Except Fault Config) : Agree result result
  | unread (e e' : Error) : Agree (.error (.invalidConfig e)) (.error (.invalidConfig e'))

/-- The same values under the key in another order come to the same. -/
theorem agree_of_perm {members members' : List (String × Value)} (perm : (given members).Perm (given members')) :
    Agree (ofJson (Value.object members).render) (ofJson (Value.object members').render) := by
  obtain ⟨outcome, read, refused⟩ := exists_readAll_outcome (given members)
  obtain ⟨outcome', read', refused'⟩ := exists_readAll_outcome (given members')
  by_cases repeated : 2 ≤ (given members).length
  · obtain ⟨e, rfl⟩ := refused (.inl repeated)
    obtain ⟨e', rfl⟩ := refused' (.inl (perm.length_eq ▸ repeated))
    rw [ofJson_of_readAll_eq_error (read members rfl), ofJson_of_readAll_eq_error (read' members' rfl)]
    exact .unread e e'
  · have same : given members = given members' := by
      cases values : given members with
      | nil => exact (List.nil_perm.1 (values ▸ perm)).symm
      | cons value later =>
        have alone : later = [] := by
          rw [values, List.length_cons] at repeated
          exact List.eq_nil_of_length_eq_zero (by omega)
        subst alone
        exact List.singleton_perm.1 (values ▸ perm)
    rw [ofJson, ofJson, read members rfl, read members' same.symm]
    exact .same _

/-- What configuration an object describes, which may have entries under any keys, with values of any kind and depth, in any order.
Without an entry under the key it is the standard one. With one, whose value is a string, it falls back on the algorithm of that
name, where the name stands for a known one, and is refused for its name otherwise. With several entries under the key, or a value
that is no string, the object cannot be read. The other entries do not matter, not even to the error, and the order matters at most
to the error. No text at all describes a configuration that falls back on the mark of unknown names. -/
theorem ofJson_object :
    (∀ members, given members = [] → ofJson (Value.object members).render = .ok standard) ∧
      (∀ members name, given members = [.text name] →
        (∀ known : Algorithm.ofName name ≠ .unknown,
          ofJson (Value.object members).render = .ok ⟨Algorithm.ofName name, known⟩) ∧
        (Algorithm.ofName name = .unknown → ofJson (Value.object members).render = .error .unknownDefault)) ∧
      (∀ members, (2 ≤ (given members).length ∨ ∃ value ∈ given members, ∀ name, value ≠ .text name) →
        ∃ e, ofJson (Value.object members).render = .error (.invalidConfig e)) ∧
      (∀ members members', given members = given members' →
        ofJson (Value.object members).render = ofJson (Value.object members').render) ∧
      (∀ members members', (given members).Perm (given members') →
        Agree (ofJson (Value.object members).render) (ofJson (Value.object members').render)) ∧
      ∀ text config, ofJson text = .ok config →
        shape.reader.readAll text = .ok config.fallback ∧ config.fallback ≠ .unknown := by
  refine ⟨?absent, ?named, ?unread, ?others, fun members members' => agree_of_perm, ?known⟩
  case absent =>
    intro members none
    exact (ofJson_eq_ok_iff _ standard).2 (readAll_of_given_eq_nil none)
  case named =>
    intro members name one
    have read := ofJson_of_readAll_eq_ok (readAll_of_given_eq_text one)
    exact ⟨fun known => read.trans (ofAlgorithm_of_ne known), fun unknown => read.trans ((ofAlgorithm_eq_error_iff _).2 unknown)⟩
  case unread =>
    intro members unfit
    obtain ⟨outcome, read, refused⟩ := exists_readAll_outcome (given members)
    obtain ⟨e, rfl⟩ := refused unfit
    exact ⟨e, ofJson_of_readAll_eq_error (read members rfl)⟩
  case others =>
    intro members members' same
    obtain ⟨outcome, read, -⟩ := exists_readAll_outcome (given members)
    rw [ofJson, ofJson, read members rfl, read members' same.symm]
  case known =>
    intro text config described
    exact ⟨(ofJson_eq_ok_iff text config).1 described, config.fallback_known⟩

/-- The key and its value are found among entries that hold the same words further inside or in strings that look like structure, and
among keys that only look like it; a name need not be spelled as it is reported. A name that stands for no algorithm is another
thing than a key given twice or an object in place of a name, also where that object describes a configuration. -/
theorem ofJson_object_misleading :
    let inner : Value := .object [("default_algorithm", .text "md5"), ("", .list [.null, .number ⟨true, 12, [5], some (-3)⟩])]
    let noisy : List (String × Value) :=
      [("x", inner), ("y", .text "\",\"default_algorithm\":\"sha1\"\x7d"), ("Default_Algorithm", .boolean true),
        ("default_algorithm", .text " sha_512 "), ("\n", inner)]
    let twice : List (String × Value) := [("default_algorithm", .text "md5"), ("y", inner), ("default_algorithm", .text "sha1")]
    (∃ config, ofJson (Value.object noisy).render = .ok config ∧ config.fallback = .sha512) ∧
      ofJson (Value.object [("default_algorithm", .text " sha_512 ")]).render = ofJson (Value.object noisy).render ∧
      ofJson (Value.object [("x", inner)]).render = .ok standard ∧
      ofJson (Value.object [("default_algorithm", .text "md5"), ("x", inner)]).render = .error .unknownDefault ∧
      (∃ e, ofJson (Value.object twice).render = .error (.invalidConfig e)) ∧
      Agree (ofJson (Value.object twice).render) (ofJson (Value.object twice.reverse).render) ∧
      (∃ e, ofJson (Value.object [("default_algorithm", inner)]).render = .error (.invalidConfig e)) := by
  intro inner noisy twice
  obtain ⟨absent, named, unread, others, turned, known⟩ := ofJson_object
  have sha512 : Algorithm.ofName " sha_512 " = .sha512 := by decide +kernel
  have md5 : Algorithm.ofName "md5" = .unknown := by decide +kernel
  have one : given noisy = [.text " sha_512 "] := by simp [noisy, given, key]
  have two : given twice = [.text "md5", .text "sha1"] := by simp [twice, given, key]
  have described := (named noisy " sha_512 " one).1 (by rw [sha512]; decide)
  refine ⟨⟨_, described, sha512⟩, others _ _ ?_, absent _ ?_, (named _ "md5" ?_).2 md5, unread _ ?_, turned _ _ ?_, unread _ ?_⟩
  · rw [one]
    rfl
  · rfl
  · rfl
  · exact .inl (by rw [two]; decide)
  · exact given_perm twice.reverse_perm.symm
  · exact .inr ⟨inner, .head _, by simp [inner]⟩

end SealedLedger.Config
