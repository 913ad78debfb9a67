import SealedLedger.Proofs.History
import SealedLedger.Proofs.Settled

/-!
# What a builder makes of its settings

A builder is set any number of times, in any order, before it is asked for a transaction. It holds what the last setting of each field
gave (`Transaction.Builder.ofSettings_eq`), so a transaction, and what is asked and reported for it, are told by the history of settings
(`Transaction.Builder.Told`). A required field that was never set is missed before anything is asked or reported, the first one in
their fixed order (`Transaction.Builder.run_attempt_of_error`). Histories that differ in the order of settings of different fields, or in
settings that a later one replaces, come to the same (`Transaction.Builder.Rearranged.ofSettings_eq`). Main statement:
`Transaction.Builder.build_history`.
-/

namespace SealedLedger

namespace Transaction

/-- Assembling shows the resolving of the algorithm and one question about the covered bytes. -/
theorem entries_assemble (combiner : Combiner) (text : String) (senderHash : Hash) (signature : Bytes) (timestamp : Int64)
    (algorithm : Algorithm) :
    let result := assemble combiner text senderHash signature timestamp algorithm
    result.entries = (combiner.resolve algorithm).entries ++ [.call result.value.algorithm result.value.preimage] := by
  intro result
  have known := combiner.resolve_known algorithm
  rw [← encodeAll_fields]
  simp only [result, assemble, Traced.entries_bind, combiner.digestWith_of_known _ known]
  rfl

namespace Builder

open History

/-! ## What a history gave last -/

/-- The field of a builder that a setting is about. -/
inductive Subject where
  | text | senderHash | signature | timestamp | algorithm
  deriving DecidableEq

namespace Setting

/-- The field that a setting is about. -/
def subject : Setting → Subject
  | .text _ => .text
  | .senderHash _ => .senderHash
  | .signature _ => .signature
  | .timestamp _ => .timestamp
  | .algorithm _ => .algorithm

/-- The text that is set. -/
def text? : Setting → Option String
  | .text content => some content
  | _ => none

/-- The sender hash that is set. -/
def senderHash? : Setting → Option Hash
  | .senderHash hash => some hash
  | _ => none

/-- The signature that is set. -/
def signature? : Setting → Option Bytes
  | .signature bytes => some bytes
  | _ => none

/-- The time that is set. -/
def timestamp? : Setting → Option Int64
  | .timestamp time => some time
  | _ => none

/-- The algorithm that is set. -/
def algorithm? : Setting → Option Algorithm
  | .algorithm chosen => some chosen
  | _ => none

end Setting

open Setting

variable {combiner : Combiner} {builder : Builder} {settings settings' : List Setting} {now : Int64}

/-- A builder holds what its history gave last. -/
theorem ofSettings_eq (settings : List Setting) :
    ofSettings settings =
      { text := last? text? settings
        senderHash := last? senderHash? settings
        signature := last? signature? settings
        timestamp := last? timestamp? settings
        algorithm := last? algorithm? settings } := by
  have text := foldl_eq_last? set Builder.text text? (fun builder setting => by cases setting <;> rfl) settings {}
  have senderHash := foldl_eq_last? set Builder.senderHash senderHash? (fun builder setting => by cases setting <;> rfl) settings {}
  have signature := foldl_eq_last? set Builder.signature signature? (fun builder setting => by cases setting <;> rfl) settings {}
  have timestamp := foldl_eq_last? set Builder.timestamp timestamp? (fun builder setting => by cases setting <;> rfl) settings {}
  have algorithm := foldl_eq_last? set Builder.algorithm algorithm? (fun builder setting => by cases setting <;> rfl) settings {}
  rw [Option.or_none] at text senderHash signature timestamp algorithm
  exact (Builder.mk.injEq ..).mpr ⟨text, senderHash, signature, timestamp, algorithm⟩

/-! ## Fields that are missed -/

/-- The field of a builder that a required field is. -/
def Subject.ofRequired : RequiredField → Subject
  | .text => .text
  | .senderHash => .senderHash
  | .signature => .signature

/-- Whether a required field was set at least once. -/
def given (settings : List Setting) (field : RequiredField) : Bool :=
  settings.any fun setting => setting.subject = .ofRequired field

/-- The first required field that was never set, if there is one: the text, or else the sender hash, or else the signature. -/
def missing? (settings : List Setting) : Option RequiredField :=
  [.text, .senderHash, .signature].find? fun field => !given settings field

theorem given_iff {field : RequiredField} : given settings field = true ↔ ∃ setting ∈ settings, setting.subject = .ofRequired field := by
  simp [given]

/-- No required field is missing if each was set at least once. -/
theorem missing?_eq_none_iff : missing? settings = none ↔ ∀ field, ∃ setting ∈ settings, setting.subject = .ofRequired field := by
  have all : ∀ field, field ∈ [RequiredField.text, .senderHash, .signature] := by
    intro field
    cases field <;> decide
  simp only [missing?, List.find?_eq_none, all, forall_const, Bool.not_eq_true', Bool.not_eq_false, given_iff]

/-- There is a last setting of a field that was set at least once. -/
theorem given_eq_isSome_last? {α : Type} {given? : Setting → Option α} {field : RequiredField}
    (about : ∀ setting, (given? setting).isSome = decide (setting.subject = .ofRequired field)) (settings : List Setting) :
    given settings field = (last? given? settings).isSome := by
  rw [Bool.eq_iff_iff, given_iff, last?, List.getLast?_isSome, ne_eq, List.filterMap_eq_nil_iff]
  simp [← Option.isSome_iff_ne_none, about]

/-- Building fails if a required field was never set, with the first such field, and in no other case. -/
theorem build_eq_error_iff (settings : List Setting) (combiner : Combiner) (now : Int64) (fault : Fault) :
    (ofSettings settings).build combiner now = .error fault ↔
      ∃ field, missing? settings = some field ∧ fault = .missingField field := by
  have text : given settings .text = (last? text? settings).isSome :=
    given_eq_isSome_last? (fun setting => by cases setting <;> rfl) settings
  have senderHash : given settings .senderHash = (last? senderHash? settings).isSome :=
    given_eq_isSome_last? (fun setting => by cases setting <;> rfl) settings
  have signature : given settings .signature = (last? signature? settings).isSome :=
    given_eq_isSome_last? (fun setting => by cases setting <;> rfl) settings
  rw [ofSettings_eq, build]
  simp only [missing?, List.find?_cons, List.find?_nil, text, senderHash, signature]
  cases last? text? settings with
  | none => simp [eq_comm]
  | some _ =>
    cases last? senderHash? settings with
    | none => simp [eq_comm]
    | some _ => cases last? signature? settings <;> simp [eq_comm]

/-- A required field is there, or what would follow is not carried out. -/
def demand {α : Type} (field : RequiredField) : Option α → ExceptT Fault Traced α
  | none => throw (.missingField field)
  | some a => pure a

/-- Building step by step, where every step might ask and report something: the required fields one after the other, and then the
transaction. -/
def attempt (builder : Builder) (combiner : Combiner) (now : Int64) : ExceptT Fault Traced Transaction := do
  let text ← demand .text builder.text
  let senderHash ← demand .senderHash builder.senderHash
  let signature ← demand .signature builder.signature
  assemble combiner text senderHash signature (builder.timestamp.getD now) (builder.algorithm.getD combiner.config.fallback)

/-- Building step by step comes to the same, and shows nothing where it fails. -/
theorem run_attempt (builder : Builder) (combiner : Combiner) (now : Int64) :
    (builder.attempt combiner now).run =
      match builder.build combiner now with
      | .error fault => pure (.error fault)
      | .ok result => Except.ok <$> result := by
  unfold attempt build
  cases builder.text with
  | none => rfl
  | some text =>
    cases builder.senderHash with
    | none => rfl
    | some senderHash =>
      cases builder.signature with
      | none => rfl
      | some signature => rfl

/-- What fails is never begun: no question is put to the engine, and nothing is reported. -/
theorem run_attempt_of_error {fault : Fault} (failed : builder.build combiner now = .error fault) :
    (builder.attempt combiner now).run.value = .error fault ∧ (builder.attempt combiner now).run.entries = [] := by
  rw [run_attempt, failed]
  exact ⟨rfl, rfl⟩

/-! ## What is built -/

/-- A result is told by the settings before it. Text, sender hash and signature are those that were set last; so are the timestamp, or
else it is the time of building, and the algorithm, or else it is the configured one, which is then resolved. The hash is the digest of
the covered bytes, and the engine is asked for nothing else. Reported is the replaced algorithm, if there is one. -/
structure Told (combiner : Combiner) (settings : List Setting) (now : Int64) (result : Traced Transaction) : Prop where
  text : last? text? settings = some result.value.text
  senderHash : last? senderHash? settings = some result.value.senderHash
  signature : last? signature? settings = some result.value.signature
  timestamp : result.value.timestamp = (last? timestamp? settings).getD now
  algorithm : result.value.algorithm = (combiner.resolve ((last? algorithm? settings).getD combiner.config.fallback)).value
  hash : result.value.hash = ⟨combiner.engine result.value.algorithm result.value.preimage⟩
  calls : result.calls = [(result.value.algorithm, result.value.preimage)]
  events : result.events = if last? algorithm? settings = some .unknown then [.fallback combiner.config.fallback] else []

theorem told_of_build {result : Traced Transaction} (built : (ofSettings settings).build combiner now = .ok result) :
    Told combiner settings now result := by
  rw [ofSettings_eq, build] at built
  split at built
  · cases built
  · cases built
  · cases built
  · next text senderHash signature textSet senderHashSet signatureSet =>
    cases built
    have settled := settled_assemble combiner text senderHash signature ((last? timestamp? settings).getD now)
      ((last? algorithm? settings).getD combiner.config.fallback)
    refine ⟨textSet, senderHashSet, signatureSet, rfl, rfl, settled.hash, ?_, ?_⟩
    · have quiet := combiner.calls_resolve ((last? algorithm? settings).getD combiner.config.fallback)
      rw [Traced.calls] at quiet
      rw [Traced.calls, entries_assemble, List.filterMap_append, quiet]
      rfl
    · rw [Traced.events, entries_assemble, Combiner.entries_resolve]
      simp only [Config.getD_fallback_eq_unknown_iff]
      split <;> rfl

/-! ## What does not matter -/

/-- A history is rearranged into another: the settings of each field stay in their order, however they stand to those of other fields,
and a setting that a later one of the same field replaces is left out or put in. -/
inductive Rearranged : List Setting → List Setting → Prop where
  | reordered {settings settings' : List Setting}
    (same : ∀ field, (settings.filter fun setting => setting.subject = field) = settings'.filter fun setting => setting.subject = field) :
    Rearranged settings settings'
  | replaced (front : List Setting) {setting : Setting} {back : List Setting} (again : ∃ later ∈ back, later.subject = setting.subject) :
    Rearranged (front ++ setting :: back) (front ++ back)
  | symm {settings settings' : List Setting} (turned : Rearranged settings settings') : Rearranged settings' settings
  | trans {settings settings' settings'' : List Setting} (first : Rearranged settings settings')
    (second : Rearranged settings' settings'') : Rearranged settings settings''

/-- Of each field, rearranged histories gave the same last. -/
theorem Rearranged.last?_eq (rearranged : Rearranged settings settings') {α : Type} (given? : Setting → Option α) (field : Subject)
    (about : ∀ setting, (given? setting).isSome = decide (setting.subject = field)) : last? given? settings = last? given? settings' := by
  have other : ∀ setting : Setting, decide (setting.subject = field) = false → given? setting = none := by
    intro setting apart
    rw [← Option.not_isSome_iff_eq_none, about, apart]
    exact Bool.false_ne_true
  induction rearranged with
  | reordered same => rw [← last?_filter other, same field, last?_filter other]
  | @replaced front setting back again =>
    obtain ⟨later, member, same⟩ := again
    rw [last?_append, last?_append, ← List.singleton_append, last?_append]
    by_cases mine : setting.subject = field
    · obtain ⟨a, gave⟩ : ∃ a, given? later = some a := Option.isSome_iff_exists.1 (by rw [about, same, mine, decide_eq_true rfl])
      obtain ⟨last, set⟩ := Option.isSome_iff_exists.1 (isSome_last? member gave)
      rw [set]
      rfl
    · have alone : last? given? [setting] = none := by
        rw [last?, List.filterMap_cons_none (other setting (decide_eq_false mine))]
        rfl
      rw [alone, Option.or_none]
  | symm _ ih => exact ih.symm
  | trans _ _ first second => exact first.trans second

/-- Rearranged histories lead to one builder. -/
theorem Rearranged.ofSettings_eq (rearranged : Rearranged settings settings') : ofSettings settings = ofSettings settings' := by
  rw [Builder.ofSettings_eq settings, Builder.ofSettings_eq settings']
  rw [rearranged.last?_eq text? .text fun setting => by cases setting <;> rfl,
    rearranged.last?_eq senderHash? .senderHash fun setting => by cases setting <;> rfl,
    rearranged.last?_eq signature? .signature fun setting => by cases setting <;> rfl,
    rearranged.last?_eq timestamp? .timestamp fun setting => by cases setting <;> rfl,
    rearranged.last?_eq algorithm? .algorithm fun setting => by cases setting <;> rfl]

/-- A builder whose time was set builds the same at any time. -/
theorem build_of_timestamp {time : Int64} (set : .timestamp time ∈ settings) (combiner : Combiner) (now now' : Int64) :
    (ofSettings settings).build combiner now = (ofSettings settings).build combiner now' := by
  have dated : (last? timestamp? settings).isSome := isSome_last? set rfl
  obtain ⟨last, given⟩ := Option.isSome_iff_exists.1 dated
  rw [Builder.ofSettings_eq, given]
  rfl

/-- What a builder makes of any history of settings. It builds a transaction if and only if text, sender hash and signature were each set
at least once, be it to something empty. If it fails, the fault names the first of these that was never set, and nothing was asked or
reported. If it succeeds, every field, the one question to the engine and what is reported are told by the history. Settings of
different fields may change places, and settings that are replaced later may come and go, without any difference to the transaction or
to the fault; and where the time was set, the time of building makes none either. -/
theorem build_history (combiner : Combiner) :
    (∀ settings now, (∃ result, (ofSettings settings).build combiner now = .ok result) ↔
        ∀ field, ∃ setting ∈ settings, setting.subject = .ofRequired field) ∧
      (∀ settings now fault, (ofSettings settings).build combiner now = .error fault ↔
        ∃ field, missing? settings = some field ∧ fault = .missingField field) ∧
      (∀ settings now fault, (ofSettings settings).build combiner now = .error fault →
        ((ofSettings settings).attempt combiner now).run.value = .error fault ∧
          ((ofSettings settings).attempt combiner now).run.entries = []) ∧
      (∀ settings now result, (ofSettings settings).build combiner now = .ok result → Told combiner settings now result) ∧
      (∀ settings settings', Rearranged settings settings' → ∀ now,
        (ofSettings settings).build combiner now = (ofSettings settings').build combiner now) ∧
      ∀ settings time, .timestamp time ∈ settings → ∀ now now',
        (ofSettings settings).build combiner now = (ofSettings settings).build combiner now' := by
  refine ⟨fun settings now => ?_, fun settings now fault => build_eq_error_iff settings combiner now fault,
    fun settings now fault failed => run_attempt_of_error failed, fun settings now result built => told_of_build built,
    fun settings settings' rearranged now => by rw [rearranged.ofSettings_eq],
    fun settings time set now now' => build_of_timestamp set combiner now now'⟩
  rw [← missing?_eq_none_iff]
  cases built : (ofSettings settings).build combiner now with
  | error fault =>
    obtain ⟨field, missing, -⟩ := (build_eq_error_iff settings combiner now fault).1 built
    simp [missing]
  | ok result =>
    have complete : missing? settings = none := by
      cases missing : missing? settings with
      | none => rfl
      | some field =>
        have failed := (build_eq_error_iff settings combiner now (.missingField field)).2 ⟨field, missing, rfl⟩
        rw [built] at failed
        cases failed
    simp [complete]

/-- A text, a time and an algorithm that are replaced later make no difference, nor does the order of what is left; an empty text and an
empty sender hash count as set. Without a sender hash nothing is built. -/
theorem build_history_overwritten :
    let plain : Combiner := ⟨Engine.identity, Config.standard⟩
    let settings : List Setting :=
      [.text "x", .signature [3], .timestamp 9, .text "", .algorithm .sha1, .senderHash ⟨[]⟩, .timestamp (-1), .algorithm .unknown]
    let fewer : List Setting := [.algorithm .unknown, .timestamp (-1), .signature [3], .senderHash ⟨[]⟩, .text ""]
    Rearranged settings fewer ∧ .timestamp (-1) ∈ settings ∧
      (∃ result, (ofSettings settings).build plain 0 = .ok result ∧ (ofSettings fewer).build plain 1 = .ok result ∧
        result.value.text = "" ∧ result.value.algorithm = .sha256 ∧
        result.calls = [(.sha256, [3, 255, 255, 255, 255, 255, 255, 255, 255])] ∧ result.events = [.fallback .sha256]) ∧
      (ofSettings [.timestamp 5, .signature [1], .text "a"]).build plain 0 = .error (.missingField .senderHash) ∧
      ((ofSettings [.timestamp 5, .signature [1], .text "a"]).attempt plain 0).run.entries = [] := by
  intro plain settings fewer
  obtain ⟨succeeds, fails, quiet, told, same, dated⟩ := build_history plain
  have text_replaced : Rearranged settings settings.tail := .replaced [] ⟨.text "", by decide, rfl⟩
  have time_replaced : Rearranged settings.tail
      [.signature [3], .text "", .algorithm .sha1, .senderHash ⟨[]⟩, .timestamp (-1), .algorithm .unknown] :=
    .replaced [.signature [3]] ⟨.timestamp (-1), by decide, rfl⟩
  have algorithm_replaced : Rearranged
      [.signature [3], .text "", .algorithm .sha1, .senderHash ⟨[]⟩, .timestamp (-1), .algorithm .unknown]
      [.signature [3], .text "", .senderHash ⟨[]⟩, .timestamp (-1), .algorithm .unknown] :=
    .replaced [.signature [3], .text ""] ⟨.algorithm .unknown, by decide, rfl⟩
  have turned : Rearranged [.signature [3], .text "", .senderHash ⟨[]⟩, .timestamp (-1), .algorithm .unknown] fewer :=
    .reordered fun field => by cases field <;> rfl
  have rearranged : Rearranged settings fewer := text_replaced.trans (time_replaced.trans (algorithm_replaced.trans turned))
  have set : .timestamp (-1) ∈ settings := by decide
  obtain ⟨result, built⟩ := (succeeds settings 0).2 fun field => by cases field <;> decide
  have tells := told settings 0 result built
  have text : result.value.text = "" := (Option.some.inj tells.text).symm
  have covered : result.value.preimage = [3, 255, 255, 255, 255, 255, 255, 255, 255] := by
    rw [preimage, text, ← Option.some.inj tells.senderHash, ← Option.some.inj tells.signature, tells.timestamp]
    decide
  have failed := (fails [.timestamp 5, .signature [1], .text "a"] 0 (.missingField .senderHash)).2 ⟨.senderHash, by decide, rfl⟩
  refine ⟨rearranged, set, ⟨result, built, ?_, text, tells.algorithm, ?_, tells.events⟩, failed, (quiet _ 0 _ failed).2⟩
  · rw [← same settings fewer rearranged 1, ← dated settings (-1) set 0 1]
    exact built
  · rw [tells.calls, covered, tells.algorithm]
    rfl

end Builder

end Transaction

end SealedLedger
