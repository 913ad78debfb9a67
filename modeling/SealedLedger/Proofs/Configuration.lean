import SealedLedger.Proofs.Session

/-!
# What a configuration decides

A configuration only fills in for an algorithm that is unknown or not named. To name the configured algorithm, to name one that
nobody knows and, where that is possible, to name none all come to the same (`Combiner.Exchangeable`), and where a known algorithm
is named, combiners over one engine cannot be told apart (`Operation.run_of_definite`). Main statement:
`Combiner.configuration_fills_in`.
-/

namespace SealedLedger

/-- A text that has the spelling of no supported algorithm's name stands for none. -/
theorem Algorithm.ofName_of_unrecognised {text : String}
    (unrecognised : ∀ algorithm ∈ supported, spelling algorithm.name ≠ spelling text) :
    ofName text = unknown := by
  have none : (supported.find? fun algorithm => spelling algorithm.name = spelling text) = none := by
    rw [List.find?_eq_none]
    intro algorithm h
    simpa using unrecognised algorithm h
  rw [ofName, none]
  rfl

/-- The algorithms that mean the configured one: itself, the mark of unknown names, and what any name stands for that no supported
algorithm has. -/
inductive Config.Means (config : Config) : Algorithm → Prop where
  | itself : Means config config.fallback
  | mark : Means config .unknown
  | name {text : String}
    (unrecognised : ∀ algorithm ∈ Algorithm.supported, Algorithm.spelling algorithm.name ≠ Algorithm.spelling text) :
    Means config (Algorithm.ofName text)

/-- Algorithms that mean the configured one come to the same as that one. -/
theorem ResolvesFirst.outcome_of_means {α : Type} {operation : Combiner → Algorithm → Traced α} (resolves : ResolvesFirst operation)
    {combiner : Combiner} {choice : Algorithm} (means : combiner.config.Means choice) :
    (operation combiner choice).outcome = (operation combiner combiner.config.fallback).outcome := by
  cases means with
  | itself => rfl
  | mark => exact resolves.outcome_unknown combiner
  | name unrecognised =>
    rw [Algorithm.ofName_of_unrecognised unrecognised]
    exact resolves.outcome_unknown combiner

/-! ## Times that are set -/

namespace Transaction.Builder

/-- Two builders with the same required fields build what comes to the same, if assembling these fields does. -/
theorem map_build_congr {α : Type} {f : Traced Transaction → α} {builder builder' : Builder} {combiner combiner' : Combiner}
    {now now' : Int64} (text : builder.text = builder'.text) (senderHash : builder.senderHash = builder'.senderHash)
    (signature : builder.signature = builder'.signature)
    (assembled : ∀ text senderHash signature,
      f (assemble combiner text senderHash signature (builder.timestamp.getD now)
          (builder.algorithm.getD combiner.config.fallback)) =
        f (assemble combiner' text senderHash signature (builder'.timestamp.getD now')
          (builder'.algorithm.getD combiner'.config.fallback))) :
    (builder.build combiner now).map f = (builder'.build combiner' now').map f := by
  unfold build
  rw [text, senderHash, signature]
  cases builder'.text with
  | none => rfl
  | some text =>
    cases builder'.senderHash with
    | none => rfl
    | some senderHash =>
      cases builder'.signature with
      | none => rfl
      | some signature => exact congrArg Except.ok (assembled text senderHash signature)

end Transaction.Builder

/-- A draft with a timestamp is sealed in the same way at any time. -/
theorem Draft.sealWith_of_timestamp (draft : Draft) (combiner : Combiner) (dated : draft.timestamp ≠ none) (now now' : Int64) :
    draft.sealWith combiner now = draft.sealWith combiner now' := by
  obtain ⟨timestamp, set⟩ := Option.ne_none_iff_exists'.1 dated
  unfold sealWith
  rw [set]
  rfl

/-! ## Asking for the configured algorithm -/

/-- An algorithm can be exchanged for the configured one, and for none where none has to be named: every operation has the same
value and puts the same questions, and builders and drafts with a timestamp do so at all times. -/
structure Combiner.Exchangeable (combiner : Combiner) (choice : Algorithm) : Prop where
  digest : ∀ fields, (combiner.digestWith fields choice).outcome = (combiner.digest fields).outcome
  digestRequiring : ∀ fields,
    (combiner.digestRequiring fields (some choice)).map Traced.outcome = .ok (combiner.digest fields).outcome
  merkleRoot : ∀ leaves, (combiner.merkleRootWith leaves choice).outcome = (combiner.merkleRoot leaves).outcome
  merkleRootRequiring : ∀ leaves,
    (combiner.merkleRootRequiring leaves (some choice)).map Traced.outcome = .ok (combiner.merkleRoot leaves).outcome
  derive : ∀ name publicKey, (Address.derive combiner name publicKey choice).outcome =
    (Address.derive combiner name publicKey combiner.config.fallback).outcome
  build : ∀ {builder : Transaction.Builder}, builder.timestamp ≠ none → ∀ now now',
    ((builder.set (.algorithm choice)).build combiner now).map Traced.outcome =
      ({ builder with algorithm := none }.build combiner now').map Traced.outcome
  sealWith : ∀ {draft : Draft}, draft.timestamp ≠ none → ∀ now now',
    ((draft.edit (.algorithm choice)).sealWith combiner now).outcome =
      (({ draft with algorithm := none } : Draft).sealWith combiner now').outcome

theorem Combiner.exchangeable_of_means {combiner : Combiner} {choice : Algorithm} (means : combiner.config.Means choice) :
    combiner.Exchangeable choice where
  digest fields := (digestWith_resolvesFirst fields).outcome_of_means means
  digestRequiring fields := congrArg Except.ok ((digestWith_resolvesFirst fields).outcome_of_means means)
  merkleRoot leaves := (merkleRootWith_resolvesFirst leaves).outcome_of_means means
  merkleRootRequiring leaves := congrArg Except.ok ((merkleRootWith_resolvesFirst leaves).outcome_of_means means)
  derive name publicKey := (Address.derive_resolvesFirst name publicKey).outcome_of_means means
  build := by
    intro builder dated now now'
    obtain ⟨timestamp, set⟩ := Option.ne_none_iff_exists'.1 dated
    refine Transaction.Builder.map_build_congr rfl rfl rfl fun text senderHash signature => ?_
    simp only [Transaction.Builder.set, set, Option.getD_some, Option.getD_none]
    exact (Transaction.assemble_resolvesFirst text senderHash signature timestamp).outcome_of_means means
  sealWith := by
    intro draft dated now now'
    have dated : (draft.edit (.algorithm choice)).timestamp ≠ none := dated
    rw [Draft.sealWith_of_timestamp _ combiner dated now now']
    exact (draft.sealWith_resolvesFirst now').outcome_of_means means

/-! ## Naming a known algorithm -/

namespace Operation

/-- Whether the time that an operation is carried out at does not matter. -/
def Dated : Operation → Prop
  | build builder => builder.timestamp ≠ none
  | sealDraft draft => draft.timestamp ≠ none
  | _ => True

/-- An operation names a known algorithm and does not depend on the time. -/
structure Definite (operation : Operation) : Prop where
  known : ∃ algorithm, operation.named = some algorithm ∧ algorithm ≠ .unknown
  dated : operation.Dated

/-- A definite operation goes the same way under all configurations, in what it gives, asks and reports. -/
theorem run_of_definite (engine : Engine) (config config' : Config) {operation : Operation} (definite : operation.Definite)
    (now now' : Int64) : operation.run ⟨engine, config⟩ now = operation.run ⟨engine, config'⟩ now' := by
  obtain ⟨⟨algorithm, named, known⟩, dated⟩ := definite
  cases operation with
  | digest | merkleRoot => cases named
  | digestWith fields =>
    cases named
    exact congrArg Except.ok ((((Combiner.digestWith_resolvesFirst fields).steady engine known).map _).same config config')
  | digestRequiring fields =>
    cases named
    exact congrArg Except.ok ((((Combiner.digestWith_resolvesFirst fields).steady engine known).map _).same config config')
  | merkleRootWith leaves =>
    cases named
    exact congrArg Except.ok ((((Combiner.merkleRootWith_resolvesFirst leaves).steady engine known).map _).same config config')
  | merkleRootRequiring leaves =>
    cases named
    exact congrArg Except.ok ((((Combiner.merkleRootWith_resolvesFirst leaves).steady engine known).map _).same config config')
  | derive name publicKey =>
    cases named
    exact congrArg Except.ok ((((Address.derive_resolvesFirst name publicKey).steady engine known).map _).same config config')
  | build builder =>
    obtain ⟨timestamp, set⟩ := Option.ne_none_iff_exists'.1 dated
    have named : builder.algorithm = some algorithm := named
    refine Transaction.Builder.map_build_congr rfl rfl rfl fun text senderHash signature => ?_
    rw [set, named]
    have assembled := (Transaction.assemble_resolvesFirst text senderHash signature timestamp).steady engine known
    exact congrArg _ (assembled.same config config')
  | sealDraft draft =>
    have under : ∀ combiner, draft.sealWith combiner now' = (draft.edit (.algorithm algorithm)).sealWith combiner now' := by
      intro combiner
      have named : draft.algorithm = some algorithm := named
      rw [draft.sealWith_eq, named]
      rfl
    have same := (((draft.sealWith_resolvesFirst now').steady engine known).map fun block => Answer.entity (.block block)).same
      config config'
    rw [← under, ← under] at same
    rw [run, run, draft.sealWith_of_timestamp ⟨engine, config⟩ dated now now', same]
  | withTries block tries =>
    cases named
    exact congrArg Except.ok (((Block.steady_withTries engine known tries).map _).same config config')
  | verify entity =>
    cases named
    exact congrArg Except.ok (((Entity.steady_verify engine known).map _).same config config')

end Operation

/-! ## What is left to a configuration -/

/-- Unknown, unnamed and configured algorithms come to the same, and the configuration matters in no other way. Every algorithm that
means the configured one can be exchanged for it, and for none; every operation that names a known algorithm goes the same way
under all configurations; and where an algorithm has to be given, its absence is refused before anything is asked. -/
theorem Combiner.configuration_fills_in (engine : Engine) (config : Config) :
    (∀ choice, config.Means choice → Exchangeable ⟨engine, config⟩ choice) ∧
      (∀ (config' : Config) (operation : Operation), operation.Definite → ∀ now now',
        operation.run ⟨engine, config⟩ now = operation.run ⟨engine, config'⟩ now') ∧
      (∀ fields, digestRequiring ⟨engine, config⟩ fields none = .error .missingAlgorithm) ∧
        ∀ leaves, merkleRootRequiring ⟨engine, config⟩ leaves none = .error .missingAlgorithm := by
  refine ⟨fun choice means => exchangeable_of_means means, ?_, fun fields => rfl, fun leaves => rfl⟩
  intro config' operation definite now now'
  exact Operation.run_of_definite engine config config' definite now now'

/-- Under SHA-384 as the algorithm to fall back on, the name of another function means SHA-384 to a draft; under SHA-1 as a known
algorithm, the same draft with a timestamp is sealed as under any other configuration, later on. -/
theorem Combiner.configuration_fills_in_md5 :
    let sha384 : Config := ⟨.sha384, by decide⟩
    let draft : Draft := { Draft.onTopOf ⟨[7]⟩ with timestamp := some (-3), algorithm := some .sha512 }
    let known : Operation := .sealDraft (draft.edit (.algorithm .sha1))
    sha384.Means (Algorithm.ofName "MD5") ∧ known.Definite ∧
      ((draft.edit (.algorithm (Algorithm.ofName "MD5"))).sealWith ⟨Engine.reversed, sha384⟩ 1).outcome =
        (({ draft with algorithm := none } : Draft).sealWith ⟨Engine.reversed, sha384⟩ 2).outcome ∧
      known.run ⟨Engine.reversed, sha384⟩ 1 = known.run ⟨Engine.reversed, Config.standard⟩ 2 := by
  intro sha384 draft known
  have means : sha384.Means (Algorithm.ofName "MD5") := .name (by decide +kernel)
  have definite : known.Definite := ⟨⟨.sha1, rfl, by decide⟩, Option.some_ne_none _⟩
  obtain ⟨exchangeable, same, -⟩ := configuration_fills_in Engine.reversed sha384
  exact ⟨means, definite, (exchangeable _ means).sealWith (Option.some_ne_none _) 1 2, same Config.standard known definite 1 2⟩

end SealedLedger
