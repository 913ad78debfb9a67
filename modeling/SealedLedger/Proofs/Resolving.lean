import SealedLedger.Address
import SealedLedger.Block
import SealedLedger.Proofs.Merkle.Levels

/-!
# Resolving an algorithm once

Every operation that takes an algorithm resolves it before all else, and every digest inside it resolves it again. `Steady` says of
a computation that the configuration does not matter any more: it comes out the same under all of them, asks the engine under one
algorithm only, and reports no fallback. Steady computations in sequence are steady, so all that follows once the algorithm is
known is steady, loops included. `ResolvesFirst` says of an operation that it resolves its algorithm and then is steady. What an
operation asks, reports and gives under an unknown algorithm follows from that alone.
-/

namespace SealedLedger

namespace Traced

variable {α β : Type}

/-- The fallbacks reported, each with the algorithm that was taken instead. -/
def fallbacks (x : Traced α) : List Algorithm :=
  x.events.filterMap fun
    | .fallback algorithm => some algorithm
    | _ => none

@[simp] theorem fallbacks_pure (a : α) : (pure a : Traced α).fallbacks = [] := rfl

@[simp] theorem fallbacks_bind (x : Traced α) (f : α → Traced β) :
    (x >>= f).fallbacks = x.fallbacks ++ (f x.value).fallbacks := by
  rw [fallbacks, events_bind, List.filterMap_append]
  rfl

@[simp] theorem fallbacks_forEach (items : List α) (operation : α → Traced β) :
    (forEach items operation).fallbacks = items.flatMap fun a => (operation a).fallbacks := by
  rw [fallbacks, events_forEach, List.filterMap_flatMap]
  rfl

@[simp] theorem fallbacks_map (f : α → β) (x : Traced α) : (f <$> x).fallbacks = x.fallbacks := by
  rw [fallbacks, events_map]
  rfl

/-- What a computation comes to: its value and the questions it took, whatever it reported. -/
def outcome (x : Traced α) : α × List (Algorithm × Bytes) :=
  (x.value, x.calls)

/-- What follows a computation matters only at its value. -/
theorem bind_congr_value {x : Traced α} {f g : α → Traced β} (h : f x.value = g x.value) : x >>= f = x >>= g := by
  ext1
  · rw [value_bind, value_bind, h]
  · rw [entries_bind, entries_bind, h]

end Traced

/-! ## Steady computations -/

section

variable {α β : Type} {engine : Engine} {algorithm : Algorithm}

/-- A computation of combiners over one engine comes out the same under every configuration, asks the engine under one algorithm
only, and reports no fallback. -/
structure Steady (engine : Engine) (algorithm : Algorithm) (x : Combiner → Traced α) : Prop where
  same : ∀ config config', x ⟨engine, config⟩ = x ⟨engine, config'⟩
  asks : ∀ config, ∀ call ∈ (x ⟨engine, config⟩).calls, call.1 = algorithm
  quiet : ∀ config, (x ⟨engine, config⟩).fallbacks = []

/-- A computation that has nothing to do with a combiner is steady if it asks nothing and reports no fallback. -/
theorem Steady.const {x : Traced α} (asks : x.calls = []) (quiet : x.fallbacks = []) :
    Steady engine algorithm fun _ => x where
  same _ _ := rfl
  asks _ call asked := by
    rw [asks] at asked
    cases asked
  quiet _ := quiet

/-- A sequence is steady if what comes first is, and what follows is at the value it gives. -/
theorem Steady.bind {x : Combiner → Traced α} {f : Combiner → α → Traced β} (steady : Steady engine algorithm x)
    (rest : ∀ config, Steady engine algorithm fun combiner => f combiner (x ⟨engine, config⟩).value) :
    Steady engine algorithm fun combiner => x combiner >>= f combiner where
  same config config' := by
    rw [steady.same config config']
    exact Traced.bind_congr_value ((rest config').same config config')
  asks config call asked := by
    rw [Traced.calls_bind, List.mem_append] at asked
    rcases asked with asked | asked
    · exact steady.asks config call asked
    · exact (rest config).asks config call asked
  quiet config := by
    rw [Traced.fallbacks_bind, steady.quiet config, (rest config).quiet config]
    rfl

theorem Steady.forEach {items : List α} {f : Combiner → α → Traced β}
    (steady : ∀ a, Steady engine algorithm fun combiner => f combiner a) :
    Steady engine algorithm fun combiner => Traced.forEach items (f combiner) where
  same config config' := by
    rw [funext fun a => (steady a).same config config']
  asks config call asked := by
    rw [Traced.calls_forEach, List.mem_flatMap] at asked
    obtain ⟨a, -, asked⟩ := asked
    exact (steady a).asks config call asked
  quiet config := by
    rw [Traced.fallbacks_forEach, List.flatMap_eq_nil_iff]
    exact fun a _ => (steady a).quiet config

theorem Steady.map {x : Combiner → Traced α} (steady : Steady engine algorithm x) (f : α → β) :
    Steady engine algorithm fun combiner => f <$> x combiner := by
  simp only [← bind_pure_comp]
  exact steady.bind fun a => .const rfl rfl

end

namespace Combiner

variable {engine : Engine} {algorithm : Algorithm}

theorem steady_ask (data : Bytes) : Steady engine algorithm fun combiner => combiner.ask algorithm data where
  same _ _ := rfl
  asks _ call asked := by
    obtain rfl := List.mem_singleton.1 asked
    rfl
  quiet _ := rfl

variable (known : algorithm ≠ .unknown)

include known

theorem steady_digestWith (fields : List Field) :
    Steady engine algorithm fun combiner => combiner.digestWith fields algorithm := by
  simp only [digestWith_of_known _ fields known]
  exact steady_ask _

theorem steady_reduceLevel (nodes : List Hash) :
    Steady engine algorithm fun combiner => combiner.reduceLevel algorithm nodes :=
  Steady.forEach fun _ => steady_digestWith known _

theorem steady_reduceFrom (depth : Nat) (nodes : List Hash) :
    Steady engine algorithm fun combiner => combiner.reduceFrom algorithm depth nodes := by
  -- by the length of the level, which every combiner halves
  induction hn : nodes.length using Nat.strong_induction_on generalizing depth nodes with
  | _ n ih =>
    by_cases few : nodes.length ≤ 1
    · simp only [reduceFrom_of_le _ _ depth few]
      exact .const rfl rfl
    · simp only [reduceFrom_of_lt _ _ depth (Nat.lt_of_not_le few)]
      refine (steady_reduceLevel known nodes).bind fun config => ?_
      have shorter := length_reduceLevel ⟨engine, config⟩ algorithm nodes
      exact (Steady.const rfl rfl).bind fun _ => ih _ (by omega) (depth + 1) _ rfl

theorem steady_emptyRoot : Steady engine algorithm fun combiner => combiner.emptyRoot algorithm := by
  simp only [emptyRoot_of_known _ known]
  exact .const rfl rfl

end Combiner

/-! ## Operations that resolve their algorithm first -/

section

variable {α β : Type} {operation core : Combiner → Algorithm → Traced α}

/-- An operation resolves its algorithm before all else, and from there on it is steady. -/
structure ResolvesFirst (operation : Combiner → Algorithm → Traced α) : Prop where
  first : ∀ combiner algorithm, operation combiner algorithm = combiner.resolve algorithm >>= operation combiner
  steady : ∀ engine {algorithm}, algorithm ≠ .unknown → Steady engine algorithm fun combiner => operation combiner algorithm

/-- It is enough that an operation resolves its algorithm and goes on in a steady way. -/
theorem ResolvesFirst.of_core
    (first : ∀ combiner algorithm, operation combiner algorithm = combiner.resolve algorithm >>= core combiner)
    (steady : ∀ engine {algorithm}, algorithm ≠ .unknown → Steady engine algorithm fun combiner => core combiner algorithm) :
    ResolvesFirst operation := by
  have at_known : ∀ combiner {algorithm}, algorithm ≠ .unknown → operation combiner algorithm = core combiner algorithm := by
    intro combiner algorithm known
    rw [first, combiner.resolve_of_known known, pure_bind]
  refine ⟨fun combiner algorithm => ?_, fun engine algorithm known => ?_⟩
  · rw [first]
    exact Traced.bind_congr_value (at_known combiner (combiner.resolve_known algorithm)).symm
  · simp only [at_known _ known]
    exact steady engine known

/-- A computation goes by an algorithm: it asks the engine under the resolved one only, and it reports a fallback once if the
algorithm is unknown and never otherwise. -/
structure Combiner.GoesBy (combiner : Combiner) (algorithm : Algorithm) (x : Traced α) : Prop where
  asks : ∀ call ∈ x.calls, call.1 = (combiner.resolve algorithm).value
  fallbacks : x.fallbacks = if algorithm = .unknown then [combiner.config.fallback] else []

theorem Combiner.GoesBy.map {combiner : Combiner} {algorithm : Algorithm} {x : Traced α} (goes : combiner.GoesBy algorithm x)
    (f : α → β) : combiner.GoesBy algorithm (f <$> x) where
  asks := by
    rw [Traced.calls_map]
    exact goes.asks
  fallbacks := by
    rw [Traced.fallbacks_map]
    exact goes.fallbacks

/-- A steady computation goes by its algorithm, which is known. -/
theorem Steady.goesBy {combiner : Combiner} {algorithm : Algorithm} (known : algorithm ≠ .unknown) {x : Combiner → Traced α}
    (steady : Steady combiner.engine algorithm x) : combiner.GoesBy algorithm (x combiner) where
  asks := by
    rw [combiner.resolve_of_known known]
    exact steady.asks combiner.config
  fallbacks := by
    rw [if_neg known]
    exact steady.quiet combiner.config

namespace ResolvesFirst

variable (resolves : ResolvesFirst operation) (combiner : Combiner)

include resolves

/-- Under an unknown algorithm an operation reports the configured one and then does what it does under that. -/
theorem unknown :
    operation combiner .unknown = (do
      Traced.report (.event (.fallback combiner.config.fallback))
      operation combiner combiner.config.fallback) := by
  rw [resolves.first, Combiner.resolve, if_pos rfl, bind_assoc]
  rfl

/-- An unknown algorithm and the configured one come to the same. -/
theorem outcome_unknown : (operation combiner .unknown).outcome = (operation combiner combiner.config.fallback).outcome := by
  rw [resolves.unknown]
  rfl

theorem goesBy (algorithm : Algorithm) : combiner.GoesBy algorithm (operation combiner algorithm) := by
  by_cases h : algorithm = .unknown
  · subst h
    have configured := (resolves.steady combiner.engine combiner.config.fallback_known).goesBy combiner.config.fallback_known
    refine ⟨?_, ?_⟩
    · rw [resolves.unknown]
      intro call asked
      exact (configured.asks call asked).trans (by rw [combiner.resolve_of_known combiner.config.fallback_known]; rfl)
    · rw [resolves.unknown, Traced.fallbacks_bind, configured.fallbacks, if_neg combiner.config.fallback_known, if_pos rfl]
      rfl
  · exact (resolves.steady combiner.engine h).goesBy h

end ResolvesFirst

end

namespace Combiner

theorem digestWith_resolvesFirst (fields : List Field) :
    ResolvesFirst fun combiner algorithm => combiner.digestWith fields algorithm :=
  .of_core (fun _ _ => rfl) fun _ _ _ => steady_ask _

theorem merkleRootWith_resolvesFirst (leaves : List Hash) :
    ResolvesFirst fun combiner algorithm => combiner.merkleRootWith leaves algorithm := by
  refine .of_core (fun _ _ => rfl) fun engine algorithm known => (steady_reduceFrom known 0 leaves).bind fun config => ?_
  split
  · exact .const rfl rfl
  · exact steady_emptyRoot known

end Combiner

theorem Address.derive_resolvesFirst (name : String) (publicKey : Bytes) :
    ResolvesFirst fun combiner algorithm => derive combiner name publicKey algorithm :=
  .of_core (fun _ _ => rfl) fun _ _ known => (Combiner.steady_digestWith known _).bind fun _ => .const rfl rfl

theorem Transaction.assemble_resolvesFirst (text : String) (senderHash : Hash) (signature : Bytes) (timestamp : Int64) :
    ResolvesFirst fun combiner algorithm => assemble combiner text senderHash signature timestamp algorithm :=
  .of_core (fun _ _ => rfl) fun _ _ known => (Combiner.steady_digestWith known _).bind fun _ => .const rfl rfl

/-- A builder that gives a transaction assembles its fields under the algorithm it names, or else the configured one. -/
theorem Transaction.Builder.build_eq_ok {builder : Builder} {combiner : Combiner} {now : Int64} {result : Traced Transaction}
    (built : builder.build combiner now = .ok result) :
    ∃ text senderHash signature, result =
      assemble combiner text senderHash signature (builder.timestamp.getD now)
        (builder.algorithm.getD combiner.config.fallback) := by
  unfold build at built
  split at built
  · cases built
  · cases built
  · cases built
  · cases built
    exact ⟨_, _, _, rfl⟩

/-- Sealing under an algorithm that a draft names. -/
theorem Draft.sealWith_resolvesFirst (draft : Draft) (now : Int64) :
    ResolvesFirst fun combiner algorithm => (draft.edit (.algorithm algorithm)).sealWith combiner now := by
  apply ResolvesFirst.of_core
  case first =>
    intro combiner algorithm
    simp only [sealWith, edit, Option.getD_some]
    rfl
  case steady =>
    intro engine algorithm known
    refine ((Combiner.merkleRootWith_resolvesFirst _).steady engine known).bind fun _ => ?_
    refine (Combiner.steady_digestWith known _).bind fun _ => ?_
    exact (Steady.const rfl rfl).bind fun _ => .const rfl rfl

/-- A draft that names no algorithm is sealed as if it named the configured one. -/
theorem Draft.sealWith_eq (combiner : Combiner) (draft : Draft) (now : Int64) :
    draft.sealWith combiner now =
      (draft.edit (.algorithm (draft.algorithm.getD combiner.config.fallback))).sealWith combiner now := rfl

/-! ## Entities that store a known algorithm -/

section

variable (engine : Engine)

theorem Address.steady_verify {address : Address} (known : address.algorithm ≠ .unknown) :
    Steady engine address.algorithm fun combiner => address.verify combiner :=
  (Combiner.steady_digestWith known _).bind fun _ => .const rfl rfl

theorem Transaction.steady_verify {transaction : Transaction} (known : transaction.algorithm ≠ .unknown) :
    Steady engine transaction.algorithm fun combiner => transaction.verify combiner :=
  (Combiner.steady_digestWith known _).bind fun _ => .const rfl rfl

theorem Block.steady_withTries {block : Block} (known : block.algorithm ≠ .unknown) (tries : UInt64) :
    Steady engine block.algorithm fun combiner => block.withTries combiner tries :=
  (Combiner.steady_digestWith known _).bind fun _ => .const rfl rfl

theorem Block.steady_verify {block : Block} (known : block.algorithm ≠ .unknown) :
    Steady engine block.algorithm fun combiner => block.verify combiner := by
  refine ((Combiner.merkleRootWith_resolvesFirst _).steady engine known).bind fun _ => ?_
  -- a wrong root ends the verification before the block's own hash is asked for
  split
  · exact .const rfl rfl
  · exact (Combiner.steady_digestWith known _).bind fun _ => .const rfl rfl

end

end SealedLedger
