import SealedLedger.Proofs.Resolving

/-!
# Sessions

A session is a sequence of requests to combiners. Each request is one operation at a time of its own, to a combiner with an engine
and a configuration of its own, and on entities that earlier requests made. An operation on entities that store known algorithms
goes by its algorithm (`Operation.goesBy`) and makes entities that store a known one (`Operation.stores`), so along a session the
mark of unknown names neither reaches an engine nor is stored. Main statement: `Session.requests_regular`.
-/

namespace SealedLedger

/-- What a combiner can make, and verify later. -/
inductive Entity where
  | address (address : Address)
  | transaction (transaction : Transaction)
  | block (block : Block)

/-- The algorithm that an entity stores. -/
def Entity.algorithm : Entity → Algorithm
  | .address derived => derived.algorithm
  | .transaction signed => signed.algorithm
  | .block made => made.algorithm

/-- Whether an entity's hashes are the ones that its other fields lead to. -/
def Entity.verify (combiner : Combiner) : Entity → Traced Bool
  | .address derived => derived.verify combiner
  | .transaction signed => signed.verify combiner
  | .block made => made.verify combiner

/-- What an operation can answer. -/
inductive Answer where
  | hash (hash : Hash)
  | entity (entity : Entity)
  | verdict (verified : Bool)

/-- The entities that an answer holds. -/
def Answer.made : Answer → List Entity
  | .entity made => [made]
  | _ => []

/-- What a combiner can be asked to do. -/
inductive Operation where
  | digest (fields : List Field)
  | digestWith (fields : List Field) (algorithm : Algorithm)
  | digestRequiring (fields : List Field) (algorithm : Option Algorithm)
  | merkleRoot (leaves : List Hash)
  | merkleRootWith (leaves : List Hash) (algorithm : Algorithm)
  | merkleRootRequiring (leaves : List Hash) (algorithm : Option Algorithm)
  | derive (name : String) (publicKey : Bytes) (algorithm : Algorithm)
  | build (builder : Transaction.Builder)
  | sealDraft (draft : Draft)
  | withTries (block : Block) (tries : UInt64)
  | verify (entity : Entity)

namespace Operation

/-- Carries out an operation at the time `now`. -/
def run (combiner : Combiner) (now : Int64) : Operation → Except Fault (Traced Answer)
  | digest fields => .ok (.hash <$> combiner.digest fields)
  | digestWith fields algorithm => .ok (.hash <$> combiner.digestWith fields algorithm)
  | digestRequiring fields algorithm => (combiner.digestRequiring fields algorithm).map (Answer.hash <$> ·)
  | merkleRoot leaves => .ok (.hash <$> combiner.merkleRoot leaves)
  | merkleRootWith leaves algorithm => .ok (.hash <$> combiner.merkleRootWith leaves algorithm)
  | merkleRootRequiring leaves algorithm => (combiner.merkleRootRequiring leaves algorithm).map (Answer.hash <$> ·)
  | derive name publicKey algorithm =>
    .ok ((fun address => .entity (.address address)) <$> Address.derive combiner name publicKey algorithm)
  | build builder => (builder.build combiner now).map ((fun transaction => .entity (.transaction transaction)) <$> ·)
  | sealDraft draft => .ok ((fun block => .entity (.block block)) <$> draft.sealWith combiner now)
  | withTries block tries => .ok ((fun block => .entity (.block block)) <$> block.withTries combiner tries)
  | verify entity => .ok (.verdict <$> entity.verify combiner)

/-- The algorithm that an operation names, be it as an argument or because an entity stores it. -/
def named : Operation → Option Algorithm
  | digest _ | merkleRoot _ => none
  | digestWith _ algorithm | merkleRootWith _ algorithm | derive _ _ algorithm => some algorithm
  | digestRequiring _ algorithm | merkleRootRequiring _ algorithm => algorithm
  | build builder => builder.algorithm
  | sealDraft draft => draft.algorithm
  | withTries block _ => some block.algorithm
  | verify entity => some entity.algorithm

/-- The entity whose stored algorithm an operation goes by. -/
def subject : Operation → Option Entity
  | withTries block _ => some (.block block)
  | verify entity => some entity
  | _ => none

/-- The entities that an operation is given. -/
def given : Operation → List Entity
  | sealDraft draft => draft.transactions.map .transaction
  | operation => operation.subject.toList

/-- The leaves whose Merkle root an operation asks for. -/
def leaves : Operation → Option (List Hash)
  | merkleRoot leaves | merkleRootWith leaves _ | merkleRootRequiring leaves _ => some leaves
  | _ => none

end Operation

/-- An operation that a combiner is asked for at a time. -/
structure Request where
  combiner : Combiner
  now : Int64
  operation : Operation

namespace Request

/-- What becomes of a request; one that is refused asks and reports nothing. -/
def outcome (request : Request) : Except Fault (Traced Answer) :=
  request.operation.run request.combiner request.now

/-- The entities that a request makes. -/
def made (request : Request) : List Entity :=
  match request.outcome with
  | .ok result => result.value.made
  | .error _ => []

/-- The algorithm that a request goes by: the one that its operation names, or the configured one. -/
def algorithm (request : Request) : Algorithm :=
  request.operation.named.getD request.combiner.config.fallback

/-- That algorithm, or the configured one in place of an unknown one. -/
def resolved (request : Request) : Algorithm :=
  (request.combiner.resolve request.algorithm).value

end Request

/-- Requests one after the other, each on entities that earlier ones made; the latest request comes first. -/
inductive Session : List Request → Prop where
  | start : Session []
  | next {requests : List Request} (session : Session requests) (request : Request)
    (given : ∀ entity ∈ request.operation.given, entity ∈ requests.flatMap Request.made) : Session (request :: requests)

/-! ## One operation -/

theorem Entity.steady_verify (engine : Engine) {entity : Entity} (known : entity.algorithm ≠ .unknown) :
    Steady engine entity.algorithm fun combiner => entity.verify combiner := by
  cases entity with
  | address derived => exact Address.steady_verify engine known
  | transaction signed => exact Transaction.steady_verify engine known
  | block made => exact Block.steady_verify engine known

namespace Operation

variable {combiner : Combiner} {now : Int64} {operation : Operation} {result : Traced Answer}

/-- An operation goes by the algorithm it names, or else by the configured one, if its subject stores a known algorithm. -/
theorem goesBy (known : ∀ entity, operation.subject = some entity → entity.algorithm ≠ .unknown)
    (done : operation.run combiner now = .ok result) :
    combiner.GoesBy (operation.named.getD combiner.config.fallback) result := by
  cases operation with
  | digest fields =>
    cases done
    exact ((Combiner.digestWith_resolvesFirst fields).goesBy combiner _).map _
  | digestWith fields algorithm =>
    cases done
    exact ((Combiner.digestWith_resolvesFirst fields).goesBy combiner algorithm).map _
  | digestRequiring fields algorithm =>
    cases algorithm with
    | none => cases done
    | some algorithm =>
      cases done
      exact ((Combiner.digestWith_resolvesFirst fields).goesBy combiner algorithm).map _
  | merkleRoot leaves =>
    cases done
    exact ((Combiner.merkleRootWith_resolvesFirst leaves).goesBy combiner _).map _
  | merkleRootWith leaves algorithm =>
    cases done
    exact ((Combiner.merkleRootWith_resolvesFirst leaves).goesBy combiner algorithm).map _
  | merkleRootRequiring leaves algorithm =>
    cases algorithm with
    | none => cases done
    | some algorithm =>
      cases done
      exact ((Combiner.merkleRootWith_resolvesFirst leaves).goesBy combiner algorithm).map _
  | derive name publicKey algorithm =>
    cases done
    exact ((Address.derive_resolvesFirst name publicKey).goesBy combiner algorithm).map _
  | build builder =>
    obtain ⟨built, hb, rfl⟩ := Json.map_eq_ok done
    obtain ⟨text, senderHash, signature, rfl⟩ := Transaction.Builder.build_eq_ok hb
    exact ((Transaction.assemble_resolvesFirst ..).goesBy combiner _).map _
  | sealDraft draft =>
    cases done
    rw [draft.sealWith_eq]
    exact ((draft.sealWith_resolvesFirst now).goesBy combiner _).map _
  | withTries block tries =>
    cases done
    exact ((Block.steady_withTries _ (known (.block block) rfl) tries).goesBy (known (.block block) rfl)).map _
  | verify entity =>
    cases done
    exact ((Entity.steady_verify _ (known entity rfl)).goesBy (known entity rfl)).map _

/-- What an operation makes stores the resolved algorithm. -/
theorem stores (known : ∀ entity, operation.subject = some entity → entity.algorithm ≠ .unknown)
    (done : operation.run combiner now = .ok result) :
    ∀ entity ∈ result.value.made,
      entity.algorithm = (combiner.resolve (operation.named.getD combiner.config.fallback)).value := by
  cases operation with
  | derive name publicKey algorithm =>
    cases done
    simp only [Traced.value_map, Answer.made, List.mem_singleton, forall_eq]
    rfl
  | build builder =>
    obtain ⟨built, hb, rfl⟩ := Json.map_eq_ok done
    obtain ⟨text, senderHash, signature, rfl⟩ := Transaction.Builder.build_eq_ok hb
    simp only [Traced.value_map, Answer.made, List.mem_singleton, forall_eq]
    rfl
  | sealDraft draft =>
    cases done
    simp only [Traced.value_map, Answer.made, List.mem_singleton, forall_eq]
    rfl
  | withTries block tries =>
    cases done
    have known : block.algorithm ≠ .unknown := known (.block block) rfl
    simp only [Traced.value_map, Answer.made, List.mem_singleton, forall_eq]
    rw [named, Option.getD_some, combiner.resolve_of_known known]
    rfl
  | digestRequiring | merkleRootRequiring =>
    obtain ⟨hash, -, rfl⟩ := Json.map_eq_ok done
    nofun
  | digest | digestWith | merkleRoot | merkleRootWith | verify =>
    cases done
    nofun

/-- An operation that asks for the root of no leaves asks the engine nothing. -/
theorem calls_of_no_leaves (none : operation.leaves = some []) (done : operation.run combiner now = .ok result) :
    result.calls = [] := by
  have quiet : ∀ algorithm, (combiner.merkleRootWith [] algorithm).calls = [] := by
    intro algorithm
    rw [combiner.calls_merkleRootWith]
    simp [Merkle.height, Merkle.buffers]
  cases operation with
  | merkleRoot leaves =>
    cases none
    cases done
    rw [Traced.calls_map]
    exact quiet _
  | merkleRootWith leaves algorithm =>
    cases none
    cases done
    rw [Traced.calls_map]
    exact quiet algorithm
  | merkleRootRequiring leaves algorithm =>
    cases none
    cases algorithm with
    | none => cases done
    | some algorithm =>
      cases done
      rw [Traced.calls_map]
      exact quiet algorithm
  | _ => cases none

end Operation

/-! ## Along a session -/

/-- A request that was carried out goes as it should. It asks the engine under the resolved algorithm only, which is a known one,
and makes entities that store it. To verify an entity or to set a block's tries anew it goes by the stored algorithm, and reports no
fallback; any other request reports one, once, if it names an unknown algorithm, and never otherwise. Every digest of the resolved
algorithm has a fixed length, so the root of no leaves needs no question. -/
structure Request.Regular (request : Request) (result : Traced Answer) : Prop where
  asks : ∀ call ∈ result.calls, call.1 = request.resolved ∧ call.1 ≠ .unknown
  stores : ∀ entity ∈ result.value.made, entity.algorithm = request.resolved ∧ entity.algorithm ≠ .unknown
  keeps : ∀ entity, request.operation.subject = some entity → request.resolved = entity.algorithm ∧ result.fallbacks = []
  reports : result.fallbacks = if request.operation.named = some .unknown then [request.combiner.config.fallback] else []
  fixed : ∃ digestLength, request.resolved.outputLength = some digestLength
  quiet : request.operation.leaves = some [] → result.calls = []

theorem Request.resolved_known (request : Request) : request.resolved ≠ .unknown :=
  request.combiner.resolve_known request.algorithm

/-- An unknown algorithm is one that the operation names, since the configured one is known. -/
theorem Request.algorithm_eq_unknown_iff (request : Request) :
    request.algorithm = .unknown ↔ request.operation.named = some .unknown :=
  request.combiner.config.getD_fallback_eq_unknown_iff request.operation.named

/-- The subject of an operation is among the entities it is given, and the algorithm it stores is the one that is named. -/
theorem Operation.given_named_of_subject {operation : Operation} {entity : Entity} (h : operation.subject = some entity) :
    entity ∈ operation.given ∧ operation.named = some entity.algorithm := by
  cases operation with
  | withTries | verify =>
    cases h
    exact ⟨List.mem_singleton_self _, rfl⟩
  | _ => cases h

/-- A request whose subject stores a known algorithm goes as it should. -/
theorem Request.regular_of_known {request : Request} {result : Traced Answer}
    (known : ∀ entity, request.operation.subject = some entity → entity.algorithm ≠ .unknown)
    (done : request.outcome = .ok result) : request.Regular result := by
  have goes := Operation.goesBy known done
  have reports : result.fallbacks =
      if request.operation.named = some .unknown then [request.combiner.config.fallback] else [] := by
    rw [← if_congr request.algorithm_eq_unknown_iff rfl rfl]
    exact goes.fallbacks
  refine ⟨?_, ?_, ?_, reports, ?_, fun none => Operation.calls_of_no_leaves none done⟩
  · intro call asked
    have under : call.1 = request.resolved := goes.asks call asked
    exact ⟨under, under ▸ request.resolved_known⟩
  · intro entity made
    have stored : entity.algorithm = request.resolved := Operation.stores known done entity made
    exact ⟨stored, stored ▸ request.resolved_known⟩
  · intro entity subject
    have named := (Operation.given_named_of_subject subject).2
    have known := known entity subject
    refine ⟨?_, ?_⟩
    · rw [resolved, algorithm, named, Option.getD_some, request.combiner.resolve_of_known known]
      rfl
    · rw [reports, named, if_neg (by simpa using known)]
  · exact Option.ne_none_iff_exists'.1 (mt Algorithm.outputLength_eq_none_iff.1 request.resolved_known)

namespace Session

/-- All that a session made stores known algorithms, and all its requests go as they should. -/
theorem sound {requests : List Request} (session : Session requests) :
    (∀ entity ∈ requests.flatMap Request.made, entity.algorithm ≠ .unknown) ∧
      ∀ request ∈ requests, ∀ result, request.outcome = .ok result → request.Regular result := by
  induction session with
  | start =>
    constructor
    · intro _ h
      cases h
    · intro _ h
      cases h
  | next session request given ih =>
    obtain ⟨stored, regular⟩ := ih
    have known : ∀ entity, request.operation.subject = some entity → entity.algorithm ≠ .unknown := fun entity subject =>
      stored entity (given entity (Operation.given_named_of_subject subject).1)
    have now : ∀ result, request.outcome = .ok result → request.Regular result := fun result done =>
      Request.regular_of_known known done
    refine ⟨?_, ?_⟩
    · intro entity made
      rw [List.flatMap_cons, List.mem_append] at made
      rcases made with made | made
      · rw [Request.made] at made
        split at made
        · next result done => exact ((now result done).stores entity made).2
        · cases made
      · exact stored entity made
    · intro earlier h
      rcases List.mem_cons.1 h with rfl | h
      · exact now
      · exact regular earlier h

/-- The mark of unknown names reaches no engine and is stored nowhere. Whatever operations a session consists of, and whichever
engine and configuration each of its combiners has, every request that is carried out goes as it should. No configuration falls back
on the mark: neither as an algorithm nor in a text is it accepted. -/
theorem requests_regular {requests : List Request} (session : Session requests) :
    (∀ request ∈ requests, ∀ result, request.outcome = .ok result → request.Regular result) ∧
      (∀ algorithm, Config.ofAlgorithm algorithm = .error .unknownDefault ↔ algorithm = .unknown) ∧
        ∀ text, Config.ofJson text = .error .unknownDefault ↔ Config.shape.reader.readAll text = .ok .unknown :=
  ⟨session.sound.2, Config.ofAlgorithm_eq_error_iff, Config.ofJson_eq_error_iff⟩

/-- A transaction built under an unknown algorithm, sealed three times over into a block by another combiner under an unknown
algorithm again, and verified by the first: one fallback each time but the last, and the verification goes by what the block
stores. -/
theorem requests_regular_marked :
    let first : Combiner := ⟨Engine.identity, ⟨.sha512, by decide⟩⟩
    let second : Combiner := ⟨Engine.reversed, Config.standard⟩
    let built : Request := ⟨first, 5, .build ⟨some "paid", some ⟨[1, 2]⟩, some [3], none, some .unknown⟩⟩
    let paid := (Transaction.assemble first "paid" ⟨[1, 2]⟩ [3] 5 .unknown).value
    let draft : Draft := { transactions := [paid, paid, paid], algorithm := some .unknown }
    let sealed : Request := ⟨second, 6, .sealDraft draft⟩
    let verified : Request := ⟨first, 7, .verify (.block (draft.sealWith second 6).value)⟩
    Session [verified, sealed, built] ∧
      (∃ result, built.outcome = .ok result ∧ result.fallbacks = [.sha512]) ∧
      (∃ result, sealed.outcome = .ok result ∧ result.fallbacks = [.sha256] ∧ ∀ call ∈ result.calls, call.1 = .sha256) ∧
      ∃ result, verified.outcome = .ok result ∧ result.fallbacks = [] ∧ ∀ call ∈ result.calls, call.1 = .sha256 := by
  intro first second built paid draft sealed verified
  have built_made : built.made = [.transaction paid] := rfl
  have sealed_made : sealed.made = [.block (draft.sealWith second 6).value] := rfl
  have listed : ∀ entity ∈ sealed.operation.given, entity ∈ [built].flatMap Request.made := by
    intro entity given
    obtain ⟨transaction, ht, rfl⟩ := List.mem_map.1 given
    have same : transaction = paid := by simpa [draft] using ht
    rw [same, List.flatMap_singleton, built_made]
    exact List.mem_singleton_self _
  have session : Session [verified, sealed, built] := by
    refine ((Session.start.next built nofun).next sealed listed).next verified fun entity given => ?_
    obtain rfl := List.mem_singleton.1 given
    rw [List.flatMap_cons, sealed_made]
    exact List.mem_cons_self
  have regular := (requests_regular session).1
  have regular_built := regular built (by simp) _ rfl
  have regular_sealed := regular sealed (by simp) _ rfl
  have regular_verified := regular verified (by simp) _ rfl
  refine ⟨session, ⟨_, rfl, regular_built.reports⟩, ⟨_, rfl, regular_sealed.reports, fun call asked => ?_⟩, _, rfl,
    (regular_verified.keeps _ rfl).2, fun call asked => ?_⟩
  · exact (regular_sealed.asks call asked).1
  · exact (regular_verified.asks call asked).1

end Session

end SealedLedger
