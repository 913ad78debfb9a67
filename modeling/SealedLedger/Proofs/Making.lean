import SealedLedger.Proofs.Settled

/-!
# Everything that is made verifies

A run makes addresses, builders, transactions, drafts and blocks, each by one operation on what was made before it, in any order
and any number. All combiners of a run share one engine, while each may have a configuration of its own. One operation on settled
things gives a settled thing (`Makes.sound`), so all that a run makes is settled (`Run.sound`) and verifies under every
configuration. Main statement: `Run.verifies`.
-/

namespace SealedLedger

/-- The transactions that a change brings to a draft. -/
def Draft.Edit.brought : Draft.Edit → List Transaction
  | .push added => [added]
  | .transactions listed => listed
  | _ => []

/-- A transaction of a changed draft was in the draft or came with the change. -/
theorem Draft.mem_edit {draft : Draft} {edit : Draft.Edit} {transaction : Transaction}
    (h : transaction ∈ (draft.edit edit).transactions) :
    transaction ∈ draft.transactions ∨ transaction ∈ edit.brought := by
  cases edit with
  | push new => exact List.mem_append.1 h
  | transactions new => exact Or.inr h
  | tries => exact Or.inl h
  | timestamp => exact Or.inl h
  | data => exact Or.inl h
  | algorithm => exact Or.inl h

/-- Something that a run can make. -/
inductive Product where
  | address (address : Address)
  | builder (builder : Transaction.Builder)
  | transaction (transaction : Transaction)
  | draft (draft : Draft)
  | block (block : Block)

/-- One operation on what has been made, over one engine and under a configuration of its own. The operations that take no combiner
use the standard one, so they belong to runs over the standard engine. -/
inductive Makes (engine : Engine) (made : List Product) : Product → Prop where
  | derive (config : Config) (name : String) (publicKey : Bytes) (algorithm : Algorithm) :
    Makes engine made (.address (Address.derive ⟨engine, config⟩ name publicKey algorithm).value)
  | createAddress (standard : engine = Engine.standard) (name : String) (publicKey : Bytes) :
    Makes engine made (.address (Address.create name publicKey).value)
  | newBuilder : Makes engine made (.builder {})
  | set {builder : Transaction.Builder} (given : .builder builder ∈ made) (setting : Transaction.Builder.Setting) :
    Makes engine made (.builder (builder.set setting))
  | build {builder : Transaction.Builder} (given : .builder builder ∈ made) (config : Config) (now : Int64)
    {result : Traced Transaction} (built : builder.build ⟨engine, config⟩ now = .ok result) :
    Makes engine made (.transaction result.value)
  | createTransaction (standard : engine = Engine.standard) (text : String) (senderHash : Hash) (signature : Bytes)
    (now : Int64) : Makes engine made (.transaction (Transaction.create text senderHash signature now).value)
  | genesis : Makes engine made (.draft Draft.genesis)
  | onTopOf (predecessor : Hash) : Makes engine made (.draft (Draft.onTopOf predecessor))
  | edit {draft : Draft} (given : .draft draft ∈ made) (edit : Draft.Edit)
    (listed : ∀ transaction ∈ edit.brought, .transaction transaction ∈ made) :
    Makes engine made (.draft (draft.edit edit))
  | sealDraft {draft : Draft} (given : .draft draft ∈ made) (config : Config) (now : Int64) :
    Makes engine made (.block (draft.sealWith ⟨engine, config⟩ now).value)
  | createBlock (standard : engine = Engine.standard) (predecessor : Option Hash) (transactions : List Transaction)
    (listed : ∀ transaction ∈ transactions, .transaction transaction ∈ made) (tries : UInt64) (now : Int64) :
    Makes engine made (.block (Block.create predecessor transactions tries now).value)
  | withTries {block : Block} (given : .block block ∈ made) (config : Config) (tries : UInt64) :
    Makes engine made (.block (block.withTries ⟨engine, config⟩ tries).value)

/-- Operations one after the other, each on what the earlier ones made; the latest product comes first. -/
inductive Run (engine : Engine) : List Product → Prop where
  | start : Run engine []
  | next {made : List Product} {product : Product} (run : Run engine made) (makes : Makes engine made product) :
    Run engine (product :: made)

/-- A product is settled, with all transactions in it. -/
def Product.Sound (engine : Engine) : Product → Prop
  | .address derived => derived.Settled engine
  | .builder _ => True
  | .transaction signed => signed.Settled engine
  | .draft gathered => ∀ listed ∈ gathered.transactions, listed.Settled engine
  | .block made => made.Settled engine ∧ ∀ listed ∈ made.transactions, listed.Settled engine

/-- An operation on settled things gives a settled thing. -/
theorem Makes.sound {engine : Engine} {made : List Product} {product : Product} (makes : Makes engine made product)
    (sound : ∀ earlier ∈ made, earlier.Sound engine) : product.Sound engine := by
  cases makes with
  | derive config name publicKey algorithm => exact Address.settled_derive ⟨engine, config⟩ name publicKey algorithm
  | createAddress standard name publicKey =>
    subst standard
    exact Address.settled_derive Combiner.standard name publicKey .unknown
  | newBuilder => trivial
  | set => trivial
  | build _ config now built => exact Transaction.Builder.settled_build built
  | createTransaction standard text senderHash signature now =>
    subst standard
    exact Transaction.settled_assemble Combiner.standard text senderHash signature now .unknown
  | genesis =>
    intro _ h
    cases h
  | onTopOf predecessor =>
    intro _ h
    cases h
  | edit given edit listed =>
    intro transaction h
    rcases Draft.mem_edit h with old | new
    · exact sound _ given transaction old
    · exact sound _ (listed transaction new)
  | sealDraft given config now => exact ⟨Block.settled_sealWith ⟨engine, config⟩ now _, sound _ given⟩
  | createBlock standard predecessor transactions listed tries now =>
    subst standard
    exact ⟨Block.settled_sealWith Combiner.standard now _, fun transaction h => sound _ (listed transaction h)⟩
  | withTries given config tries =>
    exact ⟨Block.Settled.withTries ⟨engine, config⟩ (sound _ given).1 tries, (sound _ given).2⟩

namespace Run

/-- All that a run makes is settled. -/
theorem sound {engine : Engine} {made : List Product} (run : Run engine made) : ∀ product ∈ made, product.Sound engine := by
  induction run with
  | start =>
    intro _ h
    cases h
  | next _ makes ih =>
    intro product h
    rcases List.mem_cons.1 h with rfl | h
    · exact makes.sound ih
    · exact ih product h

/-- Everything that can be made verifies. Whatever operations a run consists of, whatever engine its combiners share and whichever
configuration each of them has, every address, transaction and block that was made, and every transaction in such a block, verifies
under every configuration of the engine. -/
theorem verifies {engine : Engine} {made : List Product} (run : Run engine made) (config : Config) :
    (∀ address, .address address ∈ made → (address.verify ⟨engine, config⟩).value = true) ∧
      (∀ transaction, .transaction transaction ∈ made → (transaction.verify ⟨engine, config⟩).value = true) ∧
        ∀ block, .block block ∈ made → (block.verify ⟨engine, config⟩).value = true ∧
          ∀ transaction ∈ block.transactions, (transaction.verify ⟨engine, config⟩).value = true := by
  refine ⟨?_, ?_, ?_⟩
  · intro address h
    have settled : address.Settled engine := run.sound _ h
    exact (Address.verify_iff ⟨engine, config⟩ settled.known).2 settled
  · intro transaction h
    have settled : transaction.Settled engine := run.sound _ h
    exact (Transaction.verify_iff ⟨engine, config⟩ settled.known).2 settled
  · intro block h
    obtain ⟨settled, inside⟩ : block.Settled engine ∧ ∀ transaction ∈ block.transactions, transaction.Settled engine :=
      run.sound _ h
    refine ⟨(Block.verify_iff ⟨engine, config⟩ settled.known).2 settled, fun transaction ht => ?_⟩
    exact (Transaction.verify_iff ⟨engine, config⟩ (inside transaction ht).known).2 (inside transaction ht)

/-- A transaction built under one configuration, sealed on an empty predecessor under a second one and given other tries under a
third verifies under a fourth, with an engine that cuts its answers short. -/
theorem verifies_resealed :
    let short : Engine := Engine.leading 4
    let first : Config := ⟨.sha1, by decide⟩
    let second : Config := ⟨.sha512, by decide⟩
    let third : Config := ⟨.sha256, by decide⟩
    let fourth : Config := ⟨.sha384, by decide⟩
    let paid := (Transaction.assemble ⟨short, first⟩ "paid" ⟨[1, 2]⟩ [3] 7 .sha1).value
    let block := ((Draft.onTopOf ⟨[]⟩).edit (.push paid)).sealWith ⟨short, second⟩ 8
    let again := block.value.withTries ⟨short, third⟩ 9
    (again.value.verify ⟨short, fourth⟩).value = true ∧ (paid.verify ⟨short, fourth⟩).value = true := by
  intro short first second third fourth paid block again
  have started : Run short [.builder {}] := .next .start .newBuilder
  have named := started.next (.set (.head _) (.text "paid"))
  have sent := named.next (.set (.head _) (.senderHash ⟨[1, 2]⟩))
  have signed := sent.next (.set (.head _) (.signature [3]))
  have built := signed.next (.build (.head _) first 7 rfl)
  have drafted := built.next (.onTopOf ⟨[]⟩)
  have listed := drafted.next (.edit (.head _) (.push paid) fun transaction h => List.mem_singleton.1 h ▸ .tail _ (.head _))
  have resealed := (listed.next (.sealDraft (.head _) second 8)).next (.withTries (.head _) third 9)
  obtain ⟨-, transactions, blocks⟩ := verifies resealed fourth
  exact ⟨(blocks again.value (.head _)).1, (blocks again.value (.head _)).2 paid (.head _)⟩

end Run

end SealedLedger
