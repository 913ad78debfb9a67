import SealedLedger.Proofs.Assembler.Account
import SealedLedger.Proofs.Chain.Growth
import SealedLedger.Proofs.Making

/-!
# The lengths of hashes under the standard engine

A standard digest has the length that its algorithm fixes, and so do the zeros that stand for the root of no leaves. So every hash
that is made fits the algorithm stored with it (`Hash.Fits`), and none is empty. A root is a digest or zeros unless there is one leaf,
which is its own root. So the root of a block fails to fit only where the block holds one transaction, whose algorithm has another
length (`Block.Settled.sized`), and not in an assembler, which has one algorithm for all it makes. Main statement:
`Engine.standard_fits`.
-/

namespace SealedLedger

/-- A hash has as many bytes as a digest of the algorithm. -/
def Hash.Fits (hash : Hash) (algorithm : Algorithm) : Prop :=
  algorithm.outputLength = some hash.length

variable {algorithm : Algorithm} {hash : Hash}

/-- No algorithm has digests without bytes. -/
theorem Hash.Fits.isEmpty (fits : hash.Fits algorithm) : hash.isEmpty = false := by
  have some : hash.length ≠ 0 := by
    intro none
    rw [Fits, none] at fits
    cases algorithm <;> cases fits
  rw [Hash.isEmpty, List.isEmpty_eq_false_iff, ← List.length_pos_iff]
  exact Nat.pos_of_ne_zero some

/-- A hash that fits an algorithm fits those with digests of the same length and no others. -/
theorem Hash.Fits.iff (fits : hash.Fits algorithm) (other : Algorithm) :
    hash.Fits other ↔ algorithm.outputLength = other.outputLength := by
  rw [Fits] at fits ⊢
  rw [fits, eq_comm]

/-! ## Digests and roots -/

namespace Engine

variable (known : algorithm ≠ .unknown)

include known

theorem fits_standard (data : Bytes) : (Hash.mk (standard algorithm data)).Fits algorithm := by
  obtain ⟨length, fixed⟩ := Option.ne_none_iff_exists'.1 (Algorithm.outputLength_eq_none_iff.not.2 known)
  exact fixed.trans (congrArg some (length_standard fixed data).symm)

/-- The zeros that stand for the root of no leaves fit their algorithm. -/
theorem fits_zero : (Hash.zero (algorithm.outputLength.getD 0)).Fits algorithm := by
  obtain ⟨length, fixed⟩ := Option.ne_none_iff_exists'.1 (Algorithm.outputLength_eq_none_iff.not.2 known)
  rw [Hash.Fits, fixed, Option.getD_some, Hash.length_zero]

/-- The root of a tree with levels above its leaves is a digest. -/
theorem fits_tree (height : Nat) (leaves : List Hash) :
    (Merkle.tree (standard.join algorithm) (height + 1) leaves).Fits algorithm := by
  rcases Nat.lt_or_ge (2 ^ height) leaves.length with many | few
  · rw [Merkle.tree_of_lt many]
    exact fits_standard known _
  · rw [Merkle.tree_of_le few]
    exact fits_standard known _

/-- The root of any number of leaves but one fits its algorithm. -/
theorem fits_merkleRoot {leaves : List Hash} (number : leaves.length ≠ 1) : (standard.merkleRoot algorithm leaves).Fits algorithm := by
  by_cases none : leaves = []
  · rw [merkleRoot, if_pos none]
    exact fits_zero known
  · have some := List.length_pos_iff.2 none
    rw [merkleRoot, if_neg none]
    cases high : Merkle.height leaves.length with
    | zero => exact absurd (Merkle.le_one_of_height high) (by omega)
    | succ height => exact fits_tree known height leaves

end Engine

/-- What a combiner gives has the length of the algorithm it resolves to: every digest, and every root of any number of leaves but one,
which is the leaf itself. -/
structure Combiner.Sized (combiner : Combiner) : Prop where
  digestWith : ∀ fields algorithm, (combiner.digestWith fields algorithm).value.Fits (combiner.resolve algorithm).value
  digest : ∀ fields, (combiner.digest fields).value.Fits combiner.config.fallback
  digestRequiring : ∀ fields algorithm, ∃ digest, combiner.digestRequiring fields (some algorithm) = .ok digest ∧
    digest.value.Fits (combiner.resolve algorithm).value
  merkleRootWith : ∀ leaves algorithm, leaves.length ≠ 1 →
    (combiner.merkleRootWith leaves algorithm).value.Fits (combiner.resolve algorithm).value
  merkleRootWith_one : ∀ leaf algorithm, (combiner.merkleRootWith [leaf] algorithm).value = leaf

theorem Combiner.sized_withConfig (config : Config) : (withConfig config).Sized := by
  have asked : ∀ fields algorithm,
      ((withConfig config).digestWith fields algorithm).value.Fits ((withConfig config).resolve algorithm).value :=
    fun _ algorithm => Engine.fits_standard ((withConfig config).resolve_known algorithm) _
  refine ⟨asked, fun fields => ?_, fun fields algorithm => ⟨_, rfl, asked fields algorithm⟩, fun leaves algorithm number => ?_,
    fun leaf algorithm => ?_⟩
  · have digest := asked fields config.fallback
    rwa [(withConfig config).resolve_of_known config.fallback_known] at digest
  · rw [value_merkleRootWith]
    exact Engine.fits_merkleRoot ((withConfig config).resolve_known algorithm) number
  · rw [value_merkleRootWith, Engine.merkleRoot_singleton]

/-! ## Entities -/

theorem Address.Settled.fits {address : Address} (settled : address.Settled Engine.standard) :
    address.hash.Fits address.algorithm := by
  rw [settled.hash]
  exact Engine.fits_standard settled.known _

theorem Transaction.Settled.fits {transaction : Transaction} (settled : transaction.Settled Engine.standard) :
    transaction.hash.Fits transaction.algorithm := by
  rw [settled.hash]
  exact Engine.fits_standard settled.known _

namespace Block

variable {block : Block}

theorem Settled.fits (settled : block.Settled Engine.standard) : block.hash.Fits block.algorithm := by
  rw [settled.hash]
  exact Engine.fits_standard settled.known _

/-- The hash of a block fits its algorithm, whatever tries it is given, and the root does too unless the block holds one transaction, of
an algorithm with another length. Neither is empty, so a block sealed on this one's hash is no first block, whatever tries it is given
in turn. -/
structure Sized (block : Block) : Prop where
  hash : ∀ again, block.Retried Engine.standard again → again.hash.Fits again.algorithm
  merkleRoot : block.merkleRoot.Fits block.algorithm ↔
    ¬∃ transaction, block.transactions = [transaction] ∧ transaction.algorithm.outputLength ≠ block.algorithm.outputLength
  present : block.hash.isEmpty = false ∧ block.merkleRoot.isEmpty = false
  next : ∀ draft : Draft, draft.predecessor = some block.hash → ∀ config now again,
    (draft.sealWith (Combiner.withConfig config) now).value.Retried Engine.standard again → again.isGenesis = false

/-- A block sealed on a hash that is not empty has a predecessor, and keeps it. -/
theorem Retried.isGenesis_sealWith {engine : Engine} {config : Config} {draft : Draft} {now : Int64} {again : Block} {hash : Hash}
    (retried : (draft.sealWith ⟨engine, config⟩ now).value.Retried engine again) (named : draft.predecessor = some hash)
    (present : hash.isEmpty = false) : again.isGenesis = false := by
  have kept : again.predecessor = draft.predecessor.filter fun hash => !hash.isEmpty := by
    rw [retried.frame]
    rfl
  rw [isGenesis, kept, named, Option.filter_some, present]
  rfl

/-- The algorithm that the root of a block goes by: that of the transaction if there is just one, and otherwise the block's. -/
def rootAlgorithm (block : Block) : Algorithm :=
  match block.transactions with
  | [transaction] => transaction.algorithm
  | _ => block.algorithm

theorem Settled.fits_root (settled : block.Settled Engine.standard)
    (inside : ∀ transaction ∈ block.transactions, transaction.Settled Engine.standard) :
    block.merkleRoot.Fits block.rootAlgorithm := by
  unfold rootAlgorithm
  split
  case h_1 transaction alone =>
    have root : block.merkleRoot = transaction.hash := by
      rw [settled.root, alone]
      exact Engine.merkleRoot_singleton ..
    rw [root]
    exact (inside transaction (by simp [alone])).fits
  case h_2 several =>
    have number : (leaves block.transactions).length ≠ 1 := by
      rw [leaves, List.length_map]
      intro one
      obtain ⟨transaction, alone⟩ := List.length_eq_one_iff.1 one
      exact several transaction alone
    rw [settled.root]
    exact Engine.fits_merkleRoot settled.known number

/-- The algorithm that the root goes by has digests of another length than the block's just where the only transaction's has. -/
theorem outputLength_rootAlgorithm_iff :
    block.rootAlgorithm.outputLength = block.algorithm.outputLength ↔
      ¬∃ transaction, block.transactions = [transaction] ∧
        transaction.algorithm.outputLength ≠ block.algorithm.outputLength := by
  unfold rootAlgorithm
  split
  case h_1 transaction alone => simp [alone]
  case h_2 several => exact iff_of_true rfl fun ⟨transaction, alone, _⟩ => several transaction alone

/-- A settled block of settled transactions has hashes of the right lengths. -/
theorem Settled.sized (settled : block.Settled Engine.standard)
    (inside : ∀ transaction ∈ block.transactions, transaction.Settled Engine.standard) : block.Sized where
  hash _ retried := (retried.settled settled).fits
  merkleRoot := ((settled.fits_root inside).iff block.algorithm).trans outputLength_rootAlgorithm_iff
  present := ⟨settled.fits.isEmpty, (settled.fits_root inside).isEmpty⟩
  next _ named _ _ _ retried := Retried.isGenesis_sealWith retried named settled.fits.isEmpty

end Block

/-! ## Assemblers -/

namespace Assembler

variable {assembler : Assembler}

/-- A transaction that is settled under the standard engine and has a given algorithm. -/
structure Queued (algorithm : Algorithm) (transaction : Transaction) : Prop where
  settled : transaction.Settled Engine.standard
  same : transaction.algorithm = algorithm

/-- A block of an assembler with a known algorithm, in whose queue everything has that algorithm, has hashes of the right lengths,
the root included. -/
theorem sized_draft (known : assembler.algorithm ≠ .unknown)
    (queued : ∀ transaction ∈ assembler.pending, Queued assembler.algorithm transaction) (now : Binary64) (hash : Option Hash)
    (tries : UInt32) (data : Option String) :
    let block := ((assembler.draft now hash tries data).sealWith Combiner.standard now.toInt64).value
    block.Sized ∧ block.merkleRoot.Fits block.algorithm := by
  intro block
  have settled : block.Settled Engine.standard := Block.settled_sealWith Combiner.standard ..
  have same : block.algorithm = assembler.algorithm := congrArg Traced.value (Combiner.standard.resolve_of_known known)
  have sized : block.Sized := settled.sized fun transaction h => (queued transaction h).settled
  refine ⟨sized, sized.merkleRoot.2 ?_⟩
  rintro ⟨transaction, alone, differ⟩
  have waiting : assembler.pending = [transaction] := alone
  have queue := queued transaction (by simp [waiting])
  exact differ (by rw [queue.same, same])

/-- Every block of an assembler has hashes of the right lengths, the root included. -/
theorem sized_of_mem_history {name : Option String} {created : Traced Assembler} (made : create name = .ok created)
    {calls : List (Binary64 × Call)} {o : Occurrence} (recorded : o ∈ created.value.history calls) {block : Block}
    (sealed : o.block = some block) : block.Sized ∧ block.merkleRoot.Fits block.algorithm := by
  obtain ⟨known, empty⟩ := known_of_create made
  obtain ⟨earlier, later, split⟩ := List.append_of_mem recorded
  obtain ⟨before, now, call, after, -, -, rfl⟩ := history_split split
  have queued : ∀ transaction ∈ created.value.pending, Queued created.value.algorithm transaction := by
    rw [empty]
    nofun
  obtain ⟨same, waiting⟩ := created.value.pending_run before
    (fun entry _ text hash bytes =>
      ⟨Transaction.settled_assemble Combiner.standard .., congrArg Traced.value (Combiner.standard.resolve_of_known known)⟩) queued
  obtain ⟨-, hash, tries, data, rfl⟩ := (outcome_occurrence _ now call).block_eq sealed
  refine sized_draft ?_ ?_ now hash tries data
  · rw [occurrence, same]
    exact known
  · rw [occurrence, same]
    exact waiting

end Assembler

/-- The lengths of hashes under the standard engine. Whatever the configuration, every digest has as many bytes as the algorithm that
the given one resolves to prescribes, and so has every Merkle root, but for the root of one leaf, which is that leaf. So the hash of
every address, transaction and block that a run makes fits the algorithm stored with it, also after the tries are set anew, and the
root of a block fits it too, unless the block holds a single transaction of an algorithm with another length, and only then. A hash
that fits an algorithm is not empty, so what is sealed on the hash of a block is no first block. The blocks of an assembler have
roots that fit, whatever calls are made. -/
theorem Engine.standard_fits :
    (∀ config, (Combiner.withConfig config).Sized) ∧
      (∀ made, Run Engine.standard made →
        (∀ address, .address address ∈ made → address.hash.Fits address.algorithm) ∧
          (∀ transaction, .transaction transaction ∈ made → transaction.hash.Fits transaction.algorithm) ∧
          ∀ block, .block block ∈ made → block.Sized ∧
            ∀ transaction ∈ block.transactions, transaction.hash.Fits transaction.algorithm) ∧
      (∀ (hash : Hash) (algorithm : Algorithm), hash.Fits algorithm → hash.isEmpty = false) ∧
      ∀ name created, Assembler.create name = .ok created → ∀ calls, ∀ o ∈ created.value.history calls, ∀ block,
        o.block = some block →
          o.reply = .ok (.block (BlockInfo.ofBlock block)) ∧ block.Sized ∧ block.merkleRoot.Fits block.algorithm := by
  refine ⟨Combiner.sized_withConfig, fun made run => ⟨?_, ?_, ?_⟩, fun _ _ fits => fits.isEmpty, ?_⟩
  · intro address h
    have settled : address.Settled Engine.standard := run.sound _ h
    exact settled.fits
  · intro transaction h
    have settled : transaction.Settled Engine.standard := run.sound _ h
    exact settled.fits
  · intro block h
    obtain ⟨settled, inside⟩ : block.Settled Engine.standard ∧ ∀ transaction ∈ block.transactions, transaction.Settled Engine.standard :=
      run.sound _ h
    exact ⟨settled.sized inside, fun transaction listed => (inside transaction listed).fits⟩
  · intro name created made calls o recorded block sealed
    have reported := ((created.value.outcome_of_mem_history recorded).block_eq sealed).1
    exact ⟨reported, Assembler.sized_of_mem_history made recorded sealed⟩

/-- A block under SHA-256 that holds one transaction under SHA-1 has a root of 20 bytes; a block sealed on it is no first block. The
same transaction on its own in an assembler for SHA-1 leads to a root that fits. -/
theorem Engine.standard_fits_mixed :
    let paid := (Transaction.create "paid" ⟨[]⟩ [] 7).value
    let short := (Transaction.assemble Combiner.standard "paid" ⟨[]⟩ [] 7 .sha1).value
    let block := ((Draft.genesis.edit (.push short)).sealWith Combiner.standard 8).value
    let next := ((Draft.onTopOf block.hash).sealWith Combiner.standard 9).value
    let calls : List (Binary64 × Assembler.Call) := [(.ofInt 7, .add "paid" "" ""), (.ofInt 8, .sealPending none 0 none)]
    let history := (Assembler.mk .sha1 []).history calls
    (paid.hash.length = 32 ∧ block.merkleRoot.length = 20 ∧ block.hash.length = 32 ∧ next.isGenesis = false) ∧
      Assembler.create (some "SHA-1") = .ok (pure ⟨.sha1, []⟩) ∧
        ∃ o ∈ history, ∃ block, o.block = some block ∧ block.merkleRoot.length = 20 := by
  intro paid short block next calls history
  obtain ⟨-, runs, -, assemblers⟩ := standard_fits
  have started : Run standard [.transaction paid] := .next .start (.createTransaction rfl "paid" ⟨[]⟩ [] 7)
  have named := (started.next .newBuilder).next (.set (.head _) (.text "paid"))
  have sent := named.next (.set (.head _) (.senderHash ⟨[]⟩))
  have signed := (sent.next (.set (.head _) (.signature []))).next (.set (.head _) (.algorithm .sha1))
  have built := signed.next (.build (.head _) Config.standard 7 rfl)
  have listed := (built.next .genesis).next (.edit (.head _) (.push short) fun transaction h =>
    List.mem_singleton.1 h ▸ .tail _ (.head _))
  have sealed := listed.next (.sealDraft (.head _) Config.standard 8)
  obtain ⟨-, transactions, blocks⟩ := runs _ sealed
  have fits : paid.hash.Fits .sha256 := transactions paid (by simp)
  obtain ⟨sized, inside⟩ := blocks block (.head _)
  have fits_short : short.hash.Fits .sha1 := inside short (List.mem_singleton_self _)
  have root : block.merkleRoot = short.hash :=
    (Block.settled_sealWith Combiner.standard ..).root.trans (Engine.merkleRoot_singleton ..)
  have later := sized.next (Draft.onTopOf block.hash) rfl Config.standard 9 next .refl
  have made : Assembler.create (some "SHA-1") = .ok (pure ⟨.sha1, []⟩) := by rfl
  obtain ⟨-, -, fits_root⟩ := assemblers _ _ made calls _ (.tail _ (.head _)) _ rfl
  refine ⟨⟨(Option.some.inj fits).symm, ?_, (Option.some.inj (sized.hash block .refl)).symm, later⟩, made,
    _, .tail _ (.head _), _, rfl, (Option.some.inj fits_root).symm⟩
  rw [root]
  exact (Option.some.inj fits_short).symm

end SealedLedger
