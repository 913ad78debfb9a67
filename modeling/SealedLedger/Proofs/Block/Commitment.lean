import SealedLedger.Proofs.Collision
import SealedLedger.Proofs.Settled

/-!
# What the hash of a block commits to

The covered bytes carry no lengths and no separators, but they end in two numbers of eight bytes each. So they determine both
numbers, and the predecessor's bytes followed by the root's (`Block.preimage_inj`); where two roots are equally long, also each of
these on its own. A hash commits to exactly that, up to a collision (`Block.Made.hash_commits`). Of the transactions the covered
bytes hold the root only: blocks with other transactions and the same root are twins, which no hash, no link and no verification
tells apart (`Block.Settled.twin`).
-/

namespace SealedLedger

namespace Block

/-- The covered bytes determine the timestamp, the tries, and what stands before them. -/
theorem preimage_inj {block block' : Block} (h : block.preimage = block'.preimage) :
    predecessorBytes block.predecessor ++ block.merkleRoot.bytes =
        predecessorBytes block'.predecessor ++ block'.merkleRoot.bytes ∧
      block.tries = block'.tries ∧ block.timestamp = block'.timestamp := by
  unfold preimage at h
  obtain ⟨h, timestamp⟩ := List.append_inj' h (by simp)
  obtain ⟨h, tries⟩ := List.append_inj' h (by simp)
  refine ⟨h, ?_, Bytes.bigEndian_integer_inj timestamp⟩
  exact UInt64.toNat_inj.1 (Bytes.bigEndian_inj block.tries.toNat_lt block'.tries.toNat_lt tries)

/-- Where the roots are equally long, the covered bytes determine the root and the predecessor's bytes too. -/
theorem predecessor_root_inj {block block' : Block} (size : block.merkleRoot.length = block'.merkleRoot.length)
    (h : block.preimage = block'.preimage) :
    predecessorBytes block.predecessor = predecessorBytes block'.predecessor ∧ block.merkleRoot = block'.merkleRoot := by
  obtain ⟨hp, hr⟩ := List.append_inj' (preimage_inj h).1 size
  refine ⟨hp, ?_⟩
  calc block.merkleRoot = ⟨block.merkleRoot.bytes⟩ := rfl
    _ = ⟨block'.merkleRoot.bytes⟩ := by rw [hr]

variable {engine : Engine} {block other last : Block}

/-! ## Predecessors -/

/-- The predecessor of a block that was made has bytes. -/
theorem Made.filter_predecessor (made : block.Made engine) :
    (block.predecessor.filter fun hash => !hash.isEmpty) = block.predecessor := by
  induction made with
  | sealed draft config now =>
    have twice : ((draft.predecessor.filter fun hash => !hash.isEmpty).filter fun hash => !hash.isEmpty) =
        draft.predecessor.filter fun hash => !hash.isEmpty := by
      simp only [Option.filter_filter, Bool.and_self]
    exact twice
  | retried _ config tries ih => exact ih

theorem Made.predecessor_ne_nil (made : block.Made engine) {hash : Hash} (some : block.predecessor = some hash) :
    hash.bytes ≠ [] := by
  intro none
  have kept := made.filter_predecessor
  rw [some] at kept
  simp [Option.filter, Hash.isEmpty, none] at kept

/-- An absent predecessor stands for no bytes and a present one for some, so blocks that were made have the same predecessor if it
stands for the same bytes. -/
theorem Made.predecessor_inj (made : block.Made engine) (made' : other.Made engine)
    (h : predecessorBytes block.predecessor = predecessorBytes other.predecessor) : block.predecessor = other.predecessor := by
  cases hp : block.predecessor with
  | none =>
    cases hp' : other.predecessor with
    | none => rfl
    | some hash' =>
      rw [hp, hp'] at h
      exact absurd h.symm (made'.predecessor_ne_nil hp')
  | some hash =>
    cases hp' : other.predecessor with
    | none =>
      rw [hp, hp'] at h
      exact absurd h (made.predecessor_ne_nil hp)
    | some hash' =>
      rw [hp, hp'] at h
      exact congrArg (fun bytes => some (Hash.mk bytes)) h

/-! ## What equal hashes mean -/

/-- Two blocks agree on what their covered bytes determine: on tries, on timestamp, and on the bytes of predecessor and root end to
end; and where their roots are equally long, on the root and on the predecessor, be it there or not. -/
structure Agrees (block other : Block) : Prop where
  tries : block.tries = other.tries
  timestamp : block.timestamp = other.timestamp
  front : predecessorBytes block.predecessor ++ block.merkleRoot.bytes = predecessorBytes other.predecessor ++ other.merkleRoot.bytes
  parts : block.merkleRoot.length = other.merkleRoot.length →
    block.merkleRoot = other.merkleRoot ∧ block.predecessor = other.predecessor

/-- Blocks that were made cover the same bytes if they agree, and not otherwise. -/
theorem Made.preimage_eq_iff (made : block.Made engine) (made' : other.Made engine) :
    block.preimage = other.preimage ↔ block.Agrees other := by
  constructor
  · intro h
    obtain ⟨front, tries, timestamp⟩ := preimage_inj h
    refine ⟨tries, timestamp, front, fun size => ?_⟩
    obtain ⟨predecessor, root⟩ := predecessor_root_inj size h
    exact ⟨root, made.predecessor_inj made' predecessor⟩
  · intro agrees
    rw [preimage, preimage, agrees.front, agrees.tries, agrees.timestamp]

/-- What the hash of a block commits to. Take two blocks that come from sealing and from setting the tries anew, over one engine, and
that store one algorithm. They have the same hash if they agree on tries and timestamp, over the whole range of each, and on the
bytes of predecessor and root end to end, which for equally long roots means on each of the two, or else if the bytes that they
cover are different and have one digest; and in no other case. So a block whose tries are set anew to two different numbers has
different hashes, unless just those two versions of it collide. -/
theorem Made.hash_commits (made : block.Made engine) (made' : other.Made engine) (algorithm : block.algorithm = other.algorithm) :
    (block.hash = other.hash ↔
        block.Agrees other ∨ engine.Collides block.algorithm [block.preimage, other.preimage]) ∧
      ∀ config config' tries tries', tries ≠ tries' →
        let first := (block.withTries ⟨engine, config⟩ tries).value
        let second := (block.withTries ⟨engine, config'⟩ tries').value
        first.hash = second.hash ↔ engine.Collides block.algorithm [first.preimage, second.preimage] := by
  constructor
  · rw [Engine.hash_eq_iff made.settled.hash made'.settled.hash algorithm, made.preimage_eq_iff made']
  · intro config config' tries tries' differ first second
    have again : first.Made engine := made.retried config tries
    have again' : second.Made engine := made.retried config' tries'
    have apart : ¬first.Agrees second := fun agrees => differ agrees.tries
    rw [Engine.hash_eq_iff again.settled.hash again'.settled.hash rfl, again.preimage_eq_iff again', or_iff_right apart]
    rfl

/-- Where roots are of different lengths, a byte of a predecessor can pass for one of a root: a block on top of a hash of one byte and
a first block have the same hash, while the engine, which returns what it is given, knows no collisions. Of the first of them,
tries of `2 ^ 63` and of zero make different hashes. -/
theorem Made.hash_commits_shifted :
    let plain : Combiner := ⟨Engine.identity, Config.standard⟩
    let signed := fun sender => (Transaction.assemble plain "" ⟨sender⟩ [] 5 .unknown).value
    let later := (((Draft.onTopOf ⟨[7]⟩).edit (.push (signed []))).sealWith plain 9).value
    let first := ((Draft.genesis.edit (.push (signed [7]))).sealWith plain 9).value
    later.predecessor ≠ first.predecessor ∧ later.hash = first.hash ∧
      (later.withTries plain 0x8000000000000000).value.hash ≠ (later.withTries plain 0).value.hash := by
  intro plain signed later first
  have made : later.Made Engine.identity := .sealed _ Config.standard 9
  have made' : first.Made Engine.identity := .sealed _ Config.standard 9
  have root : later.merkleRoot = (signed []).hash := made.settled.root.trans (Engine.merkleRoot_singleton ..)
  have root' : first.merkleRoot = (signed [7]).hash := made'.settled.root.trans (Engine.merkleRoot_singleton ..)
  have agrees : later.Agrees first := by
    refine ⟨rfl, rfl, ?_, fun size => ?_⟩
    · rw [root, root']
      rfl
    · rw [root, root'] at size
      cases size
  obtain ⟨commits, retried⟩ := made.hash_commits made' rfl
  refine ⟨nofun, commits.2 (Or.inl agrees), fun same => ?_⟩
  exact Engine.identity_not_collides ((retried Config.standard Config.standard 0x8000000000000000 0 (by decide)).1 same)

/-! ## Blocks that their hashes do not tell apart -/

/-- Two blocks have the same root and the same hash, both verify under every configuration of an engine, and a block that names one
of them as its predecessor names the other one too. -/
structure Twin (engine : Engine) (block other : Block) : Prop where
  merkleRoot : other.merkleRoot = block.merkleRoot
  hash : other.hash = block.hash
  verifies : ∀ config, (block.verify ⟨engine, config⟩).value = true ∧ (other.verify ⟨engine, config⟩).value = true
  links : ∀ next : Block, next.linksTo other = next.linksTo block

theorem Settled.verify_eq_true (settled : block.Settled engine) (config : Config) : (block.verify ⟨engine, config⟩).value = true :=
  (verify_iff ⟨engine, config⟩ settled.known).2 settled

theorem Twin.refl (settled : block.Settled engine) : block.Twin engine block where
  merkleRoot := rfl
  hash := rfl
  verifies config := ⟨settled.verify_eq_true config, settled.verify_eq_true config⟩
  links _ := rfl

theorem Twin.trans (twin : block.Twin engine other) (twin' : other.Twin engine last) : block.Twin engine last where
  merkleRoot := twin'.merkleRoot.trans twin.merkleRoot
  hash := twin'.hash.trans twin.hash
  verifies config := ⟨(twin.verifies config).1, (twin'.verifies config).2⟩
  links next := (twin'.links next).trans (twin.links next)

/-- Settled blocks are twins if they agree on algorithm, predecessor, tries and timestamp, and their transactions have one root. -/
theorem Settled.twin (settled : block.Settled engine) (settled' : other.Settled engine)
    (algorithm : other.algorithm = block.algorithm) (predecessor : other.predecessor = block.predecessor)
    (tries : other.tries = block.tries) (timestamp : other.timestamp = block.timestamp)
    (roots : engine.merkleRoot block.algorithm (leaves other.transactions) =
      engine.merkleRoot block.algorithm (leaves block.transactions)) : block.Twin engine other := by
  have merkleRoot : other.merkleRoot = block.merkleRoot := by
    rw [settled.root, settled'.root, algorithm, roots]
  have hash : other.hash = block.hash := by
    rw [settled.hash, settled'.hash, algorithm, preimage, preimage, predecessor, merkleRoot, tries, timestamp]
  refine ⟨merkleRoot, hash, fun config => ⟨settled.verify_eq_true config, settled'.verify_eq_true config⟩, fun next => ?_⟩
  rw [linksTo, linksTo, hash]

end Block

end SealedLedger
