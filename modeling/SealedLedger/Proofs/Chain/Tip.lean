import Mathlib.Data.List.Forall2
import Mathlib.Data.List.Induction
import SealedLedger.Proofs.Block.Commitment
import SealedLedger.Proofs.Collision
import SealedLedger.Proofs.Settled

/-!
# What the tip of a chain binds

Two valid chains with the same last hash agree block by block, or two of their blocks cover different bytes with one digest. The
chains are walked back together from their last blocks (`ValidChain.dropLast_cases` takes one block off): without a collision the
two last blocks cover the same bytes, so they name the same predecessor, whose hash is the tip of what is left. A first block
covers no predecessor's bytes and every other one at least one byte, so the chains also start together. Main statement:
`ValidChain.tip_binds`.
-/

namespace SealedLedger

namespace Block

/-- Two blocks agree on all that a hash covers, and on the hash. -/
structure SameHeader (block block' : Block) : Prop where
  predecessor : block.predecessor = block'.predecessor
  merkleRoot : block.merkleRoot = block'.merkleRoot
  tries : block.tries = block'.tries
  timestamp : block.timestamp = block'.timestamp
  hash : block.hash = block'.hash

/-- The hash is the digest of the covered bytes, which are among those asked for, and the root is as long as a digest. -/
structure Pinned (engine : Engine) (algorithm : Algorithm) (d : Nat) (asked : List Bytes) (block : Block) : Prop where
  hash : block.hash = ⟨engine algorithm block.preimage⟩
  root : block.merkleRoot.length = d
  asked : block.preimage ∈ asked

variable {engine : Engine} {algorithm : Algorithm} {d : Nat} {asked : List Bytes} {block block' : Block}

/-- Without a collision, blocks with the same hash cover the same bytes. -/
theorem Pinned.preimage_eq (no : ¬engine.Collides algorithm asked) (pinned : block.Pinned engine algorithm d asked)
    (pinned' : block'.Pinned engine algorithm d asked) (h : block.hash = block'.hash) : block.preimage = block'.preimage := by
  rw [pinned.hash, pinned'.hash] at h
  exact (Engine.eq_or_collides pinned.asked pinned'.asked (congrArg Hash.bytes h)).resolve_right no

/-- A hash that the engine made has the engine's length, so it is told apart from no bytes at all. -/
theorem Pinned.hash_bytes_ne_nil (digests : ∀ data, (engine algorithm data).length = d) (positive : 1 ≤ d)
    (pinned : block.Pinned engine algorithm d asked) : block.hash.bytes ≠ [] := by
  intro h
  have hd := digests block.preimage
  have he : engine algorithm block.preimage = [] := by rwa [pinned.hash] at h
  rw [he, List.length_nil] at hd
  omega

/-- Blocks that cover the same bytes, name the same predecessor and have the same hash agree on their headers. -/
theorem Pinned.sameHeader (pinned : block.Pinned engine algorithm d asked) (pinned' : block'.Pinned engine algorithm d asked)
    (covered : block.preimage = block'.preimage) (predecessor : block.predecessor = block'.predecessor)
    (hash : block.hash = block'.hash) : block.SameHeader block' := by
  obtain ⟨-, tries, timestamp⟩ := preimage_inj covered
  obtain ⟨-, root⟩ := predecessor_root_inj (pinned.root.trans pinned'.root.symm) covered
  exact ⟨predecessor, root, tries, timestamp, hash⟩

end Block

/-- One more block is linked if the blocks before it are and it names the last of them. -/
theorem linked_concat (blocks : List Block) (previous block : Block) :
    Linked (blocks ++ [previous, block]) ↔ Linked (blocks ++ [previous]) ∧ block.linksTo previous = true := by
  induction blocks with
  | nil => simp [Linked]
  | cons first rest ih =>
    cases rest with
    | nil =>
      simp only [List.nil_append, List.cons_append, Linked, and_true]
    | cons second rest =>
      simp only [List.cons_append, Linked, and_assoc] at ih ⊢
      rw [ih]

namespace ValidChain

variable {combiner : Combiner} {blocks : List Block} {block : Block}

/-- A chain has a block. -/
theorem ne_nil (chain : ValidChain combiner blocks) : blocks ≠ [] := by
  rintro rfl
  obtain ⟨first, head, -⟩ := chain.first
  cases head

/-- The last block of a chain is the only one and has no predecessor, or it names the last one of a shorter chain. -/
theorem dropLast_cases (chain : ValidChain combiner (blocks ++ [block])) :
    (blocks = [] ∧ block.predecessor = none) ∨
      ∃ earlier previous, blocks = earlier ++ [previous] ∧ block.predecessor = some previous.hash ∧
        ValidChain combiner (earlier ++ [previous]) := by
  obtain ⟨⟨first, head, genesis⟩, linked, verified⟩ := chain
  rcases List.eq_nil_or_concat blocks with rfl | ⟨earlier, previous, rfl⟩
  · left
    cases head
    exact ⟨rfl, Option.isNone_iff_eq_none.1 genesis⟩
  · right
    rw [List.concat_eq_append] at head linked verified ⊢
    rw [List.append_assoc, List.singleton_append, linked_concat] at linked
    refine ⟨earlier, previous, rfl, of_decide_eq_true linked.2, ⟨first, ?_, genesis⟩, linked.1, ?_⟩
    · cases earlier with
      | nil => exact head
      | cons oldest rest => exact head
    · intro b hb
      exact verified b (List.mem_append_left _ hb)

/-- Without a collision, chains with the same last hash agree block by block. -/
theorem sameHeaders_of_tip {engine : Engine} {algorithm : Algorithm} {d : Nat} {asked : List Bytes}
    (no : ¬engine.Collides algorithm asked) (digests : ∀ data, (engine algorithm data).length = d) (positive : 1 ≤ d)
    {combiner combiner' : Combiner} {blocks blocks' : List Block} (chain : ValidChain combiner blocks)
    (chain' : ValidChain combiner' blocks') (pinned : ∀ b ∈ blocks, b.Pinned engine algorithm d asked)
    (pinned' : ∀ b ∈ blocks', b.Pinned engine algorithm d asked)
    (tips : blocks.getLast?.map Block.hash = blocks'.getLast?.map Block.hash) :
    List.Forall₂ Block.SameHeader blocks blocks' := by
  induction blocks using List.reverseRecOn generalizing blocks' with
  | nil => exact absurd rfl chain.ne_nil
  | append_singleton blocks block ih =>
    obtain ⟨blocks', block', rfl⟩ := (List.eq_nil_or_concat blocks').resolve_left chain'.ne_nil
    rw [List.concat_eq_append] at *
    simp only [List.getLast?_concat, Option.map_some, Option.some.injEq] at tips
    have last := pinned block (by simp)
    have last' := pinned' block' (by simp)
    have covered := last.preimage_eq no last' tips
    have named := (Block.predecessor_root_inj (last.root.trans last'.root.symm) covered).1
    rcases chain.dropLast_cases with ⟨rfl, none⟩ | ⟨earlier, previous, rfl, some, shorter⟩
    · rcases chain'.dropLast_cases with ⟨rfl, none'⟩ | ⟨earlier', previous', rfl, some', -⟩
      · exact .cons (last.sameHeader last' covered (none.trans none'.symm) tips) .nil
      · rw [none, some'] at named
        exact absurd named.symm ((pinned' previous' (by simp)).hash_bytes_ne_nil digests positive)
    · rcases chain'.dropLast_cases with ⟨rfl, none'⟩ | ⟨earlier', previous', rfl, some', shorter'⟩
      · rw [some, none'] at named
        exact absurd named ((pinned previous (by simp)).hash_bytes_ne_nil digests positive)
      · rw [some, some'] at named
        have link : previous.hash = previous'.hash := congrArg Hash.mk named
        have before := ih shorter shorter' (fun b hb => pinned b (List.mem_append_left _ hb))
          (fun b hb => pinned' b (List.mem_append_left _ hb)) (by simpa using link)
        refine List.rel_append before (.cons ?_ .nil)
        exact last.sameHeader last' covered (some.trans ((congrArg _ link).trans some'.symm)) tips

/-- What the tip of a chain binds. Take two valid chains, of any lengths and under any configurations of one engine, whose blocks
were made by sealing and setting tries anew, store one algorithm and have Merkle roots as long as its digests, which are not
empty. If their last blocks have the same hash, the chains are equally long and agree block by block on predecessor, root, tries,
timestamp and hash, or some two of their blocks cover different bytes with the same digest. -/
theorem tip_binds {engine : Engine} {algorithm : Algorithm} {d : Nat} (digests : ∀ data, (engine algorithm data).length = d)
    (positive : 1 ≤ d) {config config' : Config} {blocks blocks' : List Block} (chain : ValidChain ⟨engine, config⟩ blocks)
    (chain' : ValidChain ⟨engine, config'⟩ blocks') (made : ∀ block ∈ blocks ++ blocks', ∃ maker, block.Made maker)
    (stored : ∀ block ∈ blocks ++ blocks', block.algorithm = algorithm ∧ block.merkleRoot.length = d)
    (tips : blocks.getLast?.map Block.hash = blocks'.getLast?.map Block.hash) :
    List.Forall₂ Block.SameHeader blocks blocks' ∨
      engine.Collides algorithm ((blocks ++ blocks').map Block.preimage) := by
  by_cases no : engine.Collides algorithm ((blocks ++ blocks').map Block.preimage)
  · exact Or.inr no
  · left
    have pinned : ∀ block ∈ blocks ++ blocks', ∀ config, (block.verify ⟨engine, config⟩).value = true →
        block.Pinned engine algorithm d ((blocks ++ blocks').map Block.preimage) := by
      intro block hb config verified
      obtain ⟨maker, hm⟩ := made block hb
      obtain ⟨rfl, root⟩ := stored block hb
      exact ⟨((Block.verify_iff _ hm.settled.known).1 verified).hash, root, List.mem_map_of_mem hb⟩
    exact sameHeaders_of_tip no digests positive chain chain'
      (fun b hb => pinned b (List.mem_append_left _ hb) config (chain.verified b hb))
      (fun b hb => pinned b (List.mem_append_right _ hb) config' (chain'.verified b hb)) tips

/-- An engine that answers with zeros gives chains of one and of two blocks the same tip, and the collision shows. -/
theorem tip_binds_zeros :
    let oldest := (Draft.genesis.sealWith ⟨Engine.zeros, Config.standard⟩ 0).value
    let newest := ((Draft.onTopOf (Hash.zero 32)).sealWith ⟨Engine.zeros, Config.standard⟩ 1).value
    let other : Config := ⟨.sha512, by decide⟩
    ValidChain ⟨Engine.zeros, Config.standard⟩ [oldest] ∧ ValidChain ⟨Engine.zeros, other⟩ [oldest, newest] ∧
      Engine.zeros.Collides .sha256 ([oldest, oldest, newest].map Block.preimage) := by
  intro oldest newest other
  have made : ∀ block ∈ [oldest] ++ [oldest, newest], block.Made Engine.zeros := by
    simp only [List.cons_append, List.nil_append, List.forall_mem_cons, List.not_mem_nil, false_imp_iff, implies_true, and_true]
    exact ⟨.sealed .., .sealed .., .sealed ..⟩
  have stored : ∀ block ∈ [oldest] ++ [oldest, newest], block.algorithm = .sha256 ∧ block.merkleRoot.length = 32 := by
    intro block hb
    have alg : block.algorithm = .sha256 ∧ block.transactions = [] := by
      revert block
      simp only [List.cons_append, List.nil_append, List.forall_mem_cons, List.not_mem_nil, false_imp_iff, implies_true, and_true]
      exact ⟨⟨rfl, rfl⟩, ⟨rfl, rfl⟩, rfl, rfl⟩
    rw [(made block hb).settled.root, alg.1, alg.2]
    exact ⟨rfl, rfl⟩
  have chain : ValidChain ⟨Engine.zeros, Config.standard⟩ [oldest] := by
    refine ⟨⟨oldest, rfl, rfl⟩, trivial, fun block hb => ?_⟩
    have settled := (made block (List.mem_append_left _ hb)).settled
    exact (Block.verify_iff _ settled.known).2 settled
  have chain' : ValidChain ⟨Engine.zeros, other⟩ [oldest, newest] := by
    refine ⟨⟨oldest, rfl, rfl⟩, ⟨by decide, trivial⟩, fun block hb => ?_⟩
    have settled := (made block (List.mem_append_right _ hb)).settled
    exact (Block.verify_iff _ settled.known).2 settled
  have binds := tip_binds (fun _ => rfl) (by decide) chain chain' (fun block hb => ⟨_, made block hb⟩) stored rfl
  exact ⟨chain, chain', binds.resolve_left nofun⟩

end ValidChain

end SealedLedger
