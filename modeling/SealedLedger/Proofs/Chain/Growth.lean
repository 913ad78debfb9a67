import Mathlib.Data.List.Chain
import SealedLedger.Proofs.Block.Drafting
import SealedLedger.Proofs.Settled

/-!
# Chains that grow block by block

A chain grows from a first block, sealed without a predecessor, by blocks that are each sealed on top of the hash of the last one.
Before it is sealed a draft may be changed at will, and afterwards the tries may be set anew at will; neither touches the
predecessor (`Draft.predecessor_editAll`, `Block.Retried.frame`). So a block follows the one it was sealed on, whose tries have to
stay what they were. Only where a hash has no bytes does the block sealed on it start anew, since no bytes count as no predecessor.
Main statement: `Grown.linkage`.
-/

namespace SealedLedger

/-! ## Drafts and blocks along the way -/

namespace Block

variable {engine : Engine} {block again : Block}

/-- The blocks that come from a block by setting the tries anew any number of times, by combiners over one engine. -/
inductive Retried (engine : Engine) (block : Block) : Block → Prop where
  | refl : Retried engine block block
  | again {retried : Block} (before : Retried engine block retried) (config : Config) (tries : UInt64) :
    Retried engine block (retried.withTries ⟨engine, config⟩ tries).value

/-- Setting the tries anew changes the tries and the hash and nothing else. -/
theorem Retried.frame (retried : block.Retried engine again) : again = { block with tries := again.tries, hash := again.hash } := by
  induction retried with
  | refl => rfl
  | again _ config tries ih =>
    rw [ih]
    rfl

theorem Retried.made (retried : block.Retried engine again) (made : block.Made engine) : again.Made engine := by
  induction retried with
  | refl => exact made
  | again _ config tries ih => exact ih.retried config tries

theorem Retried.settled (retried : block.Retried engine again) (settled : block.Settled engine) : again.Settled engine := by
  induction retried with
  | refl => exact settled
  | again _ config tries ih => exact Settled.withTries ⟨engine, config⟩ ih tries

/-- The blocks that come from a draft by changing it, sealing it and setting the tries anew, by combiners over one engine. -/
def ComesFrom (engine : Engine) (start : Draft) (block : Block) : Prop :=
  ∃ edits config now, ((start.editAll edits).sealWith ⟨engine, config⟩ now).value.Retried engine block

theorem ComesFrom.made {start : Draft} (comes : block.ComesFrom engine start) : block.Made engine := by
  obtain ⟨edits, config, now, retried⟩ := comes
  exact retried.made (.sealed (start.editAll edits) config now)

/-- The predecessor is the one of the draft at its start, unless that has no bytes. -/
theorem ComesFrom.predecessor {start : Draft} (comes : block.ComesFrom engine start) :
    block.predecessor = start.predecessor.filter fun hash => !hash.isEmpty := by
  obtain ⟨edits, config, now, retried⟩ := comes
  rw [retried.frame]
  exact congrArg (Option.filter _) (start.predecessor_editAll edits)

theorem ComesFrom.retried {start : Draft} (comes : block.ComesFrom engine start) (retried : block.Retried engine again) :
    again.ComesFrom engine start := by
  obtain ⟨edits, config, now, before⟩ := comes
  refine ⟨edits, config, now, ?_⟩
  induction retried with
  | refl => exact before
  | again _ config tries ih => exact ih.again config tries

/-! ## How a block stands to others -/

/-- A block stands alone: it has no predecessor and names no block as one. -/
structure Alone (block : Block) : Prop where
  genesis : block.isGenesis = true
  unlinked : ∀ other, block.linksTo other = false

/-- A block follows another one: it names that block and those with the same hash as its predecessor, and no others. If the other
one's tries are set anew to a different number, the two versions of it cover different bytes, and the block names the new version
if and only if the engine gives both the same digest. -/
structure Follows (engine : Engine) (block previous : Block) : Prop where
  later : block.isGenesis = false
  links : block.linksTo previous = true
  only : ∀ other, block.linksTo other = true ↔ other.hash = previous.hash
  retried : ∀ again, previous.Retried engine again → again.tries ≠ previous.tries →
    again.preimage ≠ previous.preimage ∧
      (block.linksTo again = true ↔
        engine previous.algorithm again.preimage = engine previous.algorithm previous.preimage)

theorem alone_of_predecessor (none : block.predecessor = none) : block.Alone := by
  refine ⟨?_, fun other => ?_⟩
  · rw [isGenesis, none]
    rfl
  · rw [linksTo, none]
    rfl

/-- Versions of a block with different tries cover different bytes, so their hashes are equal only by a collision. -/
theorem Retried.hash_eq_iff (retried : block.Retried engine again) (made : block.Made engine) (differ : again.tries ≠ block.tries) :
    again.preimage ≠ block.preimage ∧
      (again.hash = block.hash ↔ engine block.algorithm again.preimage = engine block.algorithm block.preimage) := by
  have algorithm : again.algorithm = block.algorithm := by rw [retried.frame]
  refine ⟨fun same => differ (preimage_inj same).2.1, ?_⟩
  rw [(retried.made made).settled.hash, made.settled.hash, algorithm, Hash.mk.injEq]

theorem follows_of_predecessor {previous : Block} (some : block.predecessor = some previous.hash) (made : previous.Made engine) :
    block.Follows engine previous := by
  have only : ∀ other, block.linksTo other = true ↔ other.hash = previous.hash := by
    intro other
    rw [linksTo, some, decide_eq_true_iff, Option.some.injEq, eq_comm]
  refine ⟨?_, (only previous).2 rfl, only, fun again retried differ => ?_⟩
  · rw [isGenesis, some]
    rfl
  · rw [only again]
    exact retried.hash_eq_iff made differ

/-- An engine that never returns no bytes leaves no block without a hash. -/
theorem Made.hash_not_empty (made : block.Made engine) (digests : ∀ algorithm data, engine algorithm data ≠ []) :
    block.hash.isEmpty = false := by
  rw [made.settled.hash, Hash.isEmpty, List.isEmpty_eq_false_iff]
  exact digests _ _

/-- A block sealed on a hash follows the block with that hash, or stands alone if the hash has no bytes. -/
theorem ComesFrom.alone_or_follows {previous : Block} (comes : block.ComesFrom engine (Draft.onTopOf previous.hash))
    (made : previous.Made engine) : if previous.hash.isEmpty then block.Alone else block.Follows engine previous := by
  have named := comes.predecessor
  cases he : previous.hash.isEmpty with
  | true =>
    have none : block.predecessor = none := by simpa [Draft.onTopOf, Option.filter, he] using named
    exact alone_of_predecessor none
  | false =>
    have some : block.predecessor = some previous.hash := by simpa [Draft.onTopOf, Option.filter, he] using named
    exact follows_of_predecessor some made

end Block

/-! ## Chains -/

/-- Neighbours are linked where the later of the two names the earlier. -/
theorem linked_iff_isChain (blocks : List Block) :
    Linked blocks ↔ blocks.IsChain fun previous block => block.linksTo previous = true := by
  fun_induction Linked blocks with
  | case1 previous block rest ih => rw [List.isChain_cons_cons, ih]
  | case2 blocks short =>
    match blocks, short with
    | [], _ => simp
    | [_], _ => simp
    | _ :: _ :: _, short => exact absurd rfl (short _ _ _)

/-- Chains that grow from a block without a predecessor, each further block being sealed on top of the hash of the last one. -/
inductive Grown (engine : Engine) : List Block → Prop where
  | first {block : Block} (comes : block.ComesFrom engine Draft.genesis) : Grown engine [block]
  | next {blocks : List Block} {previous block : Block} (grown : Grown engine blocks) (last : previous ∈ blocks.getLast?)
    (comes : block.ComesFrom engine (Draft.onTopOf previous.hash)) : Grown engine (blocks ++ [block])

namespace Grown

variable {engine : Engine} {blocks : List Block}

theorem made (grown : Grown engine blocks) : ∀ block ∈ blocks, block.Made engine := by
  induction grown with
  | first comes =>
    intro block h
    obtain rfl := List.mem_singleton.1 h
    exact comes.made
  | next _ _ comes ih =>
    intro block h
    rcases List.mem_append.1 h with h | h
    · exact ih block h
    · obtain rfl := List.mem_singleton.1 h
      exact comes.made

/-- The first block is sealed without a predecessor. -/
theorem head_comesFrom (grown : Grown engine blocks) : ∃ first ∈ blocks.head?, first.ComesFrom engine Draft.genesis := by
  induction grown with
  | first comes => exact ⟨_, rfl, comes⟩
  | next _ _ _ ih =>
    obtain ⟨first, head, comes⟩ := ih
    exact ⟨first, List.mem_head?_append_of_mem_head? head, comes⟩

/-- Every further block is sealed on top of the hash of the one before it. -/
theorem isChain_comesFrom (grown : Grown engine blocks) :
    blocks.IsChain fun previous block => block.ComesFrom engine (Draft.onTopOf previous.hash) := by
  induction grown with
  | first => exact .singleton _
  | next _ last comes ih =>
    refine List.isChain_append.2 ⟨ih, .singleton _, fun x hx y hy => ?_⟩
    obtain rfl := Option.mem_unique hx last
    obtain rfl := Option.some.inj hy
    exact comes

/-- The first block stands alone, whichever tries it is given. -/
theorem first_alone (grown : Grown engine blocks) :
    ∃ first ∈ blocks.head?, ∀ again, first.Retried engine again → again.Alone := by
  obtain ⟨first, head, comes⟩ := grown.head_comesFrom
  refine ⟨first, head, fun again retried => ?_⟩
  exact Block.alone_of_predecessor (comes.retried retried).predecessor

/-- Every further block, whichever tries it is given, follows the one before it, or stands alone if that one's hash has no bytes. -/
theorem neighbours (grown : Grown engine blocks) :
    blocks.IsChain fun previous block => ∀ again, block.Retried engine again →
      if previous.hash.isEmpty then again.Alone else again.Follows engine previous := by
  refine List.IsChain.imp_of_mem_imp (fun previous block hp _ comes again retried => ?_) grown.isChain_comesFrom
  exact (comes.retried retried).alone_or_follows (grown.made previous hp)

/-- Where the engine never returns no bytes, every further block follows the one before it. -/
theorem neighbours_follow (grown : Grown engine blocks) (digests : ∀ algorithm data, engine algorithm data ≠ []) :
    blocks.IsChain fun previous block => ∀ again, block.Retried engine again → again.Follows engine previous := by
  refine List.IsChain.imp_of_mem_imp (fun previous block hp _ stands again retried => ?_) grown.neighbours
  have follows := stands again retried
  rwa [(grown.made previous hp).hash_not_empty digests, if_neg Bool.false_ne_true] at follows

/-- How the blocks of a grown chain stand to each other. Each comes from a draft that was changed at will, and had its tries set
anew at will, before the next one was sealed on it and afterwards. With an engine that never returns no bytes, the first block
stands alone and every further one follows the one before it, also under any other tries of its own, so the chain is valid under
every configuration. With any engine, a further block stands alone if the hash it was sealed on has no bytes, and follows the one
before it otherwise. -/
theorem linkage (grown : Grown engine blocks) :
    (∃ first ∈ blocks.head?, ∀ again, first.Retried engine again → again.Alone) ∧
      ((∀ algorithm data, engine algorithm data ≠ []) →
        (blocks.IsChain fun previous block => ∀ again, block.Retried engine again → again.Follows engine previous) ∧
          ∀ config, ValidChain ⟨engine, config⟩ blocks) ∧
        blocks.IsChain fun previous block => ∀ again, block.Retried engine again →
          if previous.hash.isEmpty then again.Alone else again.Follows engine previous := by
  refine ⟨grown.first_alone, fun digests => ⟨grown.neighbours_follow digests, fun config => ?_⟩, grown.neighbours⟩
  obtain ⟨first, head, alone⟩ := grown.first_alone
  refine ⟨⟨first, head, (alone first .refl).genesis⟩, ?_, fun block hb => ?_⟩
  · rw [linked_iff_isChain]
    exact (grown.neighbours_follow digests).imp fun previous block follows => (follows block .refl).links
  · exact (grown.made block hb).settled.verify_eq_true config

/-- A block sealed on another one, whose tries were set anew before, loses it when they are set anew once more. With an engine that
returns no bytes, the second of two blocks stands alone. -/
theorem linkage_retried :
    let marked : Combiner := ⟨fun _ data => 1 :: data, Config.standard⟩
    let other : Combiner := ⟨marked.engine, ⟨.sha512, by decide⟩⟩
    let oldest := ((Draft.genesis.sealWith marked 0).value.withTries other 7).value
    let newest := (((Draft.onTopOf oldest.hash).edit (.tries 3)).sealWith other 1).value
    let again := (oldest.withTries marked 8).value
    let silent : Combiner := ⟨Engine.empty, Config.standard⟩
    let nameless := (Draft.genesis.sealWith silent 0).value
    let anew := ((Draft.onTopOf nameless.hash).sealWith silent 1).value
    (Grown marked.engine [oldest, newest] ∧ ValidChain other [oldest, newest] ∧ newest.linksTo oldest = true ∧
      newest.linksTo again = false) ∧ Grown silent.engine [nameless, anew] ∧ anew.Alone := by
  intro marked other oldest newest again silent nameless anew
  have digests : ∀ algorithm data, marked.engine algorithm data ≠ [] := fun _ _ => List.cons_ne_nil _ _
  have first : Grown marked.engine [oldest] := .first ⟨[], marked.config, 0, .again .refl other.config 7⟩
  have grown : Grown marked.engine [oldest, newest] := first.next rfl ⟨[.tries 3], other.config, 1, .refl⟩
  obtain ⟨-, linked, -⟩ := linkage grown
  obtain ⟨chain, valid⟩ := linked digests
  have follows := (List.isChain_cons_cons.1 chain).1 newest .refl
  obtain ⟨differ, same⟩ := follows.retried again (.again .refl marked.config 8) (by decide)
  have broken : newest.linksTo again = false := by
    refine Bool.eq_false_iff.2 fun links => differ ?_
    exact (List.cons.inj (same.1 links)).2
  have start : Grown silent.engine [nameless] := .first ⟨[], silent.config, 0, .refl⟩
  have quiet : Grown silent.engine [nameless, anew] := start.next rfl ⟨[], silent.config, 1, .refl⟩
  obtain ⟨-, -, stands⟩ := linkage quiet
  exact ⟨⟨grown, valid other.config, follows.links, broken⟩, quiet, (List.isChain_cons_cons.1 stands).1 anew .refl⟩

end Grown

end SealedLedger
