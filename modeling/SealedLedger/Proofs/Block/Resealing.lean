import SealedLedger.Proofs.Configuration
import SealedLedger.Proofs.Settled

/-!
# Setting the tries anew and sealing afresh

To set a block's tries anew takes over the root, the predecessor and the algorithm that are stored, while sealing works them out from
a draft. Both come to the same, since a settled block is determined by its fields without the hash (`Block.Settled.eq_of_frame`): one
setting gives the block that the draft with these tries is sealed to (`Draft.withTries_sealWith`), and so does a run of them with the
last tries, under whatever configurations. Each setting is a single question, however many transactions there are. Main statement:
`Draft.retrying_reseals`.
-/

namespace SealedLedger

namespace Block

/-- The block with its tries set anew to each of some numbers, one after the other. -/
def retry (combiner : Combiner) (tries : List UInt64) (block : Block) : Traced Block :=
  tries.foldlM (fun block tries => block.withTries combiner tries) block

theorem retry_cons (combiner : Combiner) (first : UInt64) (rest : List UInt64) (block : Block) :
    block.retry combiner (first :: rest) = block.withTries combiner first >>= retry combiner rest :=
  List.foldlM_cons

variable {engine : Engine} {block other : Block}

/-- Settled blocks that agree on all fields but the hash are the same. -/
theorem Settled.eq_of_frame (settled : block.Settled engine) (settled' : other.Settled engine)
    (frame : other = { block with hash := other.hash }) : other = block := by
  have algorithm : other.algorithm = block.algorithm := by rw [frame]
  have covered : other.preimage = block.preimage := by
    rw [frame]
    rfl
  have hash : other.hash = block.hash := by
    rw [settled.hash, settled'.hash, algorithm, covered]
  rw [frame, hash]

/-- To set the tries of a settled block to what they are changes nothing. -/
theorem Settled.withTries_self (settled : block.Settled engine) (config : Config) :
    (block.withTries ⟨engine, config⟩ block.tries).value = block :=
  settled.eq_of_frame (Settled.withTries ⟨engine, config⟩ settled block.tries) rfl

/-- To set the tries of a settled block anew takes one question, about the bytes that the new version covers, and reports nothing. -/
theorem Settled.entries_withTries (settled : block.Settled engine) (config : Config) (tries : UInt64) :
    (block.withTries ⟨engine, config⟩ tries).entries = [.call block.algorithm ({ block with tries } : Block).preimage] := by
  rw [Block.withTries, Combiner.digestWith_of_known _ _ settled.known, ← encodeAll_fields]
  rfl

/-- A run of settings takes one question for each of them, in order. -/
theorem Settled.entries_retry (settled : block.Settled engine) (config : Config) (tries : List UInt64) :
    (block.retry ⟨engine, config⟩ tries).entries =
      tries.map fun tries => .call block.algorithm ({ block with tries } : Block).preimage := by
  induction tries generalizing block with
  | nil => rfl
  | cons first rest ih =>
    have next := Settled.withTries ⟨engine, config⟩ settled first
    rw [retry_cons, Traced.entries_bind, settled.entries_withTries, ih next, List.map_cons]
    rfl

end Block

namespace Draft

variable {engine : Engine}

/-- To set the tries of a sealed block anew is to seal the draft with these tries. -/
theorem withTries_sealWith (draft : Draft) (config config' : Config) (now : Int64) (tries : UInt64) :
    ((draft.sealWith ⟨engine, config⟩ now).value.withTries ⟨engine, config'⟩ tries).value =
      ((draft.edit (.tries tries)).sealWith ⟨engine, config⟩ now).value := by
  have fresh := Block.settled_sealWith ⟨engine, config⟩ now (draft.edit (.tries tries))
  have again := Block.Settled.withTries ⟨engine, config'⟩ (Block.settled_sealWith ⟨engine, config⟩ now draft) tries
  exact fresh.eq_of_frame again rfl

/-- To set the tries of a sealed block anew any number of times is to seal the draft with the last of them. -/
theorem retry_sealWith (draft : Draft) (config config' : Config) (now : Int64) (tries : List UInt64) :
    ((draft.sealWith ⟨engine, config⟩ now).value.retry ⟨engine, config'⟩ tries).value =
      ((draft.edit (.tries (tries.getLastD draft.tries))).sealWith ⟨engine, config⟩ now).value := by
  induction tries generalizing draft with
  | nil => rfl
  | cons first rest ih =>
    rw [Block.retry_cons, Traced.value_bind, withTries_sealWith, ih (draft.edit (.tries first)), List.getLastD_cons]
    rfl

/-- To set the tries anew is to seal afresh. Take a draft with a timestamp. Sealed by one combiner, and its tries set anew by another
one over the same engine to each of some numbers in turn, it becomes the very block that it is sealed to, at any time, with the last
of these numbers for its tries; on the way the engine is asked once for each number, about what the new version covers, and nothing
is reported. Any block that came about in this way stays what it is when its tries are set to what they are, and to set them to any
number takes just one question, whatever transactions it has. -/
theorem retrying_reseals (engine : Engine) :
    (∀ draft : Draft, draft.timestamp ≠ none → ∀ (config config' : Config) (now now' : Int64) (tries : List UInt64),
        let block := (draft.sealWith ⟨engine, config⟩ now).value
        let again := block.retry ⟨engine, config'⟩ tries
        again.value = ((draft.edit (.tries (tries.getLastD draft.tries))).sealWith ⟨engine, config⟩ now').value ∧
          again.entries = tries.map fun tries => .call block.algorithm ({ block with tries } : Block).preimage) ∧
      ∀ block : Block, block.Made engine → ∀ config : Config,
        (block.withTries ⟨engine, config⟩ block.tries).value = block ∧
          ∀ tries, (block.withTries ⟨engine, config⟩ tries).entries =
            [.call block.algorithm ({ block with tries } : Block).preimage] := by
  constructor
  · intro draft dated config config' now now' tries block again
    have settled : block.Settled engine := Block.settled_sealWith ⟨engine, config⟩ now draft
    refine ⟨?_, settled.entries_retry config' tries⟩
    have dated : (draft.edit (.tries (tries.getLastD draft.tries))).timestamp ≠ none := dated
    rw [← sealWith_of_timestamp _ ⟨engine, config⟩ dated now now']
    exact retry_sealWith draft config config' now tries
  · intro block made config
    exact ⟨made.settled.withTries_self config, made.settled.entries_withTries config⟩

/-- A draft on an empty predecessor, with three transactions and an unknown algorithm, sealed under SHA-512 as the algorithm to fall
back on; its tries are set three times under SHA-384, once to `2 ^ 63`. -/
theorem retrying_reseals_thrice :
    let sealing : Combiner := ⟨Engine.reversed, ⟨.sha512, by decide⟩⟩
    let mining : Combiner := ⟨Engine.reversed, ⟨.sha384, by decide⟩⟩
    let paid := (Transaction.assemble mining "paid" ⟨[1, 2]⟩ [3] 7 .sha1).value
    let draft : Draft :=
      { Draft.onTopOf ⟨[]⟩ with
        transactions := [paid, paid, paid], timestamp := some (-3), algorithm := some .unknown }
    let block := (draft.sealWith sealing 0).value
    let again := block.retry mining [0x8000000000000000, 5, 9]
    again.value = ((draft.edit (.tries 9)).sealWith sealing 1).value ∧
      again.calls.length = 3 ∧ again.events = [] ∧ (block.withTries mining block.tries).value = block := by
  intro sealing mining paid draft block again
  obtain ⟨runs, steps⟩ := retrying_reseals Engine.reversed
  obtain ⟨value, entries⟩ := runs draft (Option.some_ne_none _) sealing.config mining.config 0 1 [0x8000000000000000, 5, 9]
  have made : block.Made Engine.reversed := .sealed draft sealing.config 0
  refine ⟨value, ?_, ?_, (steps block made mining.config).1⟩
  · rw [Traced.calls, entries]
    rfl
  · rw [Traced.events, entries]
    rfl

end Draft

end SealedLedger
