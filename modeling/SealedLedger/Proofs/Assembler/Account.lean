import Mathlib.Data.List.DropRight
import SealedLedger.Proofs.Assembler.Step
import SealedLedger.Proofs.Settled
import SealedLedger.Proofs.Showing

/-!
# The account of an assembler's queue

A run of calls is recorded call by call (`Assembler.history`). Every record shows one of five outcomes (`Occurrence.Outcome`), and
to the queue each of these does one of three things (`Occurrence.Effect`): one transaction was added at its end, all of it was
taken off as a batch, or nothing changed. What is answered shows the queue: the report on a block all that was waiting before it, place
by place, and so do the answers to questions about it (`Occurrence.Regular`). Along a run this adds up: what was added is, in order,
what was taken off batch by batch and what is still waiting. Main statement: `Assembler.run_accounts`.
-/

namespace SealedLedger

namespace Assembler

open Boundary Text

/-- A call whose texts are refused. -/
inductive Call.Unreadable : Call → Prop where
  | add (text : String) {senderHash signature : String} (refused : Refused (readSigned senderHash signature)) :
    Unreadable (.add text senderHash signature)
  | sealPending {predecessor : Option String} (refused : Refused (parseOptionalHash predecessor)) (tries : UInt32)
    (data : Option String) : Unreadable (.sealPending predecessor tries data)

/-- A call that only asks. -/
inductive Call.Asks : Call → Prop where
  | pending : Asks .pending
  | pendingCount : Asks .pendingCount
  | addressHash (name publicKey : String) : Asks (.addressHash name publicKey)
  | algorithm : Asks .algorithm

/-- What an assembler answers when it is asked. -/
inductive Call.Answered (assembler : Assembler) : Call → Except Refusal Reply → Prop where
  | pending : Answered assembler .pending (.ok (.pending assembler.pendingInfos))
  | pendingCount : Answered assembler .pendingCount (.ok (.count assembler.pendingCount))
  | addressHash (name publicKey : String) :
    Answered assembler (.addressHash name publicKey) ((assembler.addressHash name publicKey).value.map .hash)
  | algorithm : Answered assembler .algorithm (.ok (.algorithm assembler.algorithm.name))

theorem Call.Answered.asks {assembler : Assembler} {call : Call} {reply : Except Refusal Reply}
    (answered : call.Answered assembler reply) : call.Asks := by
  cases answered with
  | pending => exact .pending
  | pendingCount => exact .pendingCount
  | addressHash name publicKey => exact .addressHash name publicKey
  | algorithm => exact .algorithm

/-- What there is to record of one call: when and on what it was made, what it left, answered and wrote. -/
structure Occurrence where
  before : Assembler
  now : Binary64
  call : Call
  after : Assembler
  reply : Except Refusal Reply
  lines : List String

/-- The record of a call. -/
def occurrence (assembler : Assembler) (now : Binary64) (call : Call) : Occurrence where
  before := assembler
  now := now
  call := call
  after := (assembler.step now call).value.1
  reply := (assembler.step now call).value.2
  lines := (assembler.step now call).lines

/-- The records of the calls of a run, in order. -/
def history (assembler : Assembler) : List (Binary64 × Call) → List Occurrence
  | [] => []
  | (now, call) :: calls => assembler.occurrence now call :: history (assembler.step now call).value.1 calls

theorem occurrence_eq {assembler next : Assembler} {now : Binary64} {call : Call} {reply : Except Refusal Reply}
    {lines : List String} (value : (assembler.step now call).value = (next, reply))
    (written : (assembler.step now call).lines = lines) :
    assembler.occurrence now call = ⟨assembler, now, call, next, reply, lines⟩ := by
  rw [occurrence, value, written]

namespace Occurrence

/-- The transaction of a call that added one: that of its texts, the time, and the assembler's algorithm. -/
def added (occurrence : Occurrence) : Option Transaction :=
  match occurrence.call, occurrence.reply with
  | .add text senderHash signature, .ok _ =>
    match readSigned senderHash signature with
    | .ok (senderHash, signature) =>
      some (Transaction.assemble Combiner.standard text senderHash signature occurrence.now.toInt64
        occurrence.before.algorithm).value
    | .error _ => none
  | _, _ => none

/-- The block of a call that sealed one. -/
def block (occurrence : Occurrence) : Option Block :=
  match occurrence.call, occurrence.reply with
  | .sealPending predecessor tries data, .ok _ =>
    match parseOptionalHash predecessor with
    | .ok predecessor =>
      some ((occurrence.before.draft occurrence.now predecessor tries data).sealWith Combiner.standard
        occurrence.now.toInt64).value
    | .error _ => none
  | _, _ => none

/-- Whether a call sealed or cleared. -/
def empties (occurrence : Occurrence) : Bool :=
  match occurrence.call, occurrence.reply with
  | .sealPending _ _ _, .ok _ => true
  | .clear, .ok _ => true
  | _, _ => false

/-- The transactions that a call took off: those of the sealed block, or those that were cleared. -/
def batch (occurrence : Occurrence) : Option (List Transaction) :=
  match occurrence.call, occurrence.reply with
  | .clear, .ok _ => some occurrence.before.pending
  | _, _ => occurrence.block.map Block.transactions

/-- How a call can go. -/
inductive Outcome : Occurrence → Prop where
  | added {before : Assembler} {now : Binary64} {text senderHash signature : String} {hash : Hash} {bytes : Bytes}
    (read : readSigned senderHash signature = .ok (hash, bytes)) {transaction : Transaction}
    (assembled : (Transaction.assemble Combiner.standard text hash bytes now.toInt64 before.algorithm).value = transaction) :
    Outcome ⟨before, now, .add text senderHash signature, { before with pending := before.pending ++ [transaction] },
      .ok (.hash transaction.hash.hex), []⟩
  | sealed {before : Assembler} {now : Binary64} {predecessor : Option String} {hash : Option Hash}
    (read : parseOptionalHash predecessor = .ok hash) (tries : UInt32) (data : Option String) {block : Block}
    (made : ((before.draft now hash tries data).sealWith Combiner.standard now.toInt64).value = block) :
    Outcome ⟨before, now, .sealPending predecessor tries data, { before with pending := [] },
      .ok (.block (BlockInfo.ofBlock block)), [sealedLine block]⟩
  | cleared (before : Assembler) (now : Binary64) :
    Outcome ⟨before, now, .clear, { before with pending := [] }, .ok .done, []⟩
  | refused {before : Assembler} {now : Binary64} {call : Call} (unreadable : call.Unreadable) (refusal : Refusal) :
    Outcome ⟨before, now, call, before, .error refusal, []⟩
  | asked {before : Assembler} (now : Binary64) {call : Call} {reply : Except Refusal Reply} (answered : call.Answered before reply) :
    Outcome ⟨before, now, call, before, reply, []⟩

end Occurrence

/-- Every call goes one of these ways. -/
theorem outcome_occurrence (assembler : Assembler) (now : Binary64) (call : Call) :
    (assembler.occurrence now call).Outcome := by
  cases call with
  | add text senderHash signature =>
    cases read : readSigned senderHash signature with
    | error refusal =>
      have stays := assembler.step_add_of_error now text read
      rw [occurrence_eq (congrArg Traced.value stays) (congrArg Traced.lines stays)]
      exact .refused (.add text ⟨refusal, read⟩) refusal
    | ok signed =>
      obtain ⟨value, written⟩ := assembler.step_add_of_ok now text read
      rw [occurrence_eq value written]
      exact .added read rfl
  | sealPending predecessor tries data =>
    cases read : parseOptionalHash predecessor with
    | error fault =>
      have stays := assembler.step_seal_of_error now read tries data
      rw [occurrence_eq (congrArg Traced.value stays) (congrArg Traced.lines stays)]
      exact .refused (.sealPending ⟨fault, read⟩ tries data) (.fault fault)
    | ok hash =>
      obtain ⟨value, written⟩ := assembler.step_seal_of_ok now read tries data
      rw [occurrence_eq value written]
      exact .sealed read tries data rfl
  | clear => exact .cleared assembler now
  | pending => exact .asked now .pending
  | pendingCount => exact .asked now .pendingCount
  | addressHash name publicKey =>
    obtain ⟨value, written⟩ := assembler.step_addressHash now name publicKey
    rw [occurrence_eq value written]
    exact .asked now (.addressHash name publicKey)
  | algorithm => exact .asked now .algorithm

namespace Occurrence

variable {o : Occurrence}

/-! ## What a call does to the queue -/

/-- What a call does to the queue. -/
inductive Effect (o : Occurrence) : Prop where
  | grows (transaction : Transaction) (added : o.added = some transaction) (batch : o.batch = none) (empties : o.empties = false)
    (after : o.after.pending = o.before.pending ++ [transaction])
  | empties (added : o.added = none) (batch : o.batch = some o.before.pending) (empties : o.empties = true)
    (after : o.after.pending = [])
  | stays (added : o.added = none) (batch : o.batch = none) (empties : o.empties = false) (after : o.after = o.before)

theorem Outcome.effect (outcome : o.Outcome) : o.Effect := by
  cases outcome with
  | added read assembled =>
    refine .grows _ ?_ rfl rfl rfl
    simp only [Occurrence.added, read, assembled]
  | sealed read tries data made =>
    refine .empties rfl ?_ rfl rfl
    simp only [batch, block, read, Option.map_some]
    rfl
  | cleared before now => exact .empties rfl rfl rfl rfl
  | refused unreadable refusal =>
    cases unreadable with
    | add _ _ => exact .stays rfl rfl rfl rfl
    | sealPending _ _ _ => exact .stays rfl rfl rfl rfl
  | asked now answered => cases answered <;> exact .stays rfl rfl rfl rfl

/-! ## What a call answers and writes -/

/-- A call added a transaction: one of its own text, of the bytes that the other texts spell, of the time, and of the assembler's
algorithm, with the digest as its hash. The hash is the answer, and the queue grows by the transaction at its end. -/
structure Adds (o : Occurrence) (text senderHash signature : String) (transaction : Transaction) : Prop where
  text : transaction.text = text
  senderHash : Hex.decode (trim senderHash) = .ok transaction.senderHash.bytes
  signature : Hex.decode (trim signature) = .ok transaction.signature
  timestamp : transaction.timestamp = o.now.toInt64
  algorithm : transaction.algorithm = o.before.algorithm
  settled : transaction.Settled Engine.standard
  recorded : o.added = some transaction
  reply : o.reply = .ok (.hash transaction.hash.hex)
  queue : o.after.pending = o.before.pending ++ [transaction]
  lines : o.lines = []

/-- A call sealed all that was waiting into a block, in order. The answer is a report that shows the block, and so shows, place by
place, what was waiting; nothing waits any more, and one line tells of the block. -/
structure Seals (o : Occurrence) (block : Block) (info : BlockInfo) : Prop where
  recorded : o.block = some block
  transactions : block.transactions = o.before.pending
  reply : o.reply = .ok (.block info)
  shows : info.Shows block
  listed : List.Forall₂ TransactionInfo.Shows info.transactions o.before.pending
  queue : o.after.pending = []
  lines : o.lines = [sealedLine block]

/-- A call goes as it should: it is refused only for its texts, and then it changes and writes nothing, as a question does; an
addition adds a transaction, a sealing seals what was waiting, and asked for what waits, the assembler shows it place by place and
gives its number in 32 bits. The algorithm is never changed. -/
structure Regular (o : Occurrence) : Prop where
  add_refused : ∀ {text senderHash signature}, o.call = .add text senderHash signature →
    (Refused o.reply ↔ ¬Hex.Spells (trim senderHash) ∨ ¬Hex.Spells (trim signature))
  seal_refused : ∀ {predecessor tries data}, o.call = .sealPending predecessor tries data →
    (Refused o.reply ↔ ∃ given, predecessor = some given ∧ ¬Blank given ∧ ¬Hex.Spells (trim given))
  add_accepted : ∀ {text senderHash signature}, o.call = .add text senderHash signature → ¬Refused o.reply →
    ∃ transaction, o.Adds text senderHash signature transaction
  seal_accepted : ∀ {predecessor tries data}, o.call = .sealPending predecessor tries data → ¬Refused o.reply →
    ∃ block info, o.Seals block info
  clear_accepted : o.call = .clear → o.reply = .ok .done ∧ o.after.pending = [] ∧ o.lines = []
  pending_listed : o.call = .pending →
    ∃ infos, o.reply = .ok (.pending infos) ∧ List.Forall₂ TransactionInfo.Shows infos o.before.pending
  pending_counted : o.call = .pendingCount →
    ∃ count, o.reply = .ok (.count count) ∧ count.toNat = o.before.pending.length % 2 ^ 32
  refused : Refused o.reply → o.after = o.before ∧ o.lines = []
  asks : o.call.Asks → o.after = o.before ∧ o.lines = []
  algorithm : o.after.algorithm = o.before.algorithm

theorem Outcome.algorithm (outcome : o.Outcome) : o.after.algorithm = o.before.algorithm := by
  cases outcome <;> rfl

/-- A call that only asks is answered, and changes and writes nothing. -/
theorem Outcome.of_asks (outcome : o.Outcome) (asks : o.call.Asks) :
    o.call.Answered o.before o.reply ∧ o.after = o.before ∧ o.lines = [] := by
  cases outcome with
  | asked _ answered => exact ⟨answered, rfl, rfl⟩
  | refused unreadable _ =>
    cases unreadable with
    | add _ _ => cases asks
    | sealPending _ _ _ => cases asks
  | _ => cases asks

/-- A call that does more than ask is refused if and only if its texts are. -/
theorem Outcome.refused_iff (outcome : o.Outcome) (acts : ¬o.call.Asks) : Refused o.reply ↔ o.call.Unreadable := by
  cases outcome with
  | added read assembled =>
    constructor
    · rintro ⟨_, refused⟩
      cases refused
    · rintro (⟨_, refusal, refused⟩ | _)
      rw [read] at refused
      cases refused
  | sealed read tries data made =>
    constructor
    · rintro ⟨_, refused⟩
      cases refused
    · rintro (_ | ⟨⟨fault, refused⟩, _, _⟩)
      rw [read] at refused
      cases refused
  | cleared before now =>
    constructor
    · rintro ⟨_, refused⟩
      cases refused
    · intro unreadable
      cases unreadable
  | refused unreadable refusal => exact ⟨fun _ => unreadable, fun _ => ⟨refusal, rfl⟩⟩
  | asked now answered => exact absurd answered.asks acts

/-- A transaction that is assembled of the bytes that were read, under a known algorithm, is what the call adds. -/
theorem adds_of_read {before : Assembler} (known : before.algorithm ≠ .unknown) (now : Binary64) (text : String)
    {senderHash signature : String} {hash : Hash} {bytes : Bytes} (read : readSigned senderHash signature = .ok (hash, bytes))
    {transaction : Transaction}
    (assembled : (Transaction.assemble Combiner.standard text hash bytes now.toInt64 before.algorithm).value = transaction) :
    Adds ⟨before, now, .add text senderHash signature, { before with pending := before.pending ++ [transaction] },
      .ok (.hash transaction.hash.hex), []⟩ text senderHash signature transaction := by
  obtain ⟨sender, signed⟩ := readSigned_eq_ok read
  subst assembled
  refine ⟨rfl, sender, signed, rfl, ?_, Transaction.settled_assemble Combiner.standard .., ?_, rfl, rfl, rfl⟩
  · exact congrArg Traced.value (Combiner.standard.resolve_of_known known)
  · simp only [added, read]

/-- A block that is sealed of the assembler's draft is what the call seals. -/
theorem seals_of_read (before : Assembler) (now : Binary64) {predecessor : Option String} {hash : Option Hash}
    (read : parseOptionalHash predecessor = .ok hash) (tries : UInt32) (data : Option String) {block : Block}
    (made : ((before.draft now hash tries data).sealWith Combiner.standard now.toInt64).value = block) :
    Seals ⟨before, now, .sealPending predecessor tries data, { before with pending := [] }, .ok (.block (BlockInfo.ofBlock block)),
      [sealedLine block]⟩ block (BlockInfo.ofBlock block) := by
  have shows := BlockInfo.shows_ofBlock block
  have waiting : block.transactions = before.pending := by
    subst made
    rfl
  refine ⟨?_, waiting, rfl, shows, waiting ▸ shows.transactions, rfl, rfl⟩
  simp only [Occurrence.block, read, made]

theorem Outcome.regular (outcome : o.Outcome) (known : o.before.algorithm ≠ .unknown) : o.Regular where
  add_refused := by
    intro text senderHash signature call
    rw [outcome.refused_iff (by rw [call]; nofun), call, ← refused_readSigned_iff]
    exact ⟨fun | .add _ unread => unread, .add text⟩
  seal_refused := by
    intro predecessor tries data call
    rw [outcome.refused_iff (by rw [call]; nofun), call, ← refused_parseOptionalHash_iff]
    exact ⟨fun | .sealPending unread _ _ => unread, fun unread => .sealPending unread tries data⟩
  add_accepted := by
    intro text senderHash signature call accepted
    cases outcome with
    | added read assembled =>
      cases call
      exact ⟨_, adds_of_read known _ text read assembled⟩
    | refused _ refusal => exact absurd ⟨refusal, rfl⟩ accepted
    | asked _ answered =>
      cases call
      cases answered
    | _ => cases call
  seal_accepted := by
    intro predecessor tries data call accepted
    cases outcome with
    | sealed read tries data made =>
      cases call
      exact ⟨_, _, seals_of_read _ _ read tries data made⟩
    | refused _ refusal => exact absurd ⟨refusal, rfl⟩ accepted
    | asked _ answered =>
      cases call
      cases answered
    | _ => cases call
  clear_accepted := by
    intro call
    cases outcome with
    | cleared _ _ => exact ⟨rfl, rfl, rfl⟩
    | refused unreadable _ =>
      cases call
      cases unreadable
    | asked _ answered =>
      cases call
      cases answered
    | _ => cases call
  pending_listed := by
    intro call
    have answered := (outcome.of_asks (call ▸ .pending)).1
    rw [call] at answered
    generalize o.reply = reply at answered
    cases answered
    exact ⟨_, rfl, TransactionInfo.forall₂_shows _⟩
  pending_counted := by
    intro call
    have answered := (outcome.of_asks (call ▸ .pendingCount)).1
    rw [call] at answered
    generalize o.reply = reply at answered
    cases answered
    exact ⟨_, rfl, UInt32.toNat_ofNat'⟩
  refused := by
    rintro ⟨refusal, refused⟩
    cases outcome with
    | refused _ _ => exact ⟨rfl, rfl⟩
    | asked _ _ => exact ⟨rfl, rfl⟩
    | _ => cases refused
  asks := fun asks => (outcome.of_asks asks).2
  algorithm := outcome.algorithm

/-- What holds of all that waits, and of any transaction that the call might add, holds of all that waits after it. -/
theorem Outcome.pending {P : Transaction → Prop} (outcome : o.Outcome)
    (assembled : ∀ text hash bytes,
      P (Transaction.assemble Combiner.standard text hash bytes o.now.toInt64 o.before.algorithm).value)
    (before : ∀ transaction ∈ o.before.pending, P transaction) : ∀ transaction ∈ o.after.pending, P transaction := by
  cases outcome with
  | @added _ _ text _ _ hash bytes _ _ made =>
    intro transaction h
    rcases List.mem_append.1 h with old | new
    · exact before transaction old
    · rw [List.mem_singleton.1 new, ← made]
      exact assembled text hash bytes
  | sealed => nofun
  | cleared => nofun
  | refused => exact before
  | asked => exact before

/-- The block of a call is sealed of what waited, and it is what the call reports. -/
theorem Outcome.block_eq (outcome : o.Outcome) {block : Block} (made : o.block = some block) :
    o.reply = .ok (.block (BlockInfo.ofBlock block)) ∧
      ∃ hash tries data, ((o.before.draft o.now hash tries data).sealWith Combiner.standard o.now.toInt64).value = block := by
  cases outcome with
  | @sealed _ _ _ hash read tries data _ sealed =>
    simp only [Occurrence.block, read, sealed, Option.some.injEq] at made
    subst made
    exact ⟨rfl, hash, tries, data, sealed⟩
  | refused unreadable => cases unreadable <;> cases made
  | asked _ answered => cases answered <;> cases made
  | _ => cases made

end Occurrence

/-! ## Along a run -/

variable (assembler : Assembler)

/-- Calls leave the algorithm as it is, and what holds of all that waits, and of any transaction that they might add, holds of all
that waits after them. -/
theorem pending_run {P : Transaction → Prop} (calls : List (Binary64 × Call))
    (assembled : ∀ entry ∈ calls, ∀ text hash bytes,
      P (Transaction.assemble Combiner.standard text hash bytes entry.1.toInt64 assembler.algorithm).value)
    (before : ∀ transaction ∈ assembler.pending, P transaction) :
    (assembler.run calls).value.1.algorithm = assembler.algorithm ∧
      ∀ transaction ∈ (assembler.run calls).value.1.pending, P transaction := by
  induction calls generalizing assembler with
  | nil => exact ⟨rfl, before⟩
  | cons first calls ih =>
    have outcome := outcome_occurrence assembler first.1 first.2
    have same : (assembler.step first.1 first.2).value.1.algorithm = assembler.algorithm := outcome.algorithm
    have next := outcome.pending (assembled first (.head _)) before
    obtain ⟨kept, all⟩ := ih (assembler.step first.1 first.2).value.1
      (fun entry h => by rw [same]; exact assembled entry (.tail _ h)) next
    exact ⟨kept.trans same, all⟩

theorem run_concat (calls : List (Binary64 × Call)) (now : Binary64) (call : Call) :
    (assembler.run (calls ++ [(now, call)])).value.1 = ((assembler.run calls).value.1.step now call).value.1 := by
  induction calls generalizing assembler with
  | nil => rfl
  | cons first calls ih => exact ih _

theorem history_concat (calls : List (Binary64 × Call)) (now : Binary64) (call : Call) :
    assembler.history (calls ++ [(now, call)]) =
      assembler.history calls ++ [(assembler.run calls).value.1.occurrence now call] := by
  induction calls generalizing assembler with
  | nil => rfl
  | cons first calls ih => exact congrArg _ (ih _)

/-- The answers of a run and the lines it writes are those of its records. -/
theorem run_shows (calls : List (Binary64 × Call)) :
    (assembler.run calls).value.2 = (assembler.history calls).map Occurrence.reply ∧
      (assembler.run calls).lines = (assembler.history calls).flatMap Occurrence.lines := by
  induction calls generalizing assembler with
  | nil => exact ⟨rfl, rfl⟩
  | cons first calls ih =>
    obtain ⟨replies, lines⟩ := ih (assembler.step first.1 first.2).value.1
    refine ⟨congrArg _ replies, ?_⟩
    rw [run, Traced.lines_bind, Traced.lines_bind, lines]
    simp [history, occurrence]

/-- A record in a history is that of a call on what the calls before it left. -/
theorem history_split {assembler : Assembler} {calls : List (Binary64 × Call)} {earlier later : List Occurrence} {o : Occurrence}
    (split : assembler.history calls = earlier ++ o :: later) :
    ∃ before now call after, calls = before ++ (now, call) :: after ∧ earlier = assembler.history before ∧
      o = (assembler.run before).value.1.occurrence now call := by
  induction earlier generalizing assembler calls with
  | nil =>
    cases calls with
    | nil => cases split
    | cons first calls =>
      obtain ⟨rfl, -⟩ := List.cons.inj split
      exact ⟨[], first.1, first.2, calls, rfl, rfl, rfl⟩
  | cons head earlier ih =>
    cases calls with
    | nil => cases split
    | cons first calls =>
      obtain ⟨rfl, rest⟩ := List.cons.inj split
      obtain ⟨before, now, call, after, rfl, rfl, rfl⟩ := ih rest
      exact ⟨first :: before, now, call, after, rfl, rfl, rfl⟩

theorem outcome_of_mem_history {calls : List (Binary64 × Call)} {o : Occurrence} (ho : o ∈ assembler.history calls) :
    o.Outcome := by
  obtain ⟨earlier, later, split⟩ := List.append_of_mem ho
  obtain ⟨before, now, call, -, -, -, rfl⟩ := history_split split
  exact outcome_occurrence _ now call

/-- The algorithm that a call finds is the one that the assembler was made with. -/
theorem algorithm_of_mem_history {calls : List (Binary64 × Call)} {o : Occurrence} (ho : o ∈ assembler.history calls) :
    o.before.algorithm = assembler.algorithm := by
  obtain ⟨earlier, later, split⟩ := List.append_of_mem ho
  obtain ⟨before, now, call, -, -, -, rfl⟩ := history_split split
  exact (assembler.pending_run before (P := fun _ => True) (fun _ _ _ _ _ => trivial) fun _ _ => trivial).1

/-- From an empty queue, what waits after a run is what was added since the queue was last emptied, and all that was added is, in
order, what was taken off batch by batch and what waits. -/
theorem queue_run (empty : assembler.pending = []) (calls : List (Binary64 × Call)) :
    let history := assembler.history calls
    let queue := (assembler.run calls).value.1.pending
    queue = (history.rtakeWhile fun o => !o.empties).filterMap Occurrence.added ∧
      history.filterMap Occurrence.added = (history.filterMap Occurrence.batch).flatten ++ queue := by
  -- the queue is emptied from its far end on, so the induction adds the calls of a run at its end
  induction calls using List.reverseRecOn with
  | nil => exact ⟨empty, empty.symm⟩
  | append_singleton calls last ih =>
    obtain ⟨now, call⟩ := last
    obtain ⟨since, whole⟩ := ih
    dsimp only
    rw [run_concat, history_concat]
    set reached := (assembler.run calls).value.1
    have left : (reached.step now call).value.1 = (reached.occurrence now call).after := rfl
    have found : (reached.occurrence now call).before = reached := rfl
    rw [left, List.rtakeWhile_concat, List.filterMap_append, List.filterMap_append, List.flatten_append, whole]
    cases (outcome_occurrence reached now call).effect with
    | grows transaction added batch empties after =>
      rw [after, found, empties, since]
      simp [added, batch]
    | empties added batch empties after =>
      rw [after, empties]
      simp [added, batch, found]
    | stays added batch empties after =>
      rw [after, found, empties, since]
      simp [added, batch]

/-- A new assembler has a known algorithm and nothing waits. -/
theorem known_of_create {name : Option String} {created : Traced Assembler} (made : create name = .ok created) :
    created.value.algorithm ≠ .unknown ∧ created.value.pending = [] := by
  rw [create] at made
  cases parsed : orFault (parseAlgorithm name) with
  | error refusal =>
    rw [parsed] at made
    cases made
  | ok algorithm =>
    rw [parsed] at made
    cases made
    exact ⟨Combiner.standard.resolve_known algorithm, rfl⟩

/-- An assembler neither loses nor doubles nor reorders transactions. After any calls at any times on a new one, the queue is what
was added since the last sealing or clearing that succeeded, in order; all that was added is, in order, the batches that were
sealed or cleared and then the queue; and every call went as it should, a sealing by answering with a report that lists what had been
waiting. -/
theorem run_accounts {name : Option String} {created : Traced Assembler} (made : create name = .ok created)
    (calls : List (Binary64 × Call)) :
    let history := created.value.history calls
    let final := created.value.run calls
    final.value.2 = history.map Occurrence.reply ∧
      final.lines = history.flatMap Occurrence.lines ∧
      final.value.1.pending = (history.rtakeWhile fun o => !o.empties).filterMap Occurrence.added ∧
      history.filterMap Occurrence.added = (history.filterMap Occurrence.batch).flatten ++ final.value.1.pending ∧
      ∀ o ∈ history, o.Regular := by
  have empty := (known_of_create made).2
  obtain ⟨replies, lines⟩ := created.value.run_shows calls
  obtain ⟨since, whole⟩ := created.value.queue_run empty calls
  refine ⟨replies, lines, since, whole, fun o ho => (created.value.outcome_of_mem_history ho).regular ?_⟩
  rw [created.value.algorithm_of_mem_history ho]
  exact (known_of_create made).1

/-- A refused addition and a refused sealing among other calls: nothing is lost between them, the report on the block lists the
addition that waited, and only the last addition waits in the end. -/
theorem run_accounts_refusals :
    let assembler : Assembler := ⟨.sha256, []⟩
    let calls : List (Binary64 × Call) :=
      [(.ofInt 1, .add "spaced" " ab " "CD"), (.ofInt 2, .add "odd" "abc" "cd"), (.ofInt 3, .sealPending (some "no hash") 0 none),
        (.ofInt 4, .sealPending (some " ") 1 none), (.ofInt 5, .pendingCount), (.ofInt 6, .add "empty" "" "")]
    let history := assembler.history calls
    create (some "SHA-256") = .ok (pure assembler) ∧
      history.map (fun o => o.reply.toBool) = [true, false, false, true, true, true] ∧
      history.filterMap Occurrence.added =
        (history.filterMap Occurrence.batch).flatten ++ (assembler.run calls).value.1.pending ∧
      (∃ info, (history.map Occurrence.reply)[3]? = some (.ok (.block info)) ∧
        info.transactions.map TransactionInfo.text = ["spaced"]) ∧
      (history.filterMap Occurrence.batch).map List.length = [1] ∧ (assembler.run calls).value.1.pending.length = 1 := by
  intro assembler calls history
  have made : create (some "SHA-256") = .ok (pure assembler) := by rfl
  obtain ⟨-, -, -, whole, regular⟩ := run_accounts made calls
  let o := (assembler.run (calls.take 3)).value.1.occurrence (.ofInt 4) (.sealPending (some " ") 1 none)
  have accepted : ¬Refused o.reply := by
    rintro ⟨refusal, refused⟩
    have passed : o.reply.toBool = true := by decide +kernel
    rw [refused] at passed
    cases passed
  obtain ⟨block, info, sealed⟩ := (regular o (.tail _ (.tail _ (.tail _ (.head _))))).seal_accepted rfl accepted
  have waited : o.before.pending.map Transaction.text = ["spaced"] := by decide +kernel
  refine ⟨made, by decide +kernel, whole, ⟨info, congrArg some sealed.reply, ?_⟩, by decide +kernel, by decide +kernel⟩
  rw [← waited, ← List.forall₂_eq_eq_eq, List.forall₂_map_left_iff, List.forall₂_map_right_iff]
  exact sealed.listed.imp fun _ _ shown => shown.text

end Assembler

end SealedLedger
