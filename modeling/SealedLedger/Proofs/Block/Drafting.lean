import Mathlib.Data.List.DropRight
import SealedLedger.Proofs.Block.Commitment
import SealedLedger.Proofs.History
import SealedLedger.Proofs.Merkle.Work

/-!
# What a draft is sealed to

A draft is changed any number of times before it is sealed. What a change replaces is what the last one of its kind gave, and the
transactions are those that were listed last and then those that were pushed since (`Draft.transactions_editAll`). So the sealed
block, what is asked for it and what is reported are told by the history of changes (`Draft.Told`). Changes to different fields do
not get in each other's way, and of transactions only the hashes are covered, so histories that are alike in this sense lead to
twins (`Draft.Alike.twin`). Main statement: `Draft.sealWith_history`.
-/

namespace SealedLedger

open Merkle

namespace Draft

/-- A new draft, on top of the block with this hash if there is one. -/
def start : Option Hash → Draft
  | none => genesis
  | some predecessor => onTopOf predecessor

/-! ## What a history gave last -/

namespace Edit

/-- The transactions that a change puts in the place of all others. -/
def listed? : Edit → Option (List Transaction)
  | .transactions listed => some listed
  | _ => none

/-- The transaction that a change adds at the end. -/
def pushed? : Edit → Option Transaction
  | .push pushed => some pushed
  | _ => none

/-- The number of tries that a change sets. -/
def tries? : Edit → Option UInt64
  | .tries n => some n
  | _ => none

/-- The time that a change sets. -/
def timestamp? : Edit → Option Int64
  | .timestamp time => some time
  | _ => none

/-- The annotation that a change sets. -/
def data? : Edit → Option String
  | .data text => some text
  | _ => none

/-- The algorithm that a change sets. -/
def algorithm? : Edit → Option Algorithm
  | .algorithm chosen => some chosen
  | _ => none

/-- The transactions that a history leaves: those that were listed last, if any, and then those that were pushed since. -/
def listing (edits : List Edit) : List Transaction :=
  (History.last? listed? edits).getD [] ++ (edits.rtakeWhile fun edit => edit.listed?.isNone).filterMap pushed?

end Edit

open History Edit

variable {predecessor : Option Hash} {edits edits' : List Edit}

/-- Changes leave the predecessor as it is. -/
theorem predecessor_editAll (draft : Draft) (edits : List Edit) : (draft.editAll edits).predecessor = draft.predecessor := by
  induction edits generalizing draft with
  | nil => rfl
  | cons edit edits ih =>
    have one : (draft.edit edit).predecessor = draft.predecessor := by cases edit <;> rfl
    exact (ih (draft.edit edit)).trans one

theorem transactions_editAll (predecessor : Option Hash) (edits : List Edit) :
    ((start predecessor).editAll edits).transactions = listing edits := by
  -- the changes since the last listing stand at the far end, so the induction adds changes there
  induction edits using List.reverseRecOn with
  | nil => cases predecessor <;> rfl
  | append_singleton edits edit ih =>
    have last : (start predecessor).editAll (edits ++ [edit]) = ((start predecessor).editAll edits).edit edit :=
      List.foldl_concat ..
    rw [last, listing, last?, List.filterMap_append, List.rtakeWhile_concat]
    cases edit with
    | transactions listed => simp [Draft.edit, listed?]
    | push pushed => simp [Draft.edit, ih, listing, last?, listed?, pushed?]
    | tries => simp [Draft.edit, ih, listing, last?, listed?, pushed?]
    | timestamp => simp [Draft.edit, ih, listing, last?, listed?, pushed?]
    | data => simp [Draft.edit, ih, listing, last?, listed?, pushed?]
    | algorithm => simp [Draft.edit, ih, listing, last?, listed?, pushed?]

theorem start_eq (predecessor : Option Hash) : start predecessor = { predecessor } := by
  cases predecessor <;> rfl

/-- A changed draft holds what its history gave last, and otherwise what a new one holds. -/
theorem editAll_start (predecessor : Option Hash) (edits : List Edit) :
    (start predecessor).editAll edits =
      { predecessor
        transactions := listing edits
        tries := (last? tries? edits).getD 0
        timestamp := last? timestamp? edits
        data := (last? data? edits).getD ""
        algorithm := last? algorithm? edits } := by
  have transactions := transactions_editAll predecessor edits
  have kept := predecessor_editAll (start predecessor) edits
  have tries := foldl_eq_getD_last? edit Draft.tries tries?
    (fun draft edit => by cases edit <;> rfl) edits (start predecessor)
  have timestamp := foldl_eq_last? edit Draft.timestamp timestamp?
    (fun draft edit => by cases edit <;> rfl) edits (start predecessor)
  have data := foldl_eq_getD_last? edit Draft.data data?
    (fun draft edit => by cases edit <;> rfl) edits (start predecessor)
  have algorithm := foldl_eq_last? edit Draft.algorithm algorithm?
    (fun draft edit => by cases edit <;> rfl) edits (start predecessor)
  rw [start_eq] at *
  rw [Option.or_none] at timestamp algorithm
  exact (Draft.mk.injEq ..).mpr ⟨kept, transactions, tries, timestamp, data, algorithm⟩

/-! ## Sealing -/

/-- Sealing shows the resolving of the algorithm, what the Merkle root shows, one question about the covered bytes, and the event that
tells of the block. -/
theorem entries_sealWith (combiner : Combiner) (now : Int64) (draft : Draft) :
    let block := (draft.sealWith combiner now).value
    (draft.sealWith combiner now).entries =
      (combiner.resolve (draft.algorithm.getD combiner.config.fallback)).entries ++
        (combiner.merkleRootWith (Block.leaves draft.transactions) block.algorithm).entries ++
          [.call block.algorithm block.preimage,
            .event (.blockSealed block.hash block.merkleRoot block.transactions.length block.tries block.isGenesis)] := by
  intro block
  have known := combiner.resolve_known (draft.algorithm.getD combiner.config.fallback)
  have settled : block.Settled combiner.engine := Block.settled_sealWith combiner now draft
  rw [settled.hash, ← Block.encodeAll_fields, List.append_assoc]
  simp only [sealWith, Traced.entries_bind, combiner.digestWith_of_known _ known]
  rfl

/-- Sealing asks what the Merkle root asks, and then for the digest of the covered bytes. -/
theorem calls_sealWith (combiner : Combiner) (now : Int64) (draft : Draft) :
    let block := (draft.sealWith combiner now).value
    (draft.sealWith combiner now).calls =
      (combiner.merkleRootWith (Block.leaves draft.transactions) block.algorithm).calls ++ [(block.algorithm, block.preimage)] := by
  intro block
  have quiet := combiner.calls_resolve (draft.algorithm.getD combiner.config.fallback)
  rw [Traced.calls] at quiet
  rw [Traced.calls, entries_sealWith, List.filterMap_append, List.filterMap_append, quiet, List.nil_append]
  rfl

/-- Sealing reports the replaced algorithm if there is one, then the rounds of the Merkle root, and then the block. -/
theorem events_sealWith (combiner : Combiner) (now : Int64) (draft : Draft) :
    let block := (draft.sealWith combiner now).value
    let width := draft.transactions.length
    (draft.sealWith combiner now).events =
      (if draft.algorithm = some .unknown then [.fallback combiner.config.fallback] else []) ++
        ((List.range (height width)).map fun i => .levelReduced i (width ⌈/⌉ 2 ^ (i + 1))) ++
          [.blockSealed block.hash block.merkleRoot width block.tries block.isGenesis] := by
  intro block width
  have settled : block.Settled combiner.engine := Block.settled_sealWith combiner now draft
  have replaced : (combiner.resolve (draft.algorithm.getD combiner.config.fallback)).events =
      if draft.algorithm = some .unknown then [.fallback combiner.config.fallback] else [] := by
    rw [Traced.events, Combiner.entries_resolve]
    simp only [Config.getD_fallback_eq_unknown_iff]
    split <;> rfl
  have rounds := combiner.events_merkleRootWith (Block.leaves draft.transactions) block.algorithm
  rw [combiner.resolve_of_known settled.known, Traced.events_pure, List.nil_append, Block.leaves, List.length_map] at rounds
  rw [Traced.events] at replaced rounds
  rw [Traced.events, entries_sealWith, List.filterMap_append, List.filterMap_append, replaced, Block.leaves, rounds]
  rfl

/-- A result is told by the predecessor that a draft starts on and by the changes to it. Transactions, tries, timestamp, annotation
and algorithm are what the changes gave last, or else what a new draft holds, and the algorithm is resolved; a predecessor without
bytes counts as none. The root is that of the transactions' hashes, and the hash is the digest of the covered bytes. The engine is
asked what the root asks and then for that digest. Reported are the replaced algorithm if there is one, the rounds of the root, and
the block. -/
structure Told (combiner : Combiner) (predecessor : Option Hash) (edits : List Edit) (now : Int64) (result : Traced Block) :
    Prop where
  predecessor : result.value.predecessor = predecessor.filter fun hash => !hash.isEmpty
  transactions : result.value.transactions = listing edits
  tries : result.value.tries = (last? tries? edits).getD 0
  timestamp : result.value.timestamp = (last? timestamp? edits).getD now
  data : result.value.data = (last? data? edits).getD ""
  algorithm : result.value.algorithm = (combiner.resolve ((last? algorithm? edits).getD combiner.config.fallback)).value
  merkleRoot : result.value.merkleRoot =
    (combiner.merkleRootWith (Block.leaves (listing edits)) result.value.algorithm).value
  hash : result.value.hash = ⟨combiner.engine result.value.algorithm result.value.preimage⟩
  calls : result.calls =
    (combiner.merkleRootWith (Block.leaves (listing edits)) result.value.algorithm).calls ++
      [(result.value.algorithm, result.value.preimage)]
  events : result.events =
    (if last? algorithm? edits = some .unknown then [.fallback combiner.config.fallback] else []) ++
      ((List.range (height (listing edits).length)).map fun i => .levelReduced i ((listing edits).length ⌈/⌉ 2 ^ (i + 1))) ++
        [.blockSealed result.value.hash result.value.merkleRoot (listing edits).length result.value.tries result.value.isGenesis]

theorem told_sealWith (combiner : Combiner) (predecessor : Option Hash) (edits : List Edit) (now : Int64) :
    Told combiner predecessor edits now (((start predecessor).editAll edits).sealWith combiner now) := by
  rw [editAll_start]
  have settled (draft : Draft) := Block.settled_sealWith combiner now draft
  exact {
    predecessor := rfl
    transactions := rfl
    tries := rfl
    timestamp := rfl
    data := rfl
    algorithm := rfl
    merkleRoot := by
      rw [Combiner.value_merkleRootWith, combiner.resolve_of_known (settled _).known]
      exact (settled _).root
    hash := (settled _).hash
    calls := calls_sealWith combiner now _
    events := events_sealWith combiner now _ }

/-! ## What the hashes do not depend on -/

/-- The field that a change is about. -/
inductive Subject where
  | transactions | tries | timestamp | data | algorithm
  deriving DecidableEq

/-- The field of a draft that a change is about; adding a transaction and replacing all of them are about the same one. -/
def Edit.subject : Edit → Subject
  | .push _ => .transactions
  | .transactions _ => .transactions
  | .tries _ => .tries
  | .timestamp _ => .timestamp
  | .data _ => .data
  | .algorithm _ => .algorithm

/-- Two changes are the same, but for anything in their transactions other than the hashes. -/
inductive Edit.Alike : Edit → Edit → Prop where
  | refl (edit : Edit) : Edit.Alike edit edit
  | push {transaction other : Transaction} (hash : transaction.hash = other.hash) : Edit.Alike (.push transaction) (.push other)
  | transactions {listed others : List Transaction} (hashes : Block.leaves listed = Block.leaves others) :
    Edit.Alike (.transactions listed) (.transactions others)

/-- Two histories are alike if they make alike changes to each field in the same order, however the changes to one field stand to
those to another, and whatever annotations they set. -/
def Alike (edits edits' : List Edit) : Prop :=
  ∀ subject ≠ Subject.data,
    List.Forall₂ Edit.Alike (edits.filter fun edit => edit.subject = subject) (edits'.filter fun edit => edit.subject = subject)

section

variable {combiner : Combiner} {predecessor : Option Hash} {edits edits' : List Edit}

/-- Alike histories leave transactions with the same hashes. -/
theorem Alike.leaves_editAll (alike : Alike edits edits') (draft : Draft) :
    Block.leaves (draft.editAll edits).transactions = Block.leaves (draft.editAll edits').transactions := by
  have own : ∀ (draft draft' : Draft) (change change' : Edit),
      Block.leaves draft.transactions = Block.leaves draft'.transactions → change.Alike change' →
        Block.leaves (draft.edit change).transactions = Block.leaves (draft'.edit change').transactions := by
    intro draft draft' change change' same h
    cases h with
    | refl => cases change <;> simp_all [edit, Block.leaves]
    | push hash => simp_all [edit, Block.leaves]
    | transactions hashes => exact hashes
  have frame : ∀ (draft : Draft) (change : Edit), decide (change.subject = .transactions) = false →
      Block.leaves (draft.edit change).transactions = Block.leaves draft.transactions := by
    intro draft change other
    cases change <;> simp_all [edit, Edit.subject]
  exact foldl_congr Edit.Alike.refl own frame (alike .transactions (by decide)) draft

/-- Alike changes are the same if they are about another field than the transactions. -/
theorem Edit.Alike.eq {change change' : Edit} (alike : change.Alike change') (apart : change.subject ≠ .transactions) :
    change = change' := by
  cases alike with
  | refl => rfl
  | push => exact absurd rfl apart
  | transactions => exact absurd rfl apart

/-- Of a field that is covered, but holds no transactions, alike histories gave the same last. -/
theorem Alike.last?_eq {α : Type} (alike : Alike edits edits') (given? : Edit → Option α) (subject : Subject)
    (covered : subject ≠ .data) (apart : subject ≠ .transactions)
    (about : ∀ change, Edit.subject change ≠ subject → given? change = none) : last? given? edits = last? given? edits' := by
  have own : ∀ changes : List Edit,
      last? given? (changes.filter fun change => change.subject = subject) = last? given? changes :=
    last?_filter fun change other => about change (by simpa using other)
  have mine : ∀ change ∈ edits.filter fun change => change.subject = subject, change.subject = subject :=
    fun change h => by simpa using List.of_mem_filter h
  have each := (List.forall₂_and_left _ _).2 ⟨mine, alike subject covered⟩
  have same := each.imp fun _ _ ⟨about, h⟩ => h.eq (about ▸ apart)
  rw [List.forall₂_eq_eq_eq] at same
  rw [← own, ← own edits', same]

/-- Alike histories lead to twins, whenever they are sealed, if they set the time. -/
theorem Alike.twin (alike : Alike edits edits') (timed : ∃ time, .timestamp time ∈ edits) (now now' : Int64) :
    (((start predecessor).editAll edits).sealWith combiner now).value.Twin combiner.engine
      (((start predecessor).editAll edits').sealWith combiner now').value := by
  have leaves := alike.leaves_editAll (start predecessor)
  have tries := alike.last?_eq tries? .tries (by decide) (by decide)
    (by intro change _; cases change <;> simp_all [Edit.subject, tries?])
  have timestamp := alike.last?_eq timestamp? .timestamp (by decide) (by decide)
    (by intro change _; cases change <;> simp_all [Edit.subject, timestamp?])
  have algorithm := alike.last?_eq algorithm? .algorithm (by decide) (by decide)
    (by intro change _; cases change <;> simp_all [Edit.subject, algorithm?])
  obtain ⟨time, set⟩ := timed
  have given : (last? timestamp? edits).isSome := isSome_last? set rfl
  obtain ⟨last, at_last⟩ := Option.isSome_iff_exists.1 given
  have same_time : (last? timestamp? edits').getD now' = (last? timestamp? edits).getD now := by
    rw [← timestamp, at_last, Option.getD_some, Option.getD_some]
  rw [editAll_start, editAll_start] at leaves ⊢
  refine Block.Settled.twin (Block.settled_sealWith ..) (Block.settled_sealWith ..) ?_ rfl ?_ same_time ?_
  · exact congrArg (fun chosen : Option Algorithm => (combiner.resolve (chosen.getD combiner.config.fallback)).value) algorithm.symm
  · exact congrArg (Option.getD · 0) tries.symm
  · exact congrArg _ leaves.symm

end

/-- A draft is sealed to what its history tells, with or without a predecessor: every field, the questions put to the engine and the
events follow from the changes in order. Root and hash do not change with the annotation, with the order in which changes to
different fields are made, or with anything in a transaction but its hash; and if the history sets the time, not with the time of
sealing either. -/
theorem sealWith_history (combiner : Combiner) (predecessor : Option Hash) :
    (∀ edits now, Told combiner predecessor edits now (((start predecessor).editAll edits).sealWith combiner now)) ∧
      ∀ edits edits', Alike edits edits' → (∃ time, .timestamp time ∈ edits) → ∀ now now',
        (((start predecessor).editAll edits).sealWith combiner now).value.Twin combiner.engine
          (((start predecessor).editAll edits').sealWith combiner now').value :=
  ⟨told_sealWith combiner predecessor, fun _ _ alike timed now now' => alike.twin timed now now'⟩

/-- Two histories that set the same fields in another order, with other annotations and with transactions of other texts: each seals
to the transactions listed and pushed last, and the hashes are equal. -/
theorem sealWith_history_interleaved :
    let plain : Combiner := ⟨Engine.identity, Config.standard⟩
    let signed := fun (text : String) (hash : Bytes) => Transaction.mk text ⟨[]⟩ [] 0 .sha256 ⟨hash⟩
    let edits : List Edit :=
      [.push (signed "a" [1]), .transactions [signed "b" [2]], .tries 3, .push (signed "c" [3]), .data "x", .algorithm .unknown,
        .timestamp 5]
    let edits' : List Edit :=
      [.timestamp 5, .data "y", .algorithm .unknown, .push (signed "d" [1]), .tries 3, .transactions [signed "e" [2]],
        .push (signed "f" [3])]
    let block := (((start (some ⟨[7]⟩)).editAll edits).sealWith plain 0).value
    let block' := (((start (some ⟨[7]⟩)).editAll edits').sealWith plain 1).value
    Alike edits edits' ∧ Edit.timestamp 5 ∈ edits ∧ block.transactions = [signed "b" [2], signed "c" [3]] ∧
      block'.transactions = [signed "e" [2], signed "f" [3]] ∧ block.algorithm = .sha256 ∧ block.timestamp = 5 ∧
        block'.data ≠ block.data ∧ block'.hash = block.hash := by
  intro plain signed edits edits' block block'
  obtain ⟨told, twin⟩ := sealWith_history plain (some ⟨[7]⟩)
  have first := told edits 0
  have second := told edits' 1
  have alike : Alike edits edits' := by
    intro subject covered
    cases subject with
    | transactions => exact .cons (.push rfl) (.cons (.transactions rfl) (.cons (.push rfl) .nil))
    | tries => exact .cons (.refl _) .nil
    | timestamp => exact .cons (.refl _) .nil
    | data => exact absurd rfl covered
    | algorithm => exact .cons (.refl _) .nil
  have timed : Edit.timestamp 5 ∈ edits := by simp [edits]
  refine ⟨alike, timed, first.transactions, second.transactions, first.algorithm, first.timestamp, ?_, ?_⟩
  · rw [first.data, second.data]
    decide
  · exact (twin edits edits' alike ⟨5, timed⟩ 0 1).hash

end Draft

end SealedLedger
