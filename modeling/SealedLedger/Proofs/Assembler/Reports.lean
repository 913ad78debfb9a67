import SealedLedger.Proofs.Assembler.Account
import SealedLedger.Proofs.Binary64.Whole
import SealedLedger.Proofs.Boundary.Recomputing
import SealedLedger.Proofs.Settled

/-!
# Reports that can be recomputed

What a report shows leads back to the hashes, the root and the number of zeros in it: the calls of the boundary compute them from
the report's own texts. This needs the texts to spell what was digested, and the timestamps to survive the way to double precision
and back. They do because every timestamp of an assembler was read off its clock, which is itself in double precision. Whatever an
assembler has queued can be reported so (`Assembler.Reportable`, kept by every call). Main statement:
`Assembler.reports_recompute`.
-/

namespace SealedLedger

open Boundary Text

/-- The eight bytes of a number without sign, in hexadecimal. -/
def wordHex (n : UInt64) : String :=
  Hex.encode (Bytes.bigEndian 8 n.toNat)

/-! ## Reports on transactions -/

/-- The texts of a report whose digest the hash is. -/
def TransactionInfo.covered (info : TransactionInfo) : List String :=
  [Hex.encode (Bytes.ofText info.text), info.senderHash, info.signature, wordHex info.timestamp.toInt64.toUInt64]

/-- The hash of a report is recomputed from its other texts, under the named algorithm. -/
def TransactionInfo.Recomputed (algorithm : String) (info : TransactionInfo) : Prop :=
  (digestHex info.covered (some algorithm)).map Traced.value = .ok info.hash

/-- A transaction under an algorithm that is settled under the standard engine, with a timestamp that comes back from double
precision. -/
structure Transaction.Reportable (algorithm : Algorithm) (transaction : Transaction) : Prop where
  settled : transaction.Settled Engine.standard
  algorithm : transaction.algorithm = algorithm
  kept : Binary64.Kept transaction.timestamp

/-- The report on such a transaction is recomputed. -/
theorem Transaction.Reportable.recomputed {algorithm : Algorithm} {transaction : Transaction}
    (reportable : transaction.Reportable algorithm) : (TransactionInfo.ofTransaction transaction).Recomputed algorithm.name := by
  obtain ⟨settled, rfl, kept⟩ := reportable
  have covered : (TransactionInfo.ofTransaction transaction).covered =
      [Bytes.ofText transaction.text, transaction.senderHash.bytes, transaction.signature,
        Bytes.bigEndian 8 transaction.timestamp.toUInt64.toNat].map Hex.encode := by
    have timestamp : (TransactionInfo.ofTransaction transaction).timestamp.toInt64 = transaction.timestamp := kept
    rw [TransactionInfo.covered, timestamp]
    rfl
  rw [TransactionInfo.Recomputed, covered, digestHex_encode settled.known]
  refine congrArg Except.ok ?_
  rw [TransactionInfo.ofTransaction, settled.hash, preimage]
  simp

/-! ## Reports on blocks -/

/-- The texts of a report whose digest the hash is; an absent predecessor counts as an empty text. -/
def BlockInfo.covered (info : BlockInfo) : List String :=
  [info.predecessor.getD "", info.merkleRoot, wordHex info.tries.toUInt64, wordHex info.timestamp.toInt64.toUInt64]

/-- Root, hash and number of leading zeros of a report, and the hash of every transaction in it, are recomputed from its other
texts, under the algorithm that it names. -/
structure BlockInfo.Recomputed (info : BlockInfo) : Prop where
  merkleRoot : (merkleRootHex (info.transactions.map (·.hash)) (some info.algorithm)).map Traced.value = .ok info.merkleRoot
  hash : (digestHex info.covered (some info.algorithm)).map Traced.value = .ok info.hash
  leadingZeros : leadingZeroBytesHex info.hash = .ok info.leadingZeros
  transactions : ∀ listed ∈ info.transactions, listed.Recomputed info.algorithm

/-- A block that is settled under the standard engine, as its transactions are, with timestamps that come back from double precision
and a number of tries in 32 bits. -/
structure Block.Reportable (block : Block) : Prop where
  settled : block.Settled Engine.standard
  transactions : ∀ transaction ∈ block.transactions, transaction.Reportable block.algorithm
  kept : Binary64.Kept block.timestamp
  short : block.tries.toNat < 2 ^ 32

theorem BlockInfo.clampToWord32_of_lt {n : UInt64} (short : n.toNat < 2 ^ 32) : (clampToWord32 n).toUInt64 = n := by
  rw [clampToWord32, Nat.min_eq_left (by omega), ← UInt64.toNat_inj, UInt32.toNat_toUInt64, UInt32.toNat_ofNat_of_lt' short]

theorem Block.predecessorBytes_hex (predecessor : Option Hash) :
    (predecessor.map Hash.hex).getD "" = Hex.encode (predecessorBytes predecessor) := by
  cases predecessor <;> rfl

/-- The report on such a block is recomputed. -/
theorem Block.Reportable.recomputed {block : Block} (reportable : block.Reportable) : (BlockInfo.ofBlock block).Recomputed where
  merkleRoot := by
    have leaves : (BlockInfo.ofBlock block).transactions.map (·.hash) = (Block.leaves block.transactions).map Hash.hex := by
      simp [BlockInfo.ofBlock, Block.leaves, TransactionInfo.ofTransaction]
    rw [leaves]
    refine (merkleRootHex_hex reportable.settled.known _).trans ?_
    exact congrArg (fun root => Except.ok root.hex) reportable.settled.root.symm
  hash := by
    have covered : (BlockInfo.ofBlock block).covered =
        [predecessorBytes block.predecessor, block.merkleRoot.bytes, Bytes.bigEndian 8 block.tries.toNat,
          Bytes.bigEndian 8 block.timestamp.toUInt64.toNat].map Hex.encode := by
      have timestamp : (BlockInfo.ofBlock block).timestamp.toInt64 = block.timestamp := reportable.kept
      have tries : (BlockInfo.ofBlock block).tries.toUInt64 = block.tries := BlockInfo.clampToWord32_of_lt reportable.short
      have predecessor : (BlockInfo.ofBlock block).predecessor.getD "" = Hex.encode (predecessorBytes block.predecessor) :=
        predecessorBytes_hex block.predecessor
      rw [BlockInfo.covered, timestamp, tries, predecessor]
      rfl
    rw [covered]
    refine (digestHex_encode reportable.settled.known _).trans (congrArg Except.ok ?_)
    rw [BlockInfo.ofBlock, reportable.settled.hash, preimage]
    simp
  leadingZeros := leadingZeroBytesHex_hex block.hash
  transactions := by
    intro info listed
    obtain ⟨transaction, ht, rfl⟩ := List.mem_map.1 listed
    exact (reportable.transactions transaction ht).recomputed

namespace Assembler

/-! ## What an assembler can report -/

/-- An assembler under a known algorithm whose transactions can all be reported. -/
structure Reportable (algorithm : Algorithm) (assembler : Assembler) : Prop where
  known : algorithm ≠ .unknown
  same : assembler.algorithm = algorithm
  pending : ∀ transaction ∈ assembler.pending, transaction.Reportable algorithm

variable {assembler : Assembler} {algorithm : Algorithm}

/-- A new assembler can report. -/
theorem reportable_create {name : Option String} {created : Traced Assembler} (made : create name = .ok created) :
    created.value.Reportable created.value.algorithm := by
  obtain ⟨known, empty⟩ := known_of_create made
  refine ⟨known, rfl, fun transaction h => ?_⟩
  rw [empty] at h
  cases h

/-- A transaction that is stamped with the clock can be reported. -/
theorem reportable_assemble (known : algorithm ≠ .unknown) (now : Binary64) (text : String)
    (senderHash : Hash) (signature : Bytes) :
    (Transaction.assemble Combiner.standard text senderHash signature now.toInt64 algorithm).value.Reportable algorithm := by
  have resolved := congrArg Traced.value (Combiner.standard.resolve_of_known known)
  exact ⟨Transaction.settled_assemble Combiner.standard .., resolved, now.kept_toInt64⟩

/-- A block that is sealed of what waits, and stamped with the clock, can be reported. -/
theorem Reportable.block (reportable : assembler.Reportable algorithm) (now : Binary64)
    (predecessor : Option Hash) (tries : UInt32) (data : Option String) :
    let block := ((assembler.draft now predecessor tries data).sealWith Combiner.standard now.toInt64).value
    block.Reportable ∧ block.algorithm = algorithm := by
  intro block
  obtain ⟨known, rfl, pending⟩ := reportable
  have same : block.algorithm = assembler.algorithm := congrArg Traced.value (Combiner.standard.resolve_of_known known)
  refine ⟨⟨Block.settled_sealWith Combiner.standard .., ?_, now.kept_toInt64, ?_⟩, same⟩
  · rw [same]
    exact pending
  · have short : block.tries = tries.toUInt64 := rfl
    rw [short, UInt32.toNat_toUInt64]
    exact tries.toNat_lt

/-- The hash of an address is the digest of the name's bytes and the key, and refused if the key is. -/
theorem Reportable.addressHash (reportable : assembler.Reportable algorithm) (name publicKey : String) :
    (assembler.addressHash name publicKey).value =
      (digestHex [Hex.encode (Bytes.ofText name), publicKey] (some algorithm.name)).map Traced.value := by
  obtain ⟨known, rfl, -⟩ := reportable
  rw [value_digestHex, chosen_name known, decodeAll_cons, decodeBytes_encode, decodeAll_cons, Assembler.addressHash]
  cases decodeBytes publicKey with
  | error e => rfl
  | ok bytes =>
    have same : (Address.derive Combiner.standard name bytes assembler.algorithm).value.algorithm = assembler.algorithm :=
      congrArg Traced.value (Combiner.standard.resolve_of_known known)
    have covered : (Address.derive Combiner.standard name bytes assembler.algorithm).value.preimage =
        [Bytes.ofText name, bytes].flatten :=
      congrArg (Bytes.ofText name ++ ·) (List.append_nil bytes).symm
    have hash := (Address.settled_derive Combiner.standard name bytes assembler.algorithm).hash
    rw [same, covered] at hash
    exact (Traced.value_map _ _).trans (congrArg (fun hash => Except.ok hash.hex) hash)

namespace Occurrence

variable {o : Occurrence}

/-- The hash that a call answers which added a transaction. -/
def returned (occurrence : Occurrence) : Option String :=
  match occurrence.call, occurrence.reply with
  | .add _ _ _, .ok (.hash hex) => some hex
  | _, _ => none

/-- The hash that is answered is that of the transaction that was added. -/
theorem Outcome.returned_eq (outcome : o.Outcome) : o.returned = o.added.map (·.hash.hex) := by
  cases outcome with
  | added read assembled =>
    simp only [Occurrence.added, read, assembled]
    rfl
  | sealed read tries data made => rfl
  | cleared before now => rfl
  | refused unreadable refusal => cases unreadable <;> rfl
  | asked now answered => cases answered <;> rfl

end Occurrence

/-! ## Along a run -/

/-- After calls at times on the clock the assembler can report. -/
theorem Reportable.run (reportable : assembler.Reportable algorithm) (calls : List (Binary64 × Call)) :
    (assembler.run calls).value.1.Reportable algorithm := by
  obtain ⟨known, rfl, pending⟩ := reportable
  obtain ⟨same, all⟩ := assembler.pending_run calls
    (fun entry _ text hash bytes => reportable_assemble known entry.1 text hash bytes) pending
  exact ⟨known, same, all⟩

/-- The hashes that additions answered since the queue was last emptied, in order. -/
def waiting (history : List Occurrence) : List String :=
  (history.rtakeWhile fun o => !o.empties).filterMap Occurrence.returned

/-- The hashes of what waits after a run are those that the additions answered. -/
theorem waiting_history (empty : assembler.pending = []) (calls : List (Binary64 × Call)) :
    (assembler.run calls).value.1.pending.map (·.hash.hex) = waiting (assembler.history calls) := by
  obtain ⟨since, -⟩ := assembler.queue_run empty calls
  rw [since, List.map_filterMap, waiting]
  refine List.filterMap_congr fun o h => ?_
  have recorded := (List.rtakeWhile_suffix _ _).subset h
  exact (assembler.outcome_of_mem_history recorded).returned_eq.symm

/-- What a call answers after earlier ones is recomputed: a report on a block and the reports on what waits from their own texts,
which show the hashes that the additions before it answered, and the hash of an address from its name and key. The algorithm's name
is the one that the assembler tells. -/
structure Occurrence.Recomputed (algorithm : String) (earlier : List Occurrence) (o : Occurrence) : Prop where
  block : ∀ {predecessor tries data}, o.call = .sealPending predecessor tries data → ¬Refused o.reply →
    ∃ info, o.reply = .ok (.block info) ∧ info.Recomputed ∧ info.algorithm = algorithm ∧
      info.transactions.map (·.hash) = waiting earlier
  pending : o.call = .pending → ∃ infos, o.reply = .ok (.pending infos) ∧ (∀ info ∈ infos, info.Recomputed algorithm) ∧
    infos.map (·.hash) = waiting earlier
  addressHash : ∀ {name publicKey}, o.call = .addressHash name publicKey →
    o.reply = (digestHex [Hex.encode (Bytes.ofText name), publicKey] (some algorithm)).map fun digest => .hash digest.value
  algorithm : o.call = .algorithm → o.reply = .ok (.algorithm algorithm)

/-- What an assembler answers that can report. -/
theorem Reportable.recomputed (reportable : assembler.Reportable algorithm) (now : Binary64) (call : Call)
    {earlier : List Occurrence} (queue : assembler.pending.map (·.hash.hex) = waiting earlier) :
    (assembler.occurrence now call).Recomputed algorithm.name earlier where
  block := by
    rintro predecessor tries data rfl accepted
    cases read : parseOptionalHash predecessor with
    | error fault =>
      have stays := assembler.step_seal_of_error now read tries data
      have refused : (assembler.step now (.sealPending predecessor tries data)).value.2 = .error (.fault fault) := by
        rw [stays]
        rfl
      exact absurd ⟨.fault fault, refused⟩ accepted
    | ok hash =>
      obtain ⟨value, written⟩ := assembler.step_seal_of_ok now read tries data
      obtain ⟨sealed, same⟩ := reportable.block now hash tries data
      rw [occurrence_eq value written]
      refine ⟨_, rfl, sealed.recomputed, congrArg Algorithm.name same, ?_⟩
      rw [← queue]
      exact List.map_map ..
  pending := by
    rintro rfl
    refine ⟨assembler.pendingInfos, rfl, fun info listed => ?_, ?_⟩
    · obtain ⟨transaction, h, rfl⟩ := List.mem_map.1 listed
      exact (reportable.pending transaction h).recomputed
    · rw [← queue]
      exact List.map_map ..
  addressHash := by
    rintro name publicKey rfl
    obtain ⟨value, written⟩ := assembler.step_addressHash now name publicKey
    rw [occurrence_eq value written, reportable.addressHash]
    generalize digestHex [Hex.encode (Bytes.ofText name), publicKey] (some algorithm.name) = answer
    cases answer <;> rfl
  algorithm := by
    rintro rfl
    exact congrArg (fun algorithm => Except.ok (Reply.algorithm algorithm.name)) reportable.same

/-- What an assembler reports can be recomputed from the report alone. Whatever calls are made on a new one, and whatever the clock
gives, each answer is recomputed by the boundary's own calls, at any place among the others. The clock may give any number in double
precision, with a fraction or a sign, infinite or no number at all. -/
theorem reports_recompute {name : Option String} {created : Traced Assembler} (made : create name = .ok created)
    (calls : List (Binary64 × Call)) :
    let history := created.value.history calls
    (created.value.run calls).value.2 = history.map Occurrence.reply ∧
      ∀ {earlier later : List Occurrence} {o : Occurrence}, history = earlier ++ o :: later →
        o.Recomputed created.value.algorithm.name earlier := by
  refine ⟨(created.value.run_shows calls).1, ?_⟩
  intro earlier later o split
  obtain ⟨before, now, call, after, rfl, rfl, rfl⟩ := history_split split
  have reached := (reportable_create made).run before
  have queue := waiting_history (known_of_create made).2 before
  exact reached.recomputed now call queue

/-- The clock is beyond all 64-bit integers, then no number, then negative with a fraction: the block that is sealed last is
recomputed, and lists what the two additions answered. -/
theorem reports_recompute_clocks :
    let assembler : Assembler := ⟨.sha256, []⟩
    let calls : List (Binary64 × Call) :=
      [(.infinity false, .add "late" " ab " "CD"), (.nan, .add "never" "" ""),
        (.finite true (3 * 2 ^ 51) (-52) ⟨by decide, by decide, by decide, by decide⟩, .sealPending (some " ") 7 none)]
    let earlier := assembler.history (calls.take 2)
    create (some "MD5") = .ok ⟨assembler, [.event (.fallback .sha256)]⟩ ∧
      ∃ info, (assembler.run calls).value.2.getLast? = some (.ok (.block info)) ∧ info.Recomputed ∧
        info.transactions.map (·.hash) = waiting earlier := by
  intro assembler calls earlier
  have made : create (some "MD5") = .ok ⟨assembler, [.event (.fallback .sha256)]⟩ := by rfl
  obtain ⟨replies, recomputed⟩ := reports_recompute made calls
  have last : assembler.history calls = earlier ++ (assembler.run (calls.take 2)).value.1.occurrence _ _ :: [] := rfl
  obtain ⟨info, answered, sound, -, listed⟩ := (recomputed last).block rfl (by rintro ⟨_, ⟨⟩⟩)
  refine ⟨made, info, ?_, sound, listed⟩
  rw [replies, last, List.map_append, List.map_cons, answered]
  rfl

end Assembler

end SealedLedger
