import SealedLedger.Assembler
import SealedLedger.Proofs.Boundary.Parsing

/-!
# What one call on an assembler does

A call that adds a transaction or seals a block first reads its texts. If they spell no bytes it is refused and all stays as it
was; otherwise the queue grows by one transaction at its end, or all of it goes into a block. One lemma for each way that a call
can go says what it leaves, what it answers and which lines it writes; nothing below the assembler writes a line.
-/

namespace SealedLedger

/-! ## Nothing below the assembler writes a line -/

namespace Combiner

variable (combiner : Combiner)

theorem lines_resolve (algorithm : Algorithm) : (combiner.resolve algorithm).lines = [] := by
  unfold resolve
  split <;> rfl

theorem lines_digestWith (fields : List Field) (algorithm : Algorithm) : (combiner.digestWith fields algorithm).lines = [] := by
  rw [digestWith, Traced.lines_bind, lines_resolve]
  rfl

theorem lines_reduceLevel (algorithm : Algorithm) (nodes : List Hash) : (combiner.reduceLevel algorithm nodes).lines = [] := by
  rw [reduceLevel, Traced.lines_forEach, List.flatMap_eq_nil_iff]
  rintro ⟨left, right⟩ -
  exact combiner.lines_digestWith _ algorithm

theorem lines_reduceFrom (algorithm : Algorithm) (depth : Nat) (nodes : List Hash) :
    (combiner.reduceFrom algorithm depth nodes).lines = [] := by
  induction hn : nodes.length using Nat.strong_induction_on generalizing depth nodes with
  | _ n ih =>
    by_cases few : nodes.length ≤ 1
    · rw [combiner.reduceFrom_of_le _ _ few]
      rfl
    · have shorter := combiner.length_reduceLevel algorithm nodes
      rw [combiner.reduceFrom_of_lt _ _ (by omega), Traced.lines_bind, lines_reduceLevel, Traced.lines_bind,
        ih _ (by omega) (depth + 1) _ rfl]
      rfl

theorem lines_merkleRootWith (leaves : List Hash) (algorithm : Algorithm) :
    (combiner.merkleRootWith leaves algorithm).lines = [] := by
  rw [merkleRootWith, Traced.lines_bind, lines_resolve, Traced.lines_bind, lines_reduceFrom]
  split
  · rfl
  · rw [emptyRoot]
    split
    · rfl
    · rw [Traced.lines_bind, lines_digestWith]
      rfl

end Combiner

theorem Transaction.lines_assemble (combiner : Combiner) (text : String) (senderHash : Hash) (signature : Bytes)
    (timestamp : Int64) (algorithm : Algorithm) :
    (assemble combiner text senderHash signature timestamp algorithm).lines = [] := by
  rw [assemble, Traced.lines_bind, combiner.lines_resolve, Traced.lines_bind, combiner.lines_digestWith]
  rfl

theorem Draft.lines_sealWith (combiner : Combiner) (now : Int64) (draft : Draft) : (draft.sealWith combiner now).lines = [] := by
  rw [sealWith, Traced.lines_bind, combiner.lines_resolve, Traced.lines_bind, combiner.lines_merkleRootWith, Traced.lines_bind,
    combiner.lines_digestWith]
  rfl

theorem Address.lines_derive (combiner : Combiner) (name : String) (publicKey : Bytes) (algorithm : Algorithm) :
    (derive combiner name publicKey algorithm).lines = [] := by
  rw [derive, Traced.lines_bind, combiner.lines_resolve, Traced.lines_bind, combiner.lines_digestWith]
  rfl

namespace Assembler

open Boundary Text

/-- The texts of an addition are refused if and only if one of them spells no bytes between its outer blanks. -/
theorem refused_readSigned_iff (senderHash signature : String) :
    Refused (readSigned senderHash signature) ↔ ¬Hex.Spells (trim senderHash) ∨ ¬Hex.Spells (trim signature) := by
  rw [← refused_parseHash_iff, ← refused_decodeBytes_iff, readSigned]
  cases parseHash senderHash with
  | error fault => simp [Refused, orFault, bind, Except.bind]
  | ok hash =>
    cases decodeBytes signature with
    | error e => simp [Refused, orFault, orUndecodable, bind, Except.bind]
    | ok bytes => simp [Refused, orFault, orUndecodable, bind, Except.bind, pure, Except.pure]

/-- The texts of an addition are read as the bytes that they spell between their outer blanks. -/
theorem readSigned_eq_ok {senderHash signature : String} {hash : Hash} {bytes : Bytes}
    (read : readSigned senderHash signature = .ok (hash, bytes)) :
    Hex.decode (trim senderHash) = .ok hash.bytes ∧ Hex.decode (trim signature) = .ok bytes := by
  rw [readSigned, parseHash, Hash.ofHex, decodeBytes] at read
  cases sender : Hex.decode (trim senderHash) with
  | error e =>
    rw [sender] at read
    cases read
  | ok spelled =>
    cases signed : Hex.decode (trim signature) with
    | error e =>
      rw [sender, signed] at read
      cases read
    | ok bytes =>
      rw [sender, signed] at read
      cases read
      exact ⟨rfl, rfl⟩

variable (assembler : Assembler) (now : Binary64)

/-- What is added is assembled of the texts' bytes and the clock, since the builder has everything. -/
theorem add_of_readSigned (text : String) {senderHash signature : String} {hash : Hash} {bytes : Bytes}
    (read : readSigned senderHash signature = .ok (hash, bytes)) :
    assembler.add now text senderHash signature = (do
      let transaction ← Transaction.assemble Combiner.standard text hash bytes now.toInt64 assembler.algorithm
      return ({ assembler with pending := assembler.pending ++ [transaction] }, .ok transaction.hash.hex)) := by
  rw [add, read]
  simp only [build_builder, orFault]

theorem step_add (text senderHash signature : String) :
    assembler.step now (.add text senderHash signature) =
      (fun (next, hash) => (next, hash.map .hash)) <$> assembler.add now text senderHash signature := rfl

theorem step_sealPending (predecessor : Option String) (tries : UInt32) (data : Option String) :
    assembler.step now (.sealPending predecessor tries data) =
      (fun (next, info) => (next, info.map .block)) <$> assembler.sealPending now predecessor tries data := rfl

/-- An addition whose texts are refused leaves the assembler as it was. -/
theorem step_add_of_error (text : String) {senderHash signature : String} {refusal : Refusal}
    (read : readSigned senderHash signature = .error refusal) :
    assembler.step now (.add text senderHash signature) = pure (assembler, .error refusal) := by
  rw [step_add]
  unfold add
  rw [read]
  rfl

/-- Any other addition puts one transaction at the end of the queue and writes nothing. -/
theorem step_add_of_ok (text : String) {senderHash signature : String} {hash : Hash} {bytes : Bytes}
    (read : readSigned senderHash signature = .ok (hash, bytes)) :
    let transaction := (Transaction.assemble Combiner.standard text hash bytes now.toInt64 assembler.algorithm).value
    (assembler.step now (.add text senderHash signature)).value =
        ({ assembler with pending := assembler.pending ++ [transaction] }, .ok (.hash transaction.hash.hex)) ∧
      (assembler.step now (.add text senderHash signature)).lines = [] := by
  rw [step_add, assembler.add_of_readSigned now text read]
  refine ⟨rfl, ?_⟩
  rw [Traced.lines_map, Traced.lines_bind, Transaction.lines_assemble]
  rfl

/-- A sealing whose predecessor is refused leaves the assembler as it was. -/
theorem step_seal_of_error {predecessor : Option String} {fault : Fault} (read : parseOptionalHash predecessor = .error fault)
    (tries : UInt32) (data : Option String) :
    assembler.step now (.sealPending predecessor tries data) = pure (assembler, .error (.fault fault)) := by
  rw [step_sealPending]
  unfold sealPending
  rw [read]
  rfl

/-- Any other sealing puts the whole queue into a block and writes one line. -/
theorem step_seal_of_ok {predecessor : Option String} {hash : Option Hash} (read : parseOptionalHash predecessor = .ok hash)
    (tries : UInt32) (data : Option String) :
    let block := ((assembler.draft now hash tries data).sealWith Combiner.standard now.toInt64).value
    (assembler.step now (.sealPending predecessor tries data)).value =
        ({ assembler with pending := [] }, .ok (.block (BlockInfo.ofBlock block))) ∧
      (assembler.step now (.sealPending predecessor tries data)).lines = [sealedLine block] := by
  rw [step_sealPending]
  unfold sealPending
  rw [read]
  refine ⟨rfl, ?_⟩
  rw [Traced.lines_map, orFault, Traced.lines_bind, Draft.lines_sealWith]
  rfl

/-- Asking for the hash of an address changes and writes nothing. -/
theorem step_addressHash (name publicKey : String) :
    (assembler.step now (.addressHash name publicKey)).value =
        (assembler, (assembler.addressHash name publicKey).value.map .hash) ∧
      (assembler.step now (.addressHash name publicKey)).lines = [] := by
  have asked : assembler.step now (.addressHash name publicKey) =
    (fun hash => (assembler, hash.map .hash)) <$> assembler.addressHash name publicKey := rfl
  rw [asked, Traced.value_map, Traced.lines_map]
  refine ⟨rfl, ?_⟩
  unfold addressHash
  cases orUndecodable (decodeBytes publicKey) with
  | error refusal => rfl
  | ok bytes => exact (Traced.lines_map _ _).trans (Address.lines_derive ..)

end Assembler

end SealedLedger
