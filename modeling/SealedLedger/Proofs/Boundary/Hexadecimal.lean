import Mathlib.Data.List.Forall2
import SealedLedger.Proofs.Assembler.Step
import SealedLedger.Proofs.Boundary.Recomputing
import SealedLedger.Proofs.Settled
import SealedLedger.Proofs.Text.Respelling

/-!
# Hexadecimal arguments

A call on a list of texts asks for the algorithm first and then reads the texts in order, and the first that spells no bytes is
reported. If all of them spell some, the answer is made of these, with order and number kept (`Boundary.ReadsStrictly`). A text is only
read for the bytes it spells, so a call on respelled texts has the same outcome, and so has a run of calls: answers, state, questions,
events and lines are all the same (`Assembler.run_respelled`). Other texts are taken as they are (`Assembler.Verbatim`). Main
statement: `Boundary.hex_arguments`.
-/

namespace SealedLedger

open Text

namespace Boundary

/-! ## Lists of texts -/

/-- Texts that all spell bytes are read as these, one by one. -/
theorem decodeAll_of_spells {texts : List String} (spell : ∀ text ∈ texts, Hex.Spells (trim text)) :
    ∃ datas, List.Forall₂ (fun text data => Hex.decode (trim text) = .ok data) texts datas ∧ decodeAll texts = .ok datas := by
  induction texts with
  | nil => exact ⟨[], .nil, rfl⟩
  | cons text texts ih =>
    obtain ⟨datas, each, all⟩ := ih fun text h => spell text (.tail _ h)
    have first := Hex.decode_of_spells (spell text (.head _))
    refine ⟨_, .cons first each, ?_⟩
    rw [decodeAll_cons, decodeBytes, first, all]
    rfl

/-- The first text that spells no bytes is the one that is reported, whatever follows it. -/
theorem decodeAll_of_first {good : List String} (spell : ∀ text ∈ good, Hex.Spells (trim text)) {bad : String} {e : Hex.Error}
    (wrong : Hex.decode (trim bad) = .error e) (rest : List String) : decodeAll (good ++ bad :: rest) = .error e := by
  induction good with
  | nil =>
    rw [List.nil_append, decodeAll_cons, decodeBytes, wrong]
    rfl
  | cons text good ih =>
    rw [List.cons_append, decodeAll_cons, decodeBytes, Hex.decode_of_spells (spell text (.head _)),
      ih fun text h => spell text (.tail _ h)]
    rfl

/-- Texts are refused if and only if one of them spells no bytes. -/
theorem refused_decodeAll_iff (texts : List String) : Refused (decodeAll texts) ↔ ∃ text ∈ texts, ¬Hex.Spells (trim text) := by
  induction texts with
  | nil => simp [decodeAll, Refused]
  | cons text texts ih =>
    have one := refused_decodeBytes_iff text
    rw [decodeAll_cons, List.exists_mem_cons_iff, ← ih, ← one]
    cases decodeBytes text with
    | error e => simp [Refused, Except.bind]
    | ok bytes => cases decodeAll texts <;> simp [Refused, Except.bind, Except.map]

/-- Hashes are read as bytes are; only the fault says what was wanted. -/
theorem parseHashes_eq (texts : List String) : parseHashes texts = orInvalidHex ((decodeAll texts).map (List.map Hash.mk)) := by
  induction texts with
  | nil => rfl
  | cons text texts ih =>
    have one : parseHash text = orInvalidHex ((decodeBytes text).map Hash.mk) := rfl
    rw [parseHashes, ih, one, decodeAll_cons]
    cases decodeBytes text with
    | error e => rfl
    | ok bytes => cases decodeAll texts <;> rfl

/-! ## Calls on lists of texts -/

/-- A call on texts in hexadecimal is strict. Without an algorithm it is refused before any text is read; with one, known or not, it is
refused if and only if some text spells no bytes between its outer blanks, and the first of these is reported. Otherwise the answer is
the lowercase spelling of what is made of the bytes that the texts spell, in their order. Respelled texts have the same outcome. -/
structure ReadsStrictly (call : List String → Option String → Except Refusal (Traced String)) (refusal : Hex.Error → Refusal)
    (answer : List Bytes → Algorithm → Traced Hash) : Prop where
  absent : ∀ texts, call texts none = .error (.fault .missingAlgorithm)
  refused_iff : ∀ texts algorithm, Refused (call texts algorithm) ↔
    algorithm = none ∨ ∃ text ∈ texts, ¬Hex.Spells (trim text)
  first : ∀ good bad rest name e, (∀ text ∈ good, Hex.Spells (trim text)) → Hex.decode (trim bad) = .error e →
    call (good ++ bad :: rest) (some name) = .error (refusal e)
  accepted : ∀ texts name, (∀ text ∈ texts, Hex.Spells (trim text)) → ∃ datas,
    List.Forall₂ (fun text data => Hex.decode (trim text) = .ok data) texts datas ∧
      call texts (some name) = .ok (Hash.hex <$> answer datas (Algorithm.ofName name))
  respelled : ∀ texts others algorithm, List.Forall₂ Respelled texts others → call texts algorithm = call others algorithm

theorem decodeAll_respelled {texts others : List String} (respelled : List.Forall₂ Respelled texts others) :
    decodeAll texts = decodeAll others := by
  induction respelled with
  | nil => rfl
  | cons one _ ih => rw [decodeAll_cons, decodeAll_cons, decodeBytes, decodeBytes, one.decode_trim, ih]

/-- A call is strict if it asks for the algorithm first and is made of what its texts are read as. -/
theorem ReadsStrictly.of_decodeAll {call : List String → Option String → Except Refusal (Traced String)}
    {refusal : Hex.Error → Refusal} {answer : List Bytes → Algorithm → Traced Hash}
    (absent : ∀ texts, call texts none = .error (.fault .missingAlgorithm))
    (given : ∀ texts name, call texts (some name) =
      match decodeAll texts with
      | .error e => .error (refusal e)
      | .ok datas => .ok (Hash.hex <$> answer datas (Algorithm.ofName name))) : ReadsStrictly call refusal answer where
  absent := absent
  refused_iff := by
    intro texts algorithm
    cases algorithm with
    | none => simp [absent, Refused]
    | some name =>
      rw [given, ← refused_decodeAll_iff]
      cases decodeAll texts <;> simp [Refused]
  first := by
    intro good bad rest name e spell wrong
    rw [given, decodeAll_of_first spell wrong rest]
  accepted := by
    intro texts name spell
    obtain ⟨datas, each, all⟩ := decodeAll_of_spells spell
    refine ⟨datas, each, ?_⟩
    rw [given, all]
  respelled := by
    intro texts others algorithm respelled
    cases algorithm with
    | none => rw [absent, absent]
    | some name => rw [given, given, decodeAll_respelled respelled]

/-- Fields laid end to end are one field of all their bytes. -/
theorem digestWith_flatten (combiner : Combiner) (datas : List Bytes) (algorithm : Algorithm) :
    combiner.digestWith (datas.map Field.bytes) algorithm = combiner.digestWith [.bytes datas.flatten] algorithm := by
  have joined : Field.encodeAll [.bytes datas.flatten] = datas.flatten := by simp [Field.encodeAll, Field.encode]
  rw [Combiner.digestWith, Combiner.digestWith, encodeAll_bytes, joined]

theorem digestHex_readsStrictly :
    ReadsStrictly digestHex .undecodable fun datas => Combiner.standard.digestWith [.bytes datas.flatten] := by
  refine .of_decodeAll (fun _ => rfl) fun texts name => ?_
  rw [digestHex]
  cases decodeAll texts with
  | error e => rfl
  | ok datas => exact congrArg (fun digest => Except.ok (Hash.hex <$> digest)) (digestWith_flatten _ datas _)

theorem merkleRootHex_readsStrictly :
    ReadsStrictly merkleRootHex (fun e => .fault (.invalidHex e)) fun datas =>
      Combiner.standard.merkleRootWith (datas.map Hash.mk) := by
  refine .of_decodeAll (fun _ => rfl) fun texts name => ?_
  rw [merkleRootHex, parseHashes_eq]
  cases decodeAll texts <;> rfl

/-! ## Calls on single texts -/

section

variable {text other : String} (respelled : Respelled text other)

include respelled

theorem decodeBytes_respelled : decodeBytes text = decodeBytes other :=
  respelled.decode_trim

theorem parseHash_respelled : parseHash text = parseHash other := by
  rw [parseHash, parseHash, Hash.ofHex, Hash.ofHex, respelled.decode_trim]

theorem leadingZeroBytesHex_respelled : leadingZeroBytesHex text = leadingZeroBytesHex other := by
  rw [leadingZeroBytesHex, leadingZeroBytesHex, parseHash_respelled respelled]

end

/-- An absent text is read as an empty one. -/
theorem parseOptionalHash_eq (text : Option String) : parseOptionalHash text = parseOptionalHash (some (text.getD "")) := by
  cases text <;> rfl

/-- Of an optional text only the spelling counts, and an absent one is spelled like a blank one. -/
theorem parseOptionalHash_respelled {text other : Option String} (respelled : Respelled (text.getD "") (other.getD "")) :
    parseOptionalHash text = parseOptionalHash other := by
  rw [parseOptionalHash_eq text, parseOptionalHash_eq other, parseOptionalHash, parseOptionalHash, respelled.trim_isEmpty,
    parseHash_respelled respelled]

end Boundary

namespace Assembler

open Boundary

/-! ## Calls on an assembler -/

/-- Two calls are the same but for the spelling of bytes in their arguments; an absent predecessor counts as a blank one. -/
inductive Call.Respelled : Call → Call → Prop where
  | add (text : String) {senderHash senderHash' signature signature' : String} (hash : Text.Respelled senderHash senderHash')
    (signed : Text.Respelled signature signature') :
    Respelled (.add text senderHash signature) (.add text senderHash' signature')
  | sealPending {predecessor predecessor' : Option String}
    (hash : Text.Respelled (predecessor.getD "") (predecessor'.getD "")) (tries : UInt32) (data : Option String) :
    Respelled (.sealPending predecessor tries data) (.sealPending predecessor' tries data)
  | addressHash (name : String) {publicKey publicKey' : String} (key : Text.Respelled publicKey publicKey') :
    Respelled (.addressHash name publicKey) (.addressHash name publicKey')
  | refl (call : Call) : Respelled call call

theorem step_respelled {call call' : Call} (respelled : call.Respelled call') (assembler : Assembler) (now : Binary64) :
    assembler.step now call = assembler.step now call' := by
  cases respelled with
  | add text hash signed =>
    rw [step_add, step_add]
    unfold add
    rw [readSigned, readSigned, parseHash_respelled hash, decodeBytes_respelled signed]
  | sealPending hash tries data =>
    rw [step_sealPending, step_sealPending]
    unfold sealPending
    rw [parseOptionalHash_respelled hash]
  | addressHash name key =>
    unfold step
    dsimp only
    unfold addressHash
    rw [decodeBytes_respelled key]
  | refl => rfl

/-- Runs of calls at the same times that are respelled one by one have the same outcome. -/
theorem run_respelled {calls calls' : List (Binary64 × Call)}
    (respelled : List.Forall₂ (fun entry entry' => entry.1 = entry'.1 ∧ entry.2.Respelled entry'.2) calls calls')
    (assembler : Assembler) : assembler.run calls = assembler.run calls' := by
  induction respelled generalizing assembler with
  | nil => rfl
  | @cons entry entry' calls calls' one _ ih =>
    obtain ⟨now, call⟩ := entry
    obtain ⟨now', call'⟩ := entry'
    obtain ⟨rfl, same⟩ := one
    rw [run, run, step_respelled same assembler now]
    simp only [ih]

/-- An assembler takes other texts as they are: the text of a transaction, the annotation of a block, and the name of an address,
whose hash is that of an address with just this name. -/
structure Verbatim (assembler : Assembler) (now : Binary64) : Prop where
  text : ∀ text senderHash signature hash, (assembler.add now text senderHash signature).value.2 = .ok hash →
    ∃ transaction, (assembler.add now text senderHash signature).value.1.pending = assembler.pending ++ [transaction] ∧
      transaction.text = text ∧ transaction.hash.hex = hash
  data : ∀ predecessor tries data info, (assembler.sealPending now predecessor tries data).value.2 = .ok info →
    info.data = data.getD ""
  name : ∀ name publicKey hash, (assembler.addressHash name publicKey).value = .ok hash →
    ∃ address : Address, address.name = name ∧ address.Settled Engine.standard ∧ address.hash.hex = hash

/-- A blank predecessor is the same as none. -/
theorem sealPending_of_blank (assembler : Assembler) (now : Binary64) {given : String} (blank : Blank given) (tries : UInt32)
    (data : Option String) :
    assembler.sealPending now (some given) tries data = assembler.sealPending now none tries data := by
  have absent : parseOptionalHash (some given) = .ok none := by
    rw [parseOptionalHash, if_pos ((trim_isEmpty_iff given).2 blank)]
  unfold sealPending
  rw [absent]
  rfl

theorem verbatim (assembler : Assembler) (now : Binary64) : assembler.Verbatim now where
  text := by
    intro text senderHash signature hash added
    unfold add at added ⊢
    cases read : readSigned senderHash signature with
    | error refusal =>
      rw [read] at added
      cases added
    | ok signed =>
      rw [read] at added
      cases added
      exact ⟨_, rfl, rfl, rfl⟩
  data := by
    intro predecessor tries data info sealed
    unfold sealPending at sealed
    cases read : parseOptionalHash predecessor with
    | error fault =>
      rw [read] at sealed
      cases sealed
    | ok hash =>
      rw [read] at sealed
      cases sealed
      rfl
  name := by
    intro name publicKey hash derived
    unfold addressHash at derived
    cases read : decodeBytes publicKey with
    | error e =>
      rw [read] at derived
      cases derived
    | ok bytes =>
      rw [read] at derived
      cases derived
      exact ⟨_, rfl, Address.settled_derive Combiner.standard name bytes assembler.algorithm, rfl⟩

end Assembler

namespace Boundary

/-- Arguments in hexadecimal. The digest and the Merkle root of texts are strict: an absent algorithm is refused first, then the first
text that spells no bytes between its outer blanks, and the answer is the lowercase spelling of the digest of all bytes end to end or of
the root of the hashes in their order. For these, for the count of zero bytes and for every run of calls on an assembler, texts that
differ only in the blanks around them and in the case of digits have the same outcome, be it an answer or an error, with the same state,
questions, events and lines. A blank predecessor is the same as none. Texts, annotations and names are not trimmed. -/
theorem hex_arguments :
    (ReadsStrictly digestHex .undecodable fun datas => Combiner.standard.digestWith [.bytes datas.flatten]) ∧
      (ReadsStrictly merkleRootHex (fun e => .fault (.invalidHex e)) fun datas =>
        Combiner.standard.merkleRootWith (datas.map Hash.mk)) ∧
      (∀ hash hash', Respelled hash hash' → leadingZeroBytesHex hash = leadingZeroBytesHex hash') ∧
      ∀ assembler : Assembler,
        (∀ calls calls', List.Forall₂ (fun entry entry' => entry.1 = entry'.1 ∧ entry.2.Respelled entry'.2) calls calls' →
          assembler.run calls = assembler.run calls') ∧
        ∀ now, assembler.Verbatim now ∧ ∀ given tries data, Blank given →
          assembler.sealPending now (some given) tries data = assembler.sealPending now none tries data := by
  refine ⟨digestHex_readsStrictly, merkleRootHex_readsStrictly, fun _ _ => leadingZeroBytesHex_respelled, fun assembler => ?_⟩
  refine ⟨fun _ _ respelled => Assembler.run_respelled respelled assembler, fun now => ⟨assembler.verbatim now, ?_⟩⟩
  exact fun _ tries data blank => assembler.sealPending_of_blank now blank tries data

/-- Digits in either case and blanks of several kinds: two runs of an addition and a sealing have the same outcome, the text of the
addition keeps its blanks, and of two bad texts the first is reported. -/
theorem hex_arguments_padded :
    let assembler : Assembler := ⟨.sha256, []⟩
    let padded : List (Binary64 × Assembler.Call) :=
      [(.ofInt 1, .add " paid " "\u3000aB" "cD\n"), (.ofInt 2, .sealPending (some "\u2028") 7 none)]
    let plain : List (Binary64 × Assembler.Call) := [(.ofInt 1, .add " paid " "Ab" "Cd"), (.ofInt 2, .sealPending none 7 none)]
    assembler.run padded = assembler.run plain ∧
      (∃ transaction, (assembler.add (.ofInt 1) " paid " "Ab" "Cd").value.1.pending = [transaction] ∧ transaction.text = " paid ") ∧
      digestHex ["\u3000aB", "cD\n"] (some "MD5") = digestHex ["Ab", "Cd"] (some "MD5") ∧
      digestHex ["ab", " ag", "abc"] (some "MD5") = .error (.undecodable (.invalidDigit 103 1)) ∧
      merkleRootHex ["ab", "abc", " ag"] (some "MD5") = .error (.fault (.invalidHex .oddLength)) := by
  intro assembler padded plain
  obtain ⟨digest, root, -, calls⟩ := hex_arguments
  obtain ⟨runs, kept⟩ := calls assembler
  have hash : Respelled "\u3000aB" "Ab" :=
    .intro (show _ = ['\u3000'] ++ ['a', 'B'] ++ [] from rfl) (show _ = [] ++ ['A', 'b'] ++ [] from rfl)
      (List.all_eq_true.1 rfl) (List.all_eq_true.1 rfl) rfl
  have signature : Respelled "cD\n" "Cd" :=
    .intro (show _ = [] ++ ['c', 'D'] ++ ['\n'] from rfl) (show _ = [] ++ ['C', 'd'] ++ [] from rfl)
      (List.all_eq_true.1 rfl) (List.all_eq_true.1 rfl) rfl
  have predecessor : Respelled (Option.getD (some "\u2028") "") (Option.getD none "") :=
    .intro (show _ = ['\u2028'] ++ [] ++ [] from rfl) (show _ = [] ++ [] ++ [] from rfl)
      (List.all_eq_true.1 rfl) (List.all_eq_true.1 rfl) rfl
  have spell : ∀ text ∈ ["ab"], Hex.Spells (trim text) := by
    intro text h
    obtain rfl := List.mem_singleton.1 h
    exact ⟨by decide +kernel, by decide +kernel⟩
  refine ⟨?_, ?_, digest.respelled _ _ _ (.cons hash (.cons signature .nil)), ?_, ?_⟩
  · exact runs _ _ (.cons ⟨rfl, .add " paid " hash signature⟩ (.cons ⟨rfl, .sealPending predecessor 7 none⟩ .nil))
  · obtain ⟨transaction, queued, text, -⟩ := (kept (.ofInt 1)).1.text " paid " "Ab" "Cd" _ rfl
    exact ⟨transaction, queued, text⟩
  · exact digest.first ["ab"] " ag" ["abc"] "MD5" _ spell (by decide +kernel)
  · exact root.first ["ab"] "abc" [" ag"] "MD5" _ spell (by decide +kernel)

end Boundary

end SealedLedger
