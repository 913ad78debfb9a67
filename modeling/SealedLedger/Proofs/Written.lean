import SealedLedger.Address
import SealedLedger.Block
import SealedLedger.Proofs.Json.Delimited

/-!
# What an entity is written as determines it

Addresses, transactions and blocks are written as JSON objects in compact form, and nothing reads them back. Each field is written
in a way that tells its values apart: bytes in hexadecimal, numbers in decimal, an algorithm by its name, an absent predecessor as
null where a present one is a text. Since a compact text determines the value that was written, it determines the entity. Main
statement: `written_forms_determine`.
-/

namespace SealedLedger

/-! ## Fields -/

namespace Json

theorem Numeral.ofInt_injective : Function.Injective Numeral.ofInt := by
  intro n n' h
  obtain ⟨sign, size⟩ : (decide (n < 0) = decide (n' < 0)) ∧ n.natAbs = n'.natAbs := by
    simpa only [Numeral.ofInt, Numeral.mk.injEq, and_true] using h
  have sign := decide_eq_decide.1 sign
  omega

theorem Value.ofInt_injective : Function.Injective Value.ofInt := by
  intro n n' h
  exact Numeral.ofInt_injective (Value.number.inj h)

/-- Null stands for no text and for nothing else. -/
theorem Value.ofText?_injective : Function.Injective Value.ofText? := by
  intro s s' h
  cases s with
  | none =>
    cases s' with
    | none => rfl
    | some => cases h
  | some =>
    cases s' with
    | none => cases h
    | some => exact congrArg some (Value.text.inj h)

end Json

theorem Text.Hex.encode_injective : Function.Injective Text.Hex.encode := by
  intro bytes bytes' h
  have decoded := Text.Hex.decode_encode bytes
  rw [h, Text.Hex.decode_encode] at decoded
  exact (Except.ok.inj decoded).symm

theorem Hash.hex_injective : Function.Injective Hash.hex := by
  intro hash hash' h
  cases hash
  cases hash'
  exact congrArg Hash.mk (Text.Hex.encode_injective h)

theorem Hash.toJson_injective : Function.Injective Hash.toJson := by
  intro hash hash' h
  exact Hash.hex_injective (Json.Value.text.inj h)

theorem Algorithm.toJson_injective : Function.Injective Algorithm.toJson := by
  intro algorithm algorithm' h
  have names : algorithm.name = algorithm'.name := Json.Value.text.inj h
  rw [← Algorithm.ofName_name algorithm, names, Algorithm.ofName_name]

/-! ## Entities -/

theorem Address.toJson_injective : Function.Injective Address.toJson := by
  intro address address' h
  simp only [toJson, Json.Value.object.injEq, List.cons.injEq, Prod.mk.injEq, true_and, and_true, Json.Value.text.injEq] at h
  obtain ⟨name, publicKey, algorithm, hash⟩ := h
  cases address
  cases address'
  congr
  · exact Text.Hex.encode_injective publicKey
  · exact Algorithm.toJson_injective algorithm
  · exact Hash.toJson_injective hash

theorem Transaction.toJson_injective : Function.Injective Transaction.toJson := by
  intro transaction transaction' h
  simp only [toJson, Json.Value.object.injEq, List.cons.injEq, Prod.mk.injEq, true_and, and_true, Json.Value.text.injEq] at h
  obtain ⟨text, senderHash, signature, timestamp, algorithm, hash⟩ := h
  cases transaction
  cases transaction'
  congr
  · exact Hash.toJson_injective senderHash
  · exact Text.Hex.encode_injective signature
  · exact Int64.toInt_inj.1 (Json.Value.ofInt_injective timestamp)
  · exact Algorithm.toJson_injective algorithm
  · exact Hash.toJson_injective hash

theorem Block.toJson_injective : Function.Injective Block.toJson := by
  intro block block' h
  simp only [toJson, Json.Value.object.injEq, List.cons.injEq, Prod.mk.injEq, true_and, and_true, Json.Value.text.injEq,
    Json.Value.list.injEq] at h
  obtain ⟨predecessor, transactions, tries, timestamp, merkleRoot, hash, data, algorithm⟩ := h
  cases block
  cases block'
  congr
  · exact Option.map_injective Hash.hex_injective (Json.Value.ofText?_injective predecessor)
  · exact (List.map_inj_right fun _ _ same => Transaction.toJson_injective same).1 transactions
  · exact UInt64.toNat_inj.1 (Int.ofNat_inj.1 (Json.Value.ofInt_injective tries))
  · exact Int64.toInt_inj.1 (Json.Value.ofInt_injective timestamp)
  · exact Hash.toJson_injective merkleRoot
  · exact Hash.toJson_injective hash
  · exact Algorithm.toJson_injective algorithm

/-- The text that an entity is written as determines it, whatever made it and whatever its texts hold: two blocks, two
transactions or two addresses that are written alike are the same in all their fields. So a block's text tells whether it has a
predecessor, and how many transactions it lists, in which order and with which algorithm each. -/
theorem written_forms_determine :
    Function.Injective (fun block : Block => block.toJson.render) ∧
      Function.Injective (fun transaction : Transaction => transaction.toJson.render) ∧
        Function.Injective fun address : Address => address.toJson.render := by
  refine ⟨?_, ?_, ?_⟩
  · exact Json.Value.render_injective.comp Block.toJson_injective
  · exact Json.Value.render_injective.comp Transaction.toJson_injective
  · exact Json.Value.render_injective.comp Address.toJson_injective

end SealedLedger
