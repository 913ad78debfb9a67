import SealedLedger.Proofs.Collision
import SealedLedger.Proofs.Settled

/-!
# What the hashes of transactions and addresses commit to

The hash of a transaction covers text, sender hash and signature end to end and then the eight bytes of the timestamp, that of an
address the name and the key end to end. Nothing marks where one field ends and the next one starts, so bytes that move from a
field into its neighbour go unnoticed; but what a field holds can be cancelled on either side of another one, so a change to a
single field never does. Main statement: `Engine.hashes_commit`.
-/

namespace SealedLedger

namespace Transaction

/-- What the hash covers before the timestamp: text, sender hash and signature end to end. -/
def content (transaction : Transaction) : Bytes :=
  Bytes.ofText transaction.text ++ transaction.senderHash.bytes ++ transaction.signature

/-- Two transactions differ in exactly one of the fields that the hash covers. -/
inductive DifferInOne (transaction other : Transaction) : Prop where
  | text (differ : transaction.text ≠ other.text) (senderHash : transaction.senderHash = other.senderHash)
    (signature : transaction.signature = other.signature) (timestamp : transaction.timestamp = other.timestamp)
  | senderHash (text : transaction.text = other.text) (differ : transaction.senderHash ≠ other.senderHash)
    (signature : transaction.signature = other.signature) (timestamp : transaction.timestamp = other.timestamp)
  | signature (text : transaction.text = other.text) (senderHash : transaction.senderHash = other.senderHash)
    (differ : transaction.signature ≠ other.signature) (timestamp : transaction.timestamp = other.timestamp)
  | timestamp (text : transaction.text = other.text) (senderHash : transaction.senderHash = other.senderHash)
    (signature : transaction.signature = other.signature) (differ : transaction.timestamp ≠ other.timestamp)

variable {transaction other : Transaction}

/-- The covered bytes determine the timestamp and what stands before it, and are determined by these. -/
theorem preimage_eq_iff :
    transaction.preimage = other.preimage ↔ transaction.timestamp = other.timestamp ∧ transaction.content = other.content := by
  constructor
  · intro h
    obtain ⟨content, timestamp⟩ := List.append_inj' h (by simp)
    exact ⟨Bytes.bigEndian_integer_inj timestamp, content⟩
  · rintro ⟨timestamp, content⟩
    calc transaction.preimage
        = transaction.content ++ Bytes.bigEndian 8 transaction.timestamp.toUInt64.toNat := rfl
      _ = other.content ++ Bytes.bigEndian 8 other.timestamp.toUInt64.toNat := by rw [content, timestamp]
      _ = other.preimage := rfl

/-- Transactions that differ in exactly one covered field cover different bytes. -/
theorem DifferInOne.preimage_ne (differ : transaction.DifferInOne other) : transaction.preimage ≠ other.preimage := by
  intro h
  obtain ⟨sameTime, same⟩ := preimage_eq_iff.1 h
  unfold content at same
  cases differ with
  | text differ senderHash signature _ =>
    rw [senderHash, signature] at same
    exact differ (Bytes.ofText_inj (List.append_cancel_right (List.append_cancel_right same)))
  | senderHash text differ signature _ =>
    rw [text, signature] at same
    exact differ (congrArg Hash.mk (List.append_cancel_left (List.append_cancel_right same)))
  | signature text senderHash differ _ =>
    rw [text, senderHash] at same
    exact differ (List.append_cancel_left same)
  | timestamp _ _ _ differ => exact differ sameTime

end Transaction

namespace Address

/-- Two addresses differ in exactly one of the fields that the hash covers. -/
inductive DifferInOne (address other : Address) : Prop where
  | name (differ : address.name ≠ other.name) (publicKey : address.publicKey = other.publicKey)
  | publicKey (name : address.name = other.name) (differ : address.publicKey ≠ other.publicKey)

variable {address other : Address}

/-- Addresses that differ in exactly one covered field cover different bytes. -/
theorem DifferInOne.preimage_ne (differ : address.DifferInOne other) : address.preimage ≠ other.preimage := by
  intro same
  unfold preimage at same
  cases differ with
  | name differ publicKey =>
    rw [publicKey] at same
    exact differ (Bytes.ofText_inj (List.append_cancel_right same))
  | publicKey name differ =>
    rw [name] at same
    exact differ (List.append_cancel_left same)

end Address

namespace Engine

/-- What the hashes of transactions and addresses commit to. Two transactions that builders gave over one engine, and that store one
algorithm, have the same hash if they agree on the timestamp and on the bytes of text, sender hash and signature end to end, or else
if the bytes that they cover are different and have one digest; and in no other case. For two addresses the same holds of name and
key end to end. So to change just one field of a transaction or of an address always changes the hash, but for a collision. -/
theorem hashes_commit (engine : Engine) :
    (∀ transaction other : Transaction, transaction.Made engine → other.Made engine → transaction.algorithm = other.algorithm →
        (transaction.hash = other.hash ↔
            transaction.timestamp = other.timestamp ∧ transaction.content = other.content ∨
              engine.Collides transaction.algorithm [transaction.preimage, other.preimage]) ∧
          (transaction.DifferInOne other →
            (transaction.hash = other.hash ↔ engine.Collides transaction.algorithm [transaction.preimage, other.preimage]))) ∧
      ∀ address other : Address, address.Made engine → other.Made engine → address.algorithm = other.algorithm →
        (address.hash = other.hash ↔
            Bytes.ofText address.name ++ address.publicKey = Bytes.ofText other.name ++ other.publicKey ∨
              engine.Collides address.algorithm [address.preimage, other.preimage]) ∧
          (address.DifferInOne other →
            (address.hash = other.hash ↔ engine.Collides address.algorithm [address.preimage, other.preimage])) := by
  constructor
  · intro transaction other made made' algorithm
    have commits := hash_eq_iff made.settled.hash made'.settled.hash algorithm
    refine ⟨?_, fun differ => ?_⟩
    · rw [commits, Transaction.preimage_eq_iff]
    · rw [commits, or_iff_right differ.preimage_ne]
  · intro address other made made' algorithm
    have commits := hash_eq_iff made.settled.hash made'.settled.hash algorithm
    refine ⟨commits, fun differ => ?_⟩
    rw [commits, or_iff_right differ.preimage_ne]

/-- A letter that moves from the text into the sender hash, or from the name into the key, leaves the hash as it is, with an engine
that returns what it is given and so knows no collisions; one more byte of a signature, or another name for the same key, does
not. -/
theorem hashes_commit_moved :
    let plain : Combiner := ⟨identity, Config.standard⟩
    let signed := fun text sender signature => (Transaction.assemble plain text ⟨sender⟩ signature 5 .unknown).value
    let named := fun name publicKey => (Address.derive plain name publicKey .unknown).value
    (signed "ab" [] []).hash = (signed "a" [98] []).hash ∧ (signed "ab" [] []).hash ≠ (signed "ab" [] [1]).hash ∧
      (named "ab" [1]).hash = (named "a" [98, 1]).hash ∧ (named "ab" [1]).hash ≠ (named "ac" [1]).hash := by
  intro plain signed named
  have made : ∀ text sender signature, (signed text sender signature).Made identity := by
    intro text sender signature
    exact Transaction.made_assemble ..
  have derived : ∀ name publicKey, (named name publicKey).Made identity := by
    intro name publicKey
    exact .derived Config.standard name publicKey .unknown
  obtain ⟨transactions, addresses⟩ := hashes_commit identity
  refine ⟨?_, fun same => ?_, ?_, fun same => ?_⟩
  · exact (transactions _ _ (made "ab" [] []) (made "a" [98] []) rfl).1.2 (Or.inl ⟨rfl, by decide⟩)
  · have one : (signed "ab" [] []).DifferInOne (signed "ab" [] [1]) := .signature rfl rfl (by decide) rfl
    exact identity_not_collides (((transactions _ _ (made "ab" [] []) (made "ab" [] [1]) rfl).2 one).1 same)
  · exact (addresses _ _ (derived "ab" [1]) (derived "a" [98, 1]) rfl).1.2 (Or.inl (by decide))
  · have one : (named "ab" [1]).DifferInOne (named "ac" [1]) := .name (by decide) rfl
    exact identity_not_collides (((addresses _ _ (derived "ab" [1]) (derived "ac" [1]) rfl).2 one).1 same)

end Engine

end SealedLedger
