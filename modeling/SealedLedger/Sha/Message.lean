import SealedLedger.Bytes

/-!
# Padding a message and cutting it into blocks

A message is extended by a byte with the top bit set, by zeros and by its length in bits, so that it fills a whole number of
blocks. The blocks are cut into words, and the words of a block are continued by a recurrence over the sixteen before.
-/

namespace SealedLedger.Sha

/-- What follows a message of `size` bytes: a marker byte, as few zeros as fill the last block, and the length in bits. -/
def padding (blockBytes lengthBytes size : Nat) : Bytes :=
  0x80 :: Bytes.zeros ((2 * blockBytes - 1 - lengthBytes - size % blockBytes) % blockBytes) ++
    Bytes.bigEndian lengthBytes (8 * size)

/-- The blocks of the padded message. -/
def blocks (blockBytes lengthBytes : Nat) (message : Bytes) : List Bytes :=
  let padded := message ++ padding blockBytes lengthBytes message.length
  Bytes.pieces blockBytes (padded.length / blockBytes) padded

/-- The sixteen numbers that a block spells. -/
def blockNumbers (wordBytes : Nat) (block : Bytes) : List Nat :=
  (Bytes.pieces wordBytes 16 block).map Bytes.value

/-- The first `count` words of a schedule that starts with the words of a window and continues by a rule on the window, which
moves on by one word at a time. -/
def schedule {word : Type} (next : List word → word) : Nat → List word → List word
  | 0, _ => []
  | _, [] => []
  | count + 1, first :: window => first :: schedule next count (window ++ [next (first :: window)])

end SealedLedger.Sha
