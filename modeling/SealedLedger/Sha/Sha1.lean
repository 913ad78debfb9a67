import SealedLedger.Sha.Message

/-!
# SHA-1

Eighty rounds over five words of four bytes; the round function and its constant change every twenty rounds. Main statement: a
digest has twenty bytes, whatever the message (`Sha1.length_digest`).
-/

namespace SealedLedger.Sha.Sha1

/-- The five working words. -/
structure State where
  a : UInt32
  b : UInt32
  c : UInt32
  d : UInt32
  e : UInt32

/-- The working words in order. -/
def State.words (s : State) : List UInt32 :=
  [s.a, s.b, s.c, s.d, s.e]

/-- Rotation to the left by less than the number of bits. -/
def rotate (w count : UInt32) : UInt32 :=
  (w <<< count) ||| (w >>> (32 - count))

/-- The word that follows a window of sixteen. -/
def nextWord (window : List UInt32) : UInt32 :=
  rotate (window.getD 13 0 ^^^ window.getD 8 0 ^^^ window.getD 2 0 ^^^ window.getD 0 0) 1

/-- How a round mixes the second, third and fourth working words. -/
inductive Mix where
  | choice | parity | majority

/-- The outcome of a mix. -/
def Mix.apply : Mix → UInt32 → UInt32 → UInt32 → UInt32
  | .choice, b, c, d => (b &&& c) ||| (~~~b &&& d)
  | .parity, b, c, d => b ^^^ c ^^^ d
  | .majority, b, c, d => (b &&& c) ||| (b &&& d) ||| (c &&& d)

/-- The mix and the constant of each of the eighty rounds. -/
def rounds : List (Mix × UInt32) :=
  List.replicate 20 (.choice, 0x5a827999) ++ List.replicate 20 (.parity, 0x6ed9eba1) ++
    List.replicate 20 (.majority, 0x8f1bbcdc) ++ List.replicate 20 (.parity, 0xca62c1d6)

/-- One round, with its mix, its constant and its schedule word. -/
def round (s : State) (mix : Mix) (constant scheduled : UInt32) : State :=
  ⟨rotate s.a 5 + mix.apply s.b s.c s.d + s.e + constant + scheduled, s.a, rotate s.b 30, s.c, s.d⟩

/-- The state after a block: the rounds' outcome added word by word to the state before. -/
def compress (s : State) (block : Bytes) : State :=
  let scheduled := schedule nextWord 80 ((blockNumbers 4 block).map UInt32.ofNat)
  let r := (rounds.zip scheduled).foldl (fun r ((mix, constant), w) => round r mix constant w) s
  ⟨s.a + r.a, s.b + r.b, s.c + r.c, s.d + r.d, s.e + r.e⟩

/-- The SHA-1 digest of a message. -/
def digest (message : Bytes) : Bytes :=
  let start : State := ⟨0x67452301, 0xefcdab89, 0x98badcfe, 0x10325476, 0xc3d2e1f0⟩
  let final := (blocks 64 8 message).foldl compress start
  final.words.flatMap fun w => Bytes.bigEndian 4 w.toNat

/-- A digest has twenty bytes. -/
theorem length_digest (message : Bytes) : (digest message).length = 20 := by
  simp [digest, State.words]

end SealedLedger.Sha.Sha1
