import SealedLedger.Sha.Message

/-!
# SHA-2

SHA-256, SHA-384 and SHA-512 share one compression function over words of four or of eight bytes. They differ in the word, the
rotations, the constants, the starting state and the number of bytes kept. Main statement: a digest has the length its variant
asks for, whatever the message (`Sha2.length_digest`).
-/

namespace SealedLedger.Sha.Sha2

/-- The eight working words. -/
structure State (word : Type) where
  a : word
  b : word
  c : word
  d : word
  e : word
  f : word
  g : word
  h : word

/-- The working words in order. -/
def State.words {word : Type} (s : State word) : List word :=
  [s.a, s.b, s.c, s.d, s.e, s.f, s.g, s.h]

/-- What the members of the family with one word have in common. -/
structure Family (word : Type) where
  /-- The number of bytes of a word. -/
  wordBytes : Nat
  /-- The word that spells a number, up to a multiple of the number of words. -/
  ofNat : Nat → word
  /-- The number a word spells. -/
  toNat : word → Nat
  /-- The two functions that continue the schedule: of the word before the last, and of the second word of the window. -/
  scheduleLate : word → word
  scheduleEarly : word → word
  /-- The two functions of a round: of the first and of the fifth working word. -/
  roundFirst : word → word
  roundFifth : word → word
  /-- One constant for each round. -/
  constants : List word

section Rounds

variable {word : Type} [Add word] [AndOp word] [XorOp word] [Complement word]

/-- The word that follows a window of sixteen. -/
@[specialize] def nextWord (family : Family word) (window : List word) : word :=
  let at? (i : Nat) := window.getD i (family.ofNat 0)
  family.scheduleLate (at? 14) + at? 9 + family.scheduleEarly (at? 1) + at? 0

/-- One round, with the sum of its constant and its schedule word. -/
@[specialize] def round (family : Family word) (s : State word) (constant scheduled : word) : State word :=
  let choice := (s.e &&& s.f) ^^^ (~~~s.e &&& s.g)
  let majority := (s.a &&& s.b) ^^^ (s.a &&& s.c) ^^^ (s.b &&& s.c)
  let t₁ := s.h + family.roundFifth s.e + choice + constant + scheduled
  let t₂ := family.roundFirst s.a + majority
  ⟨t₁ + t₂, s.a, s.b, s.c, s.d + t₁, s.e, s.f, s.g⟩

/-- The state after a block: the rounds' outcome added word by word to the state before. -/
@[specialize] def compress (family : Family word) (s : State word) (block : Bytes) : State word :=
  let start := (blockNumbers family.wordBytes block).map family.ofNat
  let scheduled := schedule (nextWord family) family.constants.length start
  let r := (family.constants.zip scheduled).foldl (fun r (constant, w) => round family r constant w) s
  ⟨s.a + r.a, s.b + r.b, s.c + r.c, s.d + r.d, s.e + r.e, s.f + r.f, s.g + r.g, s.h + r.h⟩

/-- The first `length` bytes of the state after all blocks of a message. -/
@[specialize] def digest (family : Family word) (start : State word) (length : Nat) (message : Bytes) : Bytes :=
  let final := (blocks (16 * family.wordBytes) (2 * family.wordBytes) message).foldl (compress family) start
  (final.words.flatMap fun w => Bytes.bigEndian family.wordBytes (family.toNat w)).take length

/-- A digest is as long as asked, up to the eight words of the state. -/
theorem length_digest (family : Family word) (start : State word) {length : Nat} (h : length ≤ 8 * family.wordBytes)
    (message : Bytes) : (digest family start length message).length = length := by
  simp only [digest, State.words, List.flatMap_cons, List.flatMap_nil, List.length_take, List.length_append,
    Bytes.length_bigEndian, List.length_nil]
  omega

end Rounds

/-! ## Words of four bytes -/

/-- The round constants: the first 32 bits of the fractional parts of the cube roots of the first 64 primes. -/
def constants32 : List UInt32 :=
  [0x428a2f98, 0x71374491, 0xb5c0fbcf, 0xe9b5dba5, 0x3956c25b, 0x59f111f1, 0x923f82a4, 0xab1c5ed5, 0xd807aa98,
    0x12835b01, 0x243185be, 0x550c7dc3, 0x72be5d74, 0x80deb1fe, 0x9bdc06a7, 0xc19bf174, 0xe49b69c1, 0xefbe4786,
    0x0fc19dc6, 0x240ca1cc, 0x2de92c6f, 0x4a7484aa, 0x5cb0a9dc, 0x76f988da, 0x983e5152, 0xa831c66d, 0xb00327c8,
    0xbf597fc7, 0xc6e00bf3, 0xd5a79147, 0x06ca6351, 0x14292967, 0x27b70a85, 0x2e1b2138, 0x4d2c6dfc, 0x53380d13,
    0x650a7354, 0x766a0abb, 0x81c2c92e, 0x92722c85, 0xa2bfe8a1, 0xa81a664b, 0xc24b8b70, 0xc76c51a3, 0xd192e819,
    0xd6990624, 0xf40e3585, 0x106aa070, 0x19a4c116, 0x1e376c08, 0x2748774c, 0x34b0bcb5, 0x391c0cb3, 0x4ed8aa4a,
    0x5b9cca4f, 0x682e6ff3, 0x748f82ee, 0x78a5636f, 0x84c87814, 0x8cc70208, 0x90befffa, 0xa4506ceb, 0xbef9a3f7,
    0xc67178f2]

/-- Rotation to the right by less than the number of bits. -/
def rotate32 (w count : UInt32) : UInt32 :=
  (w >>> count) ||| (w <<< (32 - count))

/-- The family over words of four bytes. -/
def family32 : Family UInt32 where
  wordBytes := 4
  ofNat := UInt32.ofNat
  toNat := UInt32.toNat
  scheduleLate w := rotate32 w 17 ^^^ rotate32 w 19 ^^^ (w >>> 10)
  scheduleEarly w := rotate32 w 7 ^^^ rotate32 w 18 ^^^ (w >>> 3)
  roundFirst w := rotate32 w 2 ^^^ rotate32 w 13 ^^^ rotate32 w 22
  roundFifth w := rotate32 w 6 ^^^ rotate32 w 11 ^^^ rotate32 w 25
  constants := constants32

/-- The SHA-256 digest of a message. -/
def sha256 (message : Bytes) : Bytes :=
  digest family32
    ⟨0x6a09e667, 0xbb67ae85, 0x3c6ef372, 0xa54ff53a,
      0x510e527f, 0x9b05688c, 0x1f83d9ab, 0x5be0cd19⟩
    32 message

/-! ## Words of eight bytes -/

/-- The round constants: the first 64 bits of the fractional parts of the cube roots of the first 80 primes. -/
def constants64 : List UInt64 :=
  [0x428a2f98d728ae22, 0x7137449123ef65cd, 0xb5c0fbcfec4d3b2f, 0xe9b5dba58189dbbc, 0x3956c25bf348b538,
    0x59f111f1b605d019, 0x923f82a4af194f9b, 0xab1c5ed5da6d8118, 0xd807aa98a3030242, 0x12835b0145706fbe,
    0x243185be4ee4b28c, 0x550c7dc3d5ffb4e2, 0x72be5d74f27b896f, 0x80deb1fe3b1696b1, 0x9bdc06a725c71235,
    0xc19bf174cf692694, 0xe49b69c19ef14ad2, 0xefbe4786384f25e3, 0x0fc19dc68b8cd5b5, 0x240ca1cc77ac9c65,
    0x2de92c6f592b0275, 0x4a7484aa6ea6e483, 0x5cb0a9dcbd41fbd4, 0x76f988da831153b5, 0x983e5152ee66dfab,
    0xa831c66d2db43210, 0xb00327c898fb213f, 0xbf597fc7beef0ee4, 0xc6e00bf33da88fc2, 0xd5a79147930aa725,
    0x06ca6351e003826f, 0x142929670a0e6e70, 0x27b70a8546d22ffc, 0x2e1b21385c26c926, 0x4d2c6dfc5ac42aed,
    0x53380d139d95b3df, 0x650a73548baf63de, 0x766a0abb3c77b2a8, 0x81c2c92e47edaee6, 0x92722c851482353b,
    0xa2bfe8a14cf10364, 0xa81a664bbc423001, 0xc24b8b70d0f89791, 0xc76c51a30654be30, 0xd192e819d6ef5218,
    0xd69906245565a910, 0xf40e35855771202a, 0x106aa07032bbd1b8, 0x19a4c116b8d2d0c8, 0x1e376c085141ab53,
    0x2748774cdf8eeb99, 0x34b0bcb5e19b48a8, 0x391c0cb3c5c95a63, 0x4ed8aa4ae3418acb, 0x5b9cca4f7763e373,
    0x682e6ff3d6b2b8a3, 0x748f82ee5defb2fc, 0x78a5636f43172f60, 0x84c87814a1f0ab72, 0x8cc702081a6439ec,
    0x90befffa23631e28, 0xa4506cebde82bde9, 0xbef9a3f7b2c67915, 0xc67178f2e372532b, 0xca273eceea26619c,
    0xd186b8c721c0c207, 0xeada7dd6cde0eb1e, 0xf57d4f7fee6ed178, 0x06f067aa72176fba, 0x0a637dc5a2c898a6,
    0x113f9804bef90dae, 0x1b710b35131c471b, 0x28db77f523047d84, 0x32caab7b40c72493, 0x3c9ebe0a15c9bebc,
    0x431d67c49c100d4c, 0x4cc5d4becb3e42b6, 0x597f299cfc657e2a, 0x5fcb6fab3ad6faec, 0x6c44198c4a475817]

/-- Rotation to the right by less than the number of bits. -/
def rotate64 (w count : UInt64) : UInt64 :=
  (w >>> count) ||| (w <<< (64 - count))

/-- The family over words of eight bytes. -/
def family64 : Family UInt64 where
  wordBytes := 8
  ofNat := UInt64.ofNat
  toNat := UInt64.toNat
  scheduleLate w := rotate64 w 19 ^^^ rotate64 w 61 ^^^ (w >>> 6)
  scheduleEarly w := rotate64 w 1 ^^^ rotate64 w 8 ^^^ (w >>> 7)
  roundFirst w := rotate64 w 28 ^^^ rotate64 w 34 ^^^ rotate64 w 39
  roundFifth w := rotate64 w 14 ^^^ rotate64 w 18 ^^^ rotate64 w 41
  constants := constants64

/-- The SHA-384 digest of a message. -/
def sha384 (message : Bytes) : Bytes :=
  digest family64
    ⟨0xcbbb9d5dc1059ed8, 0x629a292a367cd507, 0x9159015a3070dd17, 0x152fecd8f70e5939,
      0x67332667ffc00b31, 0x8eb44a8768581511, 0xdb0c2e0d64f98fa7, 0x47b5481dbefa4fa4⟩
    48 message

/-- The SHA-512 digest of a message. -/
def sha512 (message : Bytes) : Bytes :=
  digest family64
    ⟨0x6a09e667f3bcc908, 0xbb67ae8584caa73b, 0x3c6ef372fe94f82b, 0xa54ff53a5f1d36f1,
      0x510e527fade682d1, 0x9b05688c2b3e6c1f, 0x1f83d9abfb41bd6b, 0x5be0cd19137e2179⟩
    64 message

end SealedLedger.Sha.Sha2
