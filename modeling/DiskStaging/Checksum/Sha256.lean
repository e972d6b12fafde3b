import DiskStaging.Bytes

/-!
# SHA-256

The strongest of the checks that an xz stream may carry, as FIPS 180-4 defines
it: the message is cut into blocks of 64 bytes, each block is expanded into 64
words and stirred into eight chaining words, and a last padding block or two
carry a one bit and the length of the message in bits.

Bytes are absorbed one at a time (`Sha256.absorb`), since they arrive that way.
-/

set_option autoImplicit false

namespace DiskStaging.Checksum

/-- The round constants: the first 32 bits of the fractional parts of the cube
roots of the first 64 primes. -/
def sha256Rounds : Array UInt32 := #[
  0x428a2f98, 0x71374491, 0xb5c0fbcf, 0xe9b5dba5, 0x3956c25b, 0x59f111f1, 0x923f82a4, 0xab1c5ed5,
  0xd807aa98, 0x12835b01, 0x243185be, 0x550c7dc3, 0x72be5d74, 0x80deb1fe, 0x9bdc06a7, 0xc19bf174,
  0xe49b69c1, 0xefbe4786, 0x0fc19dc6, 0x240ca1cc, 0x2de92c6f, 0x4a7484aa, 0x5cb0a9dc, 0x76f988da,
  0x983e5152, 0xa831c66d, 0xb00327c8, 0xbf597fc7, 0xc6e00bf3, 0xd5a79147, 0x06ca6351, 0x14292967,
  0x27b70a85, 0x2e1b2138, 0x4d2c6dfc, 0x53380d13, 0x650a7354, 0x766a0abb, 0x81c2c92e, 0x92722c85,
  0xa2bfe8a1, 0xa81a664b, 0xc24b8b70, 0xc76c51a3, 0xd192e819, 0xd6990624, 0xf40e3585, 0x106aa070,
  0x19a4c116, 0x1e376c08, 0x2748774c, 0x34b0bcb5, 0x391c0cb3, 0x4ed8aa4a, 0x5b9cca4f, 0x682e6ff3,
  0x748f82ee, 0x78a5636f, 0x84c87814, 0x8cc70208, 0x90befffa, 0xa4506ceb, 0xbef9a3f7, 0xc67178f2]

/-- The eight words that a message is stirred into. -/
structure Sha256Words where
  a : UInt32
  b : UInt32
  c : UInt32
  d : UInt32
  e : UInt32
  f : UInt32
  g : UInt32
  h : UInt32

/-- The first 32 bits of the fractional parts of the square roots of the first eight primes. -/
def Sha256Words.initial : Sha256Words :=
  ⟨0x6a09e667, 0xbb67ae85, 0x3c6ef372, 0xa54ff53a, 0x510e527f, 0x9b05688c, 0x1f83d9ab, 0x5be0cd19⟩

/-- Rotates a word to the right. -/
@[inline] def rotateRight (word amount : UInt32) : UInt32 :=
  (word >>> amount) ||| (word <<< (32 - amount))

/-- One round with an expanded message word and a round constant. -/
def Sha256Words.round (w : Sha256Words) (word constant : UInt32) : Sha256Words :=
  let sum1 := rotateRight w.e 6 ^^^ rotateRight w.e 11 ^^^ rotateRight w.e 25
  let choice := (w.e &&& w.f) ^^^ (~~~w.e &&& w.g)
  let first := w.h + sum1 + choice + constant + word
  let sum0 := rotateRight w.a 2 ^^^ rotateRight w.a 13 ^^^ rotateRight w.a 22
  let majority := (w.a &&& w.b) ^^^ (w.a &&& w.c) ^^^ (w.b &&& w.c)
  ⟨first + (sum0 + majority), w.a, w.b, w.c, w.d + first, w.e, w.f, w.g⟩

/-- Adds the words of the round's outcome to those it started from. -/
def Sha256Words.plus (w v : Sha256Words) : Sha256Words :=
  ⟨w.a + v.a, w.b + v.b, w.c + v.c, w.d + v.d, w.e + v.e, w.f + v.f, w.g + v.g, w.h + v.h⟩

/-- The sixteen big-endian words of a block. -/
def blockWords (block : Array UInt8) : Array UInt32 :=
  (Array.range 16).map fun i =>
    let byte (k : Nat) : UInt32 := (block.getD (4 * i + k) 0).toUInt32
    (byte 0 <<< 24) ||| (byte 1 <<< 16) ||| (byte 2 <<< 8) ||| byte 3

/-- Appends the next expanded word to the message schedule. -/
def expandWord (words : Array UInt32) : Array UInt32 :=
  let word (back : Nat) : UInt32 := words.getD (words.size - back) 0
  let small0 := rotateRight (word 15) 7 ^^^ rotateRight (word 15) 18 ^^^ (word 15 >>> 3)
  let small1 := rotateRight (word 2) 17 ^^^ rotateRight (word 2) 19 ^^^ (word 2 >>> 10)
  words.push (word 16 + small0 + word 7 + small1)

/-- The sixty-four words that a block is expanded into. -/
def schedule (block : Array UInt8) : Array UInt32 :=
  (List.range 48).foldl (fun words _ => expandWord words) (blockWords block)

/-- Stirs one block of 64 bytes into the words. -/
def Sha256Words.stir (w : Sha256Words) (block : Array UInt8) : Sha256Words :=
  w.plus ((schedule block).zip sha256Rounds |>.foldl (fun v (word, k) => v.round word k) w)

/-- A message that is being absorbed: the words of its whole blocks, the bytes
of the last unfinished block, and its length. -/
structure Sha256 where
  words : Sha256Words := .initial
  block : Array UInt8 := #[]
  length : Nat := 0

/-- Absorbs one byte. -/
def Sha256.absorb (s : Sha256) (byte : UInt8) : Sha256 :=
  let block := s.block.push byte
  if block.size = 64 then ⟨s.words.stir block, #[], s.length + 1⟩
  else ⟨s.words, block, s.length + 1⟩

/-- The digest of the message absorbed so far. -/
def Sha256.digest (s : Sha256) : Bytes :=
  let zeros := (119 - s.length % 64) % 64
  let padding : Bytes := 0x80 :: List.replicate zeros 0 ++ Bytes.ofBig 8 (8 * s.length)
  let w := (padding.foldl Sha256.absorb s).words
  [w.a, w.b, w.c, w.d, w.e, w.f, w.g, w.h].flatMap fun word => Bytes.ofBig 4 word.toNat

end DiskStaging.Checksum
