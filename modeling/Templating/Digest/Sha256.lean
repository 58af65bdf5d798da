import Templating.Text.Hexadecimal

/-!
# The SHA-256 digest

The digest of a string of bytes: the padded message is cut into blocks of 64 bytes, and each
block is mixed into eight words of 32 bits by 64 rounds. The words that the rounds use come from
a window of sixteen, which begins with the words of the block and slides on by one word a round.

## Main definitions

* `Sha256.padded`: the message with its padding.
* `Sha256.compress`: what one block does to the chaining words.
* `Sha256.hexDigest`: the digest in hexadecimal.
-/

namespace Templating.Sha256

/-- Eight words of 32 bits. -/
structure Words where
  a : UInt32
  b : UInt32
  c : UInt32
  d : UInt32
  e : UInt32
  f : UInt32
  g : UInt32
  h : UInt32
  deriving DecidableEq

/-- The chaining words before the first block. -/
def initialWords : Words :=
  ⟨0x6a09e667, 0xbb67ae85, 0x3c6ef372, 0xa54ff53a, 0x510e527f, 0x9b05688c, 0x1f83d9ab,
    0x5be0cd19⟩

/-- The constants of the rounds. -/
def roundConstants : List UInt32 :=
  [0x428a2f98, 0x71374491, 0xb5c0fbcf, 0xe9b5dba5, 0x3956c25b, 0x59f111f1, 0x923f82a4,
    0xab1c5ed5, 0xd807aa98, 0x12835b01, 0x243185be, 0x550c7dc3, 0x72be5d74, 0x80deb1fe,
    0x9bdc06a7, 0xc19bf174, 0xe49b69c1, 0xefbe4786, 0x0fc19dc6, 0x240ca1cc, 0x2de92c6f,
    0x4a7484aa, 0x5cb0a9dc, 0x76f988da, 0x983e5152, 0xa831c66d, 0xb00327c8, 0xbf597fc7,
    0xc6e00bf3, 0xd5a79147, 0x06ca6351, 0x14292967, 0x27b70a85, 0x2e1b2138, 0x4d2c6dfc,
    0x53380d13, 0x650a7354, 0x766a0abb, 0x81c2c92e, 0x92722c85, 0xa2bfe8a1, 0xa81a664b,
    0xc24b8b70, 0xc76c51a3, 0xd192e819, 0xd6990624, 0xf40e3585, 0x106aa070, 0x19a4c116,
    0x1e376c08, 0x2748774c, 0x34b0bcb5, 0x391c0cb3, 0x4ed8aa4a, 0x5b9cca4f, 0x682e6ff3,
    0x748f82ee, 0x78a5636f, 0x84c87814, 0x8cc70208, 0x90befffa, 0xa4506ceb, 0xbef9a3f7,
    0xc67178f2]

/-- The word rotated to the right. -/
def rotate (x n : UInt32) : UInt32 :=
  (x >>> n) ||| (x <<< (32 - n))

/-- The word that enters the window after one round. -/
def nextWord (window : List UInt32) : UInt32 :=
  let w1 := window.getD 1 0
  let w14 := window.getD 14 0
  window.getD 0 0 + (rotate w1 7 ^^^ rotate w1 18 ^^^ (w1 >>> 3)) + window.getD 9 0
    + (rotate w14 17 ^^^ rotate w14 19 ^^^ (w14 >>> 10))

/-- One round: mixes a constant and a word of the window into the eight words. -/
def mix (s : Words) (constant word : UInt32) : Words :=
  let t1 := s.h + (rotate s.e 6 ^^^ rotate s.e 11 ^^^ rotate s.e 25)
    + ((s.e &&& s.f) ^^^ ((s.e ^^^ 0xffffffff) &&& s.g)) + constant + word
  let t2 := (rotate s.a 2 ^^^ rotate s.a 13 ^^^ rotate s.a 22)
    + ((s.a &&& s.b) ^^^ (s.a &&& s.c) ^^^ (s.b &&& s.c))
  ⟨t1 + t2, s.a, s.b, s.c, s.d + t1, s.e, s.f, s.g⟩

/-- One round on the eight words and the window. -/
def round (state : Words × List UInt32) (constant : UInt32) : Words × List UInt32 :=
  (mix state.1 constant (state.2.getD 0 0), state.2.drop 1 ++ [nextWord state.2])

/-- The sums of the words in equal places. -/
def Words.add (s t : Words) : Words :=
  ⟨s.a + t.a, s.b + t.b, s.c + t.c, s.d + t.d, s.e + t.e, s.f + t.f, s.g + t.g, s.h + t.h⟩

/-- The words of a block, four bytes each, the most significant first. -/
def wordsOfBytes : List UInt8 → List UInt32
  | b0 :: b1 :: b2 :: b3 :: rest =>
    ((b0.toUInt32 <<< 24) ||| (b1.toUInt32 <<< 16) ||| (b2.toUInt32 <<< 8) ||| b3.toUInt32)
      :: wordsOfBytes rest
  | _ => []

/-- What one block does to the chaining words. -/
def compress (chaining : Words) (block : List UInt8) : Words :=
  chaining.add (roundConstants.foldl round (chaining, wordsOfBytes block)).1

/-- A number as eight bytes, the most significant first. -/
def eightBytes (n : Nat) : List UInt8 :=
  [56, 48, 40, 32, 24, 16, 8, 0].map fun shift => UInt8.ofNat (n >>> shift)

/-- The message with its padding: a one bit, zeros up to eight bytes short of a whole block, and
the length of the message in bits. -/
def padded (message : List UInt8) : List UInt8 :=
  message ++ 0x80 :: List.replicate ((119 - message.length % 64) % 64) 0
    ++ eightBytes (8 * message.length)

/-- The bytes in blocks of 64. -/
def blocks (bytes : List UInt8) : List (List UInt8) :=
  if bytes.length ≤ 64 then [bytes] else bytes.take 64 :: blocks (bytes.drop 64)
termination_by bytes.length
decreasing_by
  simp only [List.length_drop]
  omega

/-- The digest of a message as eight words. -/
def digest (message : List UInt8) : Words :=
  (blocks (padded message)).foldl compress initialWords

/-- The digest of a message in hexadecimal. -/
def hexDigest (message : List UInt8) : String :=
  let w := digest message
  String.ofList
    ([w.a, w.b, w.c, w.d, w.e, w.f, w.g, w.h].flatMap fun x => Text.hexDigits 8 x.toNat)

end Templating.Sha256
