/-
The hash function SHA-256.

The message is padded to blocks of sixteen words; each block is expanded to sixty-four words, and
the rounds over them update a state of eight words.

* `sha256` — the digest of a list of bytes, 32 bytes;
* `sha256Hex` — the digest of the UTF-8 form of a text, in hexadecimal.
-/
import TypeEnforcement.Digest.Hex

namespace TypeEnforcement.Digest

/-- The eight words that a block updates. -/
structure HashState where
  a : UInt32
  b : UInt32
  c : UInt32
  d : UInt32
  e : UInt32
  f : UInt32
  g : UInt32
  h : UInt32

/-- The state before the first block: fractions of the square roots of the first primes. -/
def HashState.initial : HashState :=
  ⟨0x6a09e667, 0xbb67ae85, 0x3c6ef372, 0xa54ff53a, 0x510e527f, 0x9b05688c, 0x1f83d9ab, 0x5be0cd19⟩

/-- The constants of the sixty-four rounds: fractions of the cube roots of the first primes. -/
def roundConstants : List UInt32 := [
  0x428a2f98, 0x71374491, 0xb5c0fbcf, 0xe9b5dba5, 0x3956c25b, 0x59f111f1, 0x923f82a4, 0xab1c5ed5,
  0xd807aa98, 0x12835b01, 0x243185be, 0x550c7dc3, 0x72be5d74, 0x80deb1fe, 0x9bdc06a7, 0xc19bf174,
  0xe49b69c1, 0xefbe4786, 0x0fc19dc6, 0x240ca1cc, 0x2de92c6f, 0x4a7484aa, 0x5cb0a9dc, 0x76f988da,
  0x983e5152, 0xa831c66d, 0xb00327c8, 0xbf597fc7, 0xc6e00bf3, 0xd5a79147, 0x06ca6351, 0x14292967,
  0x27b70a85, 0x2e1b2138, 0x4d2c6dfc, 0x53380d13, 0x650a7354, 0x766a0abb, 0x81c2c92e, 0x92722c85,
  0xa2bfe8a1, 0xa81a664b, 0xc24b8b70, 0xc76c51a3, 0xd192e819, 0xd6990624, 0xf40e3585, 0x106aa070,
  0x19a4c116, 0x1e376c08, 0x2748774c, 0x34b0bcb5, 0x391c0cb3, 0x4ed8aa4a, 0x5b9cca4f, 0x682e6ff3,
  0x748f82ee, 0x78a5636f, 0x84c87814, 0x8cc70208, 0x90befffa, 0xa4506ceb, 0xbef9a3f7, 0xc67178f2]

/-- Rotation of a word to the right. -/
def rotateRight (w : UInt32) (n : UInt32) : UInt32 :=
  (w >>> n) ||| (w <<< (32 - n))

/-- One further word of the expanded block, from the words so far with the last one first. -/
def nextWord (latest : List UInt32) : UInt32 :=
  let w2 := latest.getD 1 0
  let w7 := latest.getD 6 0
  let w15 := latest.getD 14 0
  let w16 := latest.getD 15 0
  let s0 := rotateRight w15 7 ^^^ rotateRight w15 18 ^^^ (w15 >>> 3)
  let s1 := rotateRight w2 17 ^^^ rotateRight w2 19 ^^^ (w2 >>> 10)
  w16 + s0 + w7 + s1

/-- The sixty-four words that a block of sixteen expands to. -/
def expandBlock (block : List UInt32) : List UInt32 :=
  ((List.range 48).foldl (fun latest _ => nextWord latest :: latest) block.reverse).reverse

/-- One round, with its constant and its word of the expanded block. -/
def HashState.round (s : HashState) (step : UInt32 × UInt32) : HashState :=
  let s1 := rotateRight s.e 6 ^^^ rotateRight s.e 11 ^^^ rotateRight s.e 25
  let choice := (s.e &&& s.f) ^^^ ((~~~ s.e) &&& s.g)
  let t1 := s.h + s1 + choice + step.1 + step.2
  let s0 := rotateRight s.a 2 ^^^ rotateRight s.a 13 ^^^ rotateRight s.a 22
  let majority := (s.a &&& s.b) ^^^ (s.a &&& s.c) ^^^ (s.b &&& s.c)
  ⟨t1 + (s0 + majority), s.a, s.b, s.c, s.d + t1, s.e, s.f, s.g⟩

/-- The state after a block of sixteen words. -/
def HashState.absorb (s : HashState) (block : List UInt32) : HashState :=
  let r := (roundConstants.zip (expandBlock block)).foldl HashState.round s
  ⟨s.a + r.a, s.b + r.b, s.c + r.c, s.d + r.d, s.e + r.e, s.f + r.f, s.g + r.g, s.h + r.h⟩

/-- The bytes of a word, high byte first. -/
def wordBytes (w : UInt32) : List UInt8 :=
  [(w >>> 24).toUInt8, (w >>> 16).toUInt8, (w >>> 8).toUInt8, w.toUInt8]

/-- The words of a list of bytes, four bytes to a word, high byte first. -/
def wordsOfBytes : List UInt8 → List UInt32
  | b0 :: b1 :: b2 :: b3 :: rest =>
    ((b0.toUInt32 <<< 24) ||| (b1.toUInt32 <<< 16) ||| (b2.toUInt32 <<< 8) ||| b3.toUInt32) ::
      wordsOfBytes rest
  | _ => []

/-- The message with its end mark, zeros, and its length in bits as eight bytes. -/
def padMessage (message : List UInt8) : List UInt8 :=
  let bits := 8 * message.length
  let zeros := (119 - message.length % 64) % 64
  let lengthBytes := (List.range 8).map fun i => UInt8.ofNat (bits >>> (8 * (7 - i)))
  message ++ 0x80 :: List.replicate zeros 0 ++ lengthBytes

/-- The state after as many blocks of sixteen words as `count` says. -/
def HashState.absorbAll (s : HashState) (count : Nat) (words : List UInt32) : HashState :=
  match count with
  | 0 => s
  | more + 1 => (s.absorb (words.take 16)).absorbAll more (words.drop 16)

def sha256 (message : List UInt8) : List UInt8 :=
  let words := wordsOfBytes (padMessage message)
  let s := HashState.initial.absorbAll (words.length / 16) words
  [s.a, s.b, s.c, s.d, s.e, s.f, s.g, s.h].flatMap wordBytes

/-- The digest of the UTF-8 form of a text, in hexadecimal. -/
def sha256Hex (text : String) : List Char :=
  hexOf (sha256 text.toUTF8.toList)

end TypeEnforcement.Digest
