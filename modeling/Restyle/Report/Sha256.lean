-- SUMMARY: The SHA-256 digest of a text.

/-!
# SHA-256

A message is padded to whole blocks of sixteen words. Each block is extended to sixty-four words,
which are mixed into a state of eight words one round after the other. The digest is the last state.
-/

namespace Restyle

namespace Sha256

/-- The state of the digest. -/
structure State where
  a : UInt32
  b : UInt32
  c : UInt32
  d : UInt32
  e : UInt32
  f : UInt32
  g : UInt32
  h : UInt32
  deriving DecidableEq

namespace State

def initial : State :=
  ⟨0x6a09e667, 0xbb67ae85, 0x3c6ef372, 0xa54ff53a, 0x510e527f, 0x9b05688c, 0x1f83d9ab, 0x5be0cd19⟩

def toList (s : State) : List UInt32 := [s.a, s.b, s.c, s.d, s.e, s.f, s.g, s.h]

def add (s t : State) : State :=
  ⟨s.a + t.a, s.b + t.b, s.c + t.c, s.d + t.d, s.e + t.e, s.f + t.f, s.g + t.g, s.h + t.h⟩

end State

/-- The constants of the rounds, one for each. -/
def roundConstants : List UInt32 :=
  [0x428a2f98, 0x71374491, 0xb5c0fbcf, 0xe9b5dba5, 0x3956c25b, 0x59f111f1, 0x923f82a4, 0xab1c5ed5,
    0xd807aa98, 0x12835b01, 0x243185be, 0x550c7dc3, 0x72be5d74, 0x80deb1fe, 0x9bdc06a7, 0xc19bf174,
    0xe49b69c1, 0xefbe4786, 0x0fc19dc6, 0x240ca1cc, 0x2de92c6f, 0x4a7484aa, 0x5cb0a9dc, 0x76f988da,
    0x983e5152, 0xa831c66d, 0xb00327c8, 0xbf597fc7, 0xc6e00bf3, 0xd5a79147, 0x06ca6351, 0x14292967,
    0x27b70a85, 0x2e1b2138, 0x4d2c6dfc, 0x53380d13, 0x650a7354, 0x766a0abb, 0x81c2c92e, 0x92722c85,
    0xa2bfe8a1, 0xa81a664b, 0xc24b8b70, 0xc76c51a3, 0xd192e819, 0xd6990624, 0xf40e3585, 0x106aa070,
    0x19a4c116, 0x1e376c08, 0x2748774c, 0x34b0bcb5, 0x391c0cb3, 0x4ed8aa4a, 0x5b9cca4f, 0x682e6ff3,
    0x748f82ee, 0x78a5636f, 0x84c87814, 0x8cc70208, 0x90befffa, 0xa4506ceb, 0xbef9a3f7, 0xc67178f2]

def rotateRight (x : UInt32) (count : UInt32) : UInt32 := (x >>> count) ||| (x <<< (32 - count))

/-- Extends the words of a block, the last in front, by a number of words. -/
def extend : Nat → List UInt32 → List UInt32
  | 0, words => words
  | count + 1, words =>
    let early := words.getD 14 0
    let late := words.getD 1 0
    let mixEarly := rotateRight early 7 ^^^ rotateRight early 18 ^^^ (early >>> 3)
    let mixLate := rotateRight late 17 ^^^ rotateRight late 19 ^^^ (late >>> 10)
    extend count ((words.getD 15 0 + mixEarly + words.getD 6 0 + mixLate) :: words)

/-- The words of all rounds of a block. -/
def schedule (block : List UInt32) : List UInt32 := (extend 48 block.reverse).reverse

/-- One round with its constant and its word. -/
def round (s : State) (constant word : UInt32) : State :=
  let mixE := rotateRight s.e 6 ^^^ rotateRight s.e 11 ^^^ rotateRight s.e 25
  let choice := (s.e &&& s.f) ^^^ (~~~s.e &&& s.g)
  let first := s.h + mixE + choice + constant + word
  let mixA := rotateRight s.a 2 ^^^ rotateRight s.a 13 ^^^ rotateRight s.a 22
  let majority := (s.a &&& s.b) ^^^ (s.a &&& s.c) ^^^ (s.b &&& s.c)
  ⟨first + (mixA + majority), s.a, s.b, s.c, s.d + first, s.e, s.f, s.g⟩

/-- Mixes a block into the state. -/
def compress (s : State) (block : List UInt32) : State :=
  s.add ((roundConstants.zip (schedule block)).foldl (fun s (k, w) => round s k w) s)

/-- A number as bytes, the highest first. -/
def bigEndian (value : Nat) : Nat → List UInt8
  | 0 => []
  | count + 1 => UInt8.ofNat (value / 256 ^ count) :: bigEndian value count

/-- A message with a closing bit, zeros, and its length in bits, so that blocks come out whole. -/
def pad (message : List UInt8) : List UInt8 :=
  let zeros := (119 - message.length % 64) % 64
  message ++ 0x80 :: List.replicate zeros 0 ++ bigEndian (8 * message.length) 8

/-- Bytes as words, the highest byte of each first. -/
def words : List UInt8 → List UInt32
  | w :: x :: y :: z :: rest =>
    ((w.toUInt32 <<< 24) ||| (x.toUInt32 <<< 16) ||| (y.toUInt32 <<< 8) ||| z.toUInt32) ::
      words rest
  | _ => []

/-- Mixes words into the state block by block, at most `count` of them. -/
def absorb : (count : Nat) → State → List UInt32 → State
  | 0, s, _ => s
  | count + 1, s, words => absorb count (compress s (words.take 16)) (words.drop 16)

/-- The last state for a message. -/
def digest (message : List UInt8) : State :=
  let all := words (pad message)
  absorb (all.length / 16) .initial all

def hexDigit (n : Nat) : Char := if n < 10 then Char.ofNat (48 + n) else Char.ofNat (87 + n)

/-- A byte as two hexadecimal digits. -/
def hexByte (b : UInt8) : List Char := [hexDigit (b.toNat / 16), hexDigit (b.toNat % 16)]

/-- The digest of the UTF-8 form of a text, in hexadecimal digits. -/
def ofText (text : String) : String :=
  let state := digest text.toUTF8.data.toList
  String.ofList ((state.toList.flatMap fun word => bigEndian word.toNat 4).flatMap hexByte)

end Sha256

end Restyle
