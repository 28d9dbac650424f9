import SmallGateway.Lib.BigEndian

/-!
The hash SHA-256, and the keyed hash HMAC over it, on lists of bytes. Everything is by structural recursion, so that the
kernel can evaluate both.
-/

namespace Sha256

/-- The working variables of the compression. -/
structure State where
  a : UInt32
  b : UInt32
  c : UInt32
  d : UInt32
  e : UInt32
  f : UInt32
  g : UInt32
  h : UInt32

/-- The fractional parts of the square roots of the first eight primes. -/
def initial : State :=
  ⟨0x6a09e667, 0xbb67ae85, 0x3c6ef372, 0xa54ff53a, 0x510e527f, 0x9b05688c, 0x1f83d9ab, 0x5be0cd19⟩

/-- The fractional parts of the cube roots of the first sixty-four primes. -/
def constants : List UInt32 :=
  [0x428a2f98, 0x71374491, 0xb5c0fbcf, 0xe9b5dba5, 0x3956c25b, 0x59f111f1, 0x923f82a4, 0xab1c5ed5,
    0xd807aa98, 0x12835b01, 0x243185be, 0x550c7dc3, 0x72be5d74, 0x80deb1fe, 0x9bdc06a7, 0xc19bf174,
    0xe49b69c1, 0xefbe4786, 0x0fc19dc6, 0x240ca1cc, 0x2de92c6f, 0x4a7484aa, 0x5cb0a9dc, 0x76f988da,
    0x983e5152, 0xa831c66d, 0xb00327c8, 0xbf597fc7, 0xc6e00bf3, 0xd5a79147, 0x06ca6351, 0x14292967,
    0x27b70a85, 0x2e1b2138, 0x4d2c6dfc, 0x53380d13, 0x650a7354, 0x766a0abb, 0x81c2c92e, 0x92722c85,
    0xa2bfe8a1, 0xa81a664b, 0xc24b8b70, 0xc76c51a3, 0xd192e819, 0xd6990624, 0xf40e3585, 0x106aa070,
    0x19a4c116, 0x1e376c08, 0x2748774c, 0x34b0bcb5, 0x391c0cb3, 0x4ed8aa4a, 0x5b9cca4f, 0x682e6ff3,
    0x748f82ee, 0x78a5636f, 0x84c87814, 0x8cc70208, 0x90befffa, 0xa4506ceb, 0xbef9a3f7, 0xc67178f2]

def rotr (x n : UInt32) : UInt32 := x >>> n ||| x <<< (32 - n)

def round (s : State) (constant word : UInt32) : State :=
  let choice := (s.e &&& s.f) ^^^ (~~~s.e &&& s.g)
  let majority := (s.a &&& s.b) ^^^ (s.a &&& s.c) ^^^ (s.b &&& s.c)
  let first := s.h + (rotr s.e 6 ^^^ rotr s.e 11 ^^^ rotr s.e 25) + choice + constant + word
  let second := (rotr s.a 2 ^^^ rotr s.a 13 ^^^ rotr s.a 22) + majority
  ⟨first + second, s.a, s.b, s.c, s.d + first, s.e, s.f, s.g⟩

/-- Drops the first of sixteen words of the schedule, and adds the one that follows them. -/
def advance (window : List UInt32) : List UInt32 :=
  match window with
  | w0 :: w1 :: w2 :: w3 :: w4 :: w5 :: w6 :: w7 :: w8 :: w9 :: w10 :: w11 :: w12 :: w13 :: w14 :: w15 :: _ =>
    let next := w0 + (rotr w1 7 ^^^ rotr w1 18 ^^^ w1 >>> 3) + w9 + (rotr w14 17 ^^^ rotr w14 19 ^^^ w14 >>> 10)
    [w1, w2, w3, w4, w5, w6, w7, w8, w9, w10, w11, w12, w13, w14, w15, next]
  | _ => []

def rounds : List UInt32 → List UInt32 → State → State
  | constant :: rest, word :: window, s => rounds rest (advance (word :: window)) (round s constant word)
  | _, _, s => s

def words : List UInt8 → List UInt32
  | b0 :: b1 :: b2 :: b3 :: rest => .ofNat (BigEndian.decode [b0, b1, b2, b3]) :: words rest
  | _ => []

def compress (s : State) (block : List UInt8) : State :=
  let t := rounds constants (words block) s
  ⟨s.a + t.a, s.b + t.b, s.c + t.c, s.d + t.d, s.e + t.e, s.f + t.f, s.g + t.g, s.h + t.h⟩

/-- A one bit, zeros, and the length in bits, up to a multiple of the block. -/
def pad (message : List UInt8) : List UInt8 :=
  message ++ 0x80 :: List.replicate ((119 - message.length % 64) % 64) 0 ++ BigEndian.encode 8 (8 * message.length)

def blocks : Nat → List UInt8 → List (List UInt8)
  | 0, _ => []
  | count + 1, bytes => bytes.take 64 :: blocks count (bytes.drop 64)

def State.bytes (s : State) : List UInt8 :=
  [s.a, s.b, s.c, s.d, s.e, s.f, s.g, s.h].flatMap fun word => BigEndian.encode 4 word.toNat

def sha256 (message : List UInt8) : List UInt8 :=
  let padded := pad message
  ((blocks (padded.length / 64) padded).foldl compress initial).bytes

/-- A key longer than a block is hashed first. -/
def hmac (key message : List UInt8) : List UInt8 :=
  let short := if key.length > 64 then sha256 key else key
  let block := short ++ List.replicate (64 - short.length) 0
  sha256 (block.map (· ^^^ 0x5c) ++ sha256 (block.map (· ^^^ 0x36) ++ message))

end Sha256
