/-!
# The SHA-1 digest

A message is padded to whole blocks of sixteen words, and each block is worked into the digest in
eighty rounds. The words that the rounds use form a sliding window of sixteen: the first is used,
and a new one, mixed from four of them, joins at the end.
-/

namespace Chronicle.Sha1

/-- The five words that a digest is made of. -/
structure Digest where
  a : UInt32
  b : UInt32
  c : UInt32
  d : UInt32
  e : UInt32
deriving DecidableEq, Repr

/-- The digest of nothing. -/
def Digest.initial : Digest := ⟨0x67452301, 0xEFCDAB89, 0x98BADCFE, 0x10325476, 0xC3D2E1F0⟩

def rotate (x places : UInt32) : UInt32 := (x <<< places) ||| (x >>> (32 - places))

/-- The mixing function and the constant of a round. -/
def mix (round : Nat) (b c d : UInt32) : UInt32 × UInt32 :=
  if round < 20 then ((b &&& c) ||| (~~~b &&& d), 0x5A827999)
  else if round < 40 then (b ^^^ c ^^^ d, 0x6ED9EBA1)
  else if round < 60 then ((b &&& c) ||| (b &&& d) ||| (c &&& d), 0x8F1BBCDC)
  else (b ^^^ c ^^^ d, 0xCA62C1D6)

/-- The window after its first word is used. -/
def slide (window : List UInt32) : List UInt32 :=
  let word (i : Nat) := window.getD i 0
  window.drop 1 ++ [rotate (word 13 ^^^ word 8 ^^^ word 2 ^^^ word 0) 1]

/-- One round. -/
def step (state : Digest × List UInt32) (round : Nat) : Digest × List UInt32 :=
  let (x, window) := state
  let (f, k) := mix round x.b x.c x.d
  let a := rotate x.a 5 + f + x.e + k + window.getD 0 0
  (⟨a, x.a, rotate x.b 30, x.c, x.d⟩, slide window)

/-- Works a block of sixteen words into a digest. -/
def absorb (x : Digest) (block : List UInt32) : Digest :=
  let y := ((List.range 80).foldl step (x, block)).1
  ⟨x.a + y.a, x.b + y.b, x.c + y.c, x.d + y.d, x.e + y.e⟩

/-- The eight bytes of a length in bits. -/
def lengthBytes (bits : Nat) : List UInt8 :=
  (List.range 8).map fun i ↦ UInt8.ofNat (bits >>> (8 * (7 - i)))

/-- The message, a marker bit, zeros, and the length, which together fill whole blocks. -/
def pad (message : List UInt8) : List UInt8 :=
  let zeros := (119 - message.length % 64) % 64
  message ++ 0x80 :: (List.replicate zeros 0 ++ lengthBytes (8 * message.length))

/-- The words of a list of bytes, most significant byte first. -/
def words : List UInt8 → List UInt32
  | p :: q :: r :: s :: rest =>
    ((p.toUInt32 <<< 24) ||| (q.toUInt32 <<< 16) ||| (r.toUInt32 <<< 8) ||| s.toUInt32)
      :: words rest
  | _ => []

/-- The blocks of a list of words. -/
def blocks : Nat → List UInt32 → List (List UInt32)
  | 0, _ => []
  | count + 1, ws => ws.take 16 :: blocks count (ws.drop 16)

/-- The digest of a message. -/
def digest (message : List UInt8) : Digest :=
  let ws := words (pad message)
  (blocks (ws.length / 16) ws).foldl absorb .initial

/-- The bytes of a word, most significant first. -/
def wordBytes (w : UInt32) : List UInt8 :=
  [(w >>> 24).toUInt8, (w >>> 16).toUInt8, (w >>> 8).toUInt8, w.toUInt8]

/-- The twenty bytes of a digest. -/
def Digest.bytes (x : Digest) : List UInt8 :=
  [x.a, x.b, x.c, x.d, x.e].flatMap wordBytes

end Chronicle.Sha1
