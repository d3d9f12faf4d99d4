import ReplicatedKv.Hash.Digest

/-! # SHA-256

The secure hash of FIPS 180-4 with a 256-bit result, which identifies raw transactions.

* `pad` — the message, one set bit, zeros, and the bit length, in whole blocks of 64 bytes.
* `schedule` — the 64 words that a block contributes.
* `compress` — one block folded into the eight working words.
-/

namespace ReplicatedKv.Sha256

/-- The round constants: the fractional parts of the cube roots of the first 64 primes. -/
def roundConstants : List UInt32 :=
  [0x428a2f98, 0x71374491, 0xb5c0fbcf, 0xe9b5dba5, 0x3956c25b, 0x59f111f1, 0x923f82a4, 0xab1c5ed5,
   0xd807aa98, 0x12835b01, 0x243185be, 0x550c7dc3, 0x72be5d74, 0x80deb1fe, 0x9bdc06a7, 0xc19bf174,
   0xe49b69c1, 0xefbe4786, 0x0fc19dc6, 0x240ca1cc, 0x2de92c6f, 0x4a7484aa, 0x5cb0a9dc, 0x76f988da,
   0x983e5152, 0xa831c66d, 0xb00327c8, 0xbf597fc7, 0xc6e00bf3, 0xd5a79147, 0x06ca6351, 0x14292967,
   0x27b70a85, 0x2e1b2138, 0x4d2c6dfc, 0x53380d13, 0x650a7354, 0x766a0abb, 0x81c2c92e, 0x92722c85,
   0xa2bfe8a1, 0xa81a664b, 0xc24b8b70, 0xc76c51a3, 0xd192e819, 0xd6990624, 0xf40e3585, 0x106aa070,
   0x19a4c116, 0x1e376c08, 0x2748774c, 0x34b0bcb5, 0x391c0cb3, 0x4ed8aa4a, 0x5b9cca4f, 0x682e6ff3,
   0x748f82ee, 0x78a5636f, 0x84c87814, 0x8cc70208, 0x90befffa, 0xa4506ceb, 0xbef9a3f7, 0xc67178f2]

/-- The eight working words. -/
structure Registers where
  a : UInt32
  b : UInt32
  c : UInt32
  d : UInt32
  e : UInt32
  f : UInt32
  g : UInt32
  h : UInt32

/-- The starting words: the fractional parts of the square roots of the first eight primes. -/
def start : Registers :=
  ⟨0x6a09e667, 0xbb67ae85, 0x3c6ef372, 0xa54ff53a, 0x510e527f, 0x9b05688c, 0x1f83d9ab, 0x5be0cd19⟩

namespace Registers

def add (x y : Registers) : Registers :=
  ⟨x.a + y.a, x.b + y.b, x.c + y.c, x.d + y.d, x.e + y.e, x.f + y.f, x.g + y.g, x.h + y.h⟩

def toWords (x : Registers) : Vector UInt32 8 := #v[x.a, x.b, x.c, x.d, x.e, x.f, x.g, x.h]

/-- One round, with the sum of its schedule word and its round constant. -/
def round (x : Registers) (input : UInt32) : Registers :=
  let mixed := rotateRight x.e 6 ^^^ rotateRight x.e 11 ^^^ rotateRight x.e 25
  let choice := (x.e &&& x.f) ^^^ (~~~x.e &&& x.g)
  let first := x.h + mixed + choice + input
  let spread := rotateRight x.a 2 ^^^ rotateRight x.a 13 ^^^ rotateRight x.a 22
  let majority := (x.a &&& x.b) ^^^ (x.a &&& x.c) ^^^ (x.b &&& x.c)
  ⟨first + spread + majority, x.a, x.b, x.c, x.d + first, x.e, x.f, x.g⟩

end Registers

def wordAt (window : Vector UInt32 16) (i : Nat) : UInt32 := window[i]?.getD 0

def nextWord (window : Vector UInt32 16) : UInt32 :=
  let low := wordAt window 1
  let high := wordAt window 14
  let early := rotateRight low 7 ^^^ rotateRight low 18 ^^^ low >>> 3
  let late := rotateRight high 17 ^^^ rotateRight high 19 ^^^ high >>> 10
  wordAt window 0 + early + wordAt window 9 + late

/-- The next `n` words of the schedule that begins with the window. -/
def schedule : Nat → Vector UInt32 16 → List UInt32
  | 0, _ => []
  | n + 1, window => wordAt window 0 :: schedule n (window.tail.push (nextWord window))

def blockWords (block : Bytes) : Vector UInt32 16 :=
  .ofFn fun i => Bytes.ofBigEndian ((block.drop (4 * i.val)).take 4)

def compress (x : Registers) (block : Bytes) : Registers :=
  let inputs := (schedule 64 (blockWords block)).zipWith (· + ·) roundConstants
  x.add (inputs.foldl Registers.round x)

/-- The message followed by a set bit, the fewest zeros that fill whole blocks, and its length in
    bits as a 64-bit number. -/
def pad (message : Bytes) : Bytes :=
  let bits : UInt64 := (8 * message.length).toUInt64
  let filling : Bytes := 0x80 :: .replicate ((119 - message.length % 64) % 64) 0
  message ++ filling ++ bigEndian (bits >>> 32).toUInt32 ++ bigEndian bits.toUInt32

end Sha256

def sha256 (message : Bytes) : Digest :=
  .ofWords bigEndian
    (((Sha256.pad message).chunks 64).foldl Sha256.compress Sha256.start).toWords

end ReplicatedKv
