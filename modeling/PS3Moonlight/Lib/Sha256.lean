import PS3Moonlight.Lib.BlockHash
import PS3Moonlight.Lib.Bytes

/-!
This module contains the hash function SHA-256 of FIPS 180-4: the functions on words, the constants as
fractional parts of roots of the first primes, the compression of a block and the padding.
-/

namespace Sha256

def rotr (n : UInt32) (x : UInt32) : UInt32 :=
  (x >>> n) ||| (x <<< (32 - n))

def ch (x y z : UInt32) : UInt32 :=
  (x &&& y) ^^^ (~~~x &&& z)

def maj (x y z : UInt32) : UInt32 :=
  (x &&& y) ^^^ (x &&& z) ^^^ (y &&& z)

def bigSigma0 (x : UInt32) : UInt32 :=
  rotr 2 x ^^^ rotr 13 x ^^^ rotr 22 x

def bigSigma1 (x : UInt32) : UInt32 :=
  rotr 6 x ^^^ rotr 11 x ^^^ rotr 25 x

def smallSigma0 (x : UInt32) : UInt32 :=
  rotr 7 x ^^^ rotr 18 x ^^^ (x >>> 3)

def smallSigma1 (x : UInt32) : UInt32 :=
  rotr 17 x ^^^ rotr 19 x ^^^ (x >>> 10)

/- The largest number below `2^bits` whose power does not exceed `n`, bit by bit. -/
def floorRoot (k n bits : Nat) : Nat :=
  match bits with
  | 0 => 0
  | bits + 1 =>
    let r := 2 * floorRoot k (n / 2 ^ k) bits
    if (r + 1) ^ k ≤ n then r + 1 else r

def primes : List Nat :=
  [2, 3, 5, 7, 11, 13, 17, 19, 23, 29, 31, 37, 41, 43, 47, 53, 59, 61, 67, 71, 73, 79, 83, 89, 97,
    101, 103, 107, 109, 113, 127, 131, 137, 139, 149, 151, 157, 163, 167, 173, 179, 181, 191, 193,
    197, 199, 211, 223, 227, 229, 233, 239, 241, 251, 257, 263, 269, 271, 277, 281, 283, 293, 307,
    311]

/- The first 32 bits of the fractional parts of the cube roots. -/
def k : List UInt32 :=
  primes.map fun p => (floorRoot 3 (p * 2 ^ 96) 40).toUInt32

structure Words where
  a : UInt32
  b : UInt32
  c : UInt32
  d : UInt32
  e : UInt32
  f : UInt32
  g : UInt32
  h : UInt32
deriving DecidableEq, Repr

def Words.add (x y : Words) : Words :=
  ⟨x.a + y.a, x.b + y.b, x.c + y.c, x.d + y.d, x.e + y.e, x.f + y.f, x.g + y.g, x.h + y.h⟩

/- The first 32 bits of the fractional part of the square root. -/
def initialWord (p : Nat) : UInt32 :=
  (floorRoot 2 (p * 2 ^ 64) 40).toUInt32

def initial : Words :=
  ⟨initialWord 2, initialWord 3, initialWord 5, initialWord 7, initialWord 11, initialWord 13,
    initialWord 17, initialWord 19⟩

/- The first `n` words of the message schedule. -/
def schedule (block : List UInt8) (n : Nat) : List UInt32 :=
  match n with
  | 0 => []
  | t + 1 =>
    let w := schedule block t
    let word :=
      if t < 16 then
        (Bytes.readBe32 block (4 * t)).toUInt32
      else
        smallSigma1 (w.getD (t - 2) 0) + w.getD (t - 7) 0 + smallSigma0 (w.getD (t - 15) 0)
          + w.getD (t - 16) 0
    w ++ [word]

def round (k w : UInt32) (x : Words) : Words :=
  let t1 := x.h + bigSigma1 x.e + ch x.e x.f x.g + k + w
  let t2 := bigSigma0 x.a + maj x.a x.b x.c
  ⟨t1 + t2, x.a, x.b, x.c, x.d + t1, x.e, x.f, x.g⟩

def rounds (w : List UInt32) (n : Nat) (x : Words) : Words :=
  match n with
  | 0 => x
  | t + 1 => round (k.getD t 0) (w.getD t 0) (rounds w t x)

def compress (x : Words) (block : List UInt8) : Words :=
  x.add (rounds (schedule block 64) 64 x)

/- The message, a bit that is set, as few zeros as possible, and the length in bits. -/
def pad (message : List UInt8) : List UInt8 :=
  message ++ [0x80] ++ List.replicate ((119 - message.length % 64) % 64) 0
    ++ Bytes.be32 (8 * message.length / 2 ^ 32) ++ Bytes.be32 (8 * message.length)

def Words.bytes (x : Words) : List UInt8 :=
  [x.a, x.b, x.c, x.d, x.e, x.f, x.g, x.h].flatMap fun w => Bytes.be32 w.toNat

def digest (message : List UInt8) : List UInt8 :=
  let padded := pad message
  ((Blocks.split 64 (padded.length / 64) padded).foldl compress initial).bytes

end Sha256
