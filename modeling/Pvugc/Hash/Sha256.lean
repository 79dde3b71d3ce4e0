import Pvugc.Algebra.Bytes

namespace Pvugc.Hash
open Pvugc.Algebra

section Words

def rotr (x n : UInt32) : UInt32 := (x >>> n) ||| (x <<< (32 - n))

def ch (x y z : UInt32) : UInt32 := (x &&& y) ^^^ (~~~x &&& z)

def maj (x y z : UInt32) : UInt32 := (x &&& y) ^^^ (x &&& z) ^^^ (y &&& z)

def bigSigma0 (x : UInt32) : UInt32 := rotr x 2 ^^^ rotr x 13 ^^^ rotr x 22

def bigSigma1 (x : UInt32) : UInt32 := rotr x 6 ^^^ rotr x 11 ^^^ rotr x 25

def smallSigma0 (x : UInt32) : UInt32 := rotr x 7 ^^^ rotr x 18 ^^^ (x >>> 3)

def smallSigma1 (x : UInt32) : UInt32 := rotr x 17 ^^^ rotr x 19 ^^^ (x >>> 10)

end Words

section Compression

/-- The eight words of the chaining value. -/
structure Chain where
  a : UInt32
  b : UInt32
  c : UInt32
  d : UInt32
  e : UInt32
  f : UInt32
  g : UInt32
  h : UInt32
  deriving DecidableEq, Repr

def Chain.initial : Chain :=
  ⟨0x6a09e667, 0xbb67ae85, 0x3c6ef372, 0xa54ff53a, 0x510e527f, 0x9b05688c, 0x1f83d9ab, 0x5be0cd19⟩

def roundConstants : List UInt32 :=
  [0x428a2f98, 0x71374491, 0xb5c0fbcf, 0xe9b5dba5, 0x3956c25b, 0x59f111f1, 0x923f82a4, 0xab1c5ed5,
    0xd807aa98, 0x12835b01, 0x243185be, 0x550c7dc3, 0x72be5d74, 0x80deb1fe, 0x9bdc06a7, 0xc19bf174,
    0xe49b69c1, 0xefbe4786, 0x0fc19dc6, 0x240ca1cc, 0x2de92c6f, 0x4a7484aa, 0x5cb0a9dc, 0x76f988da,
    0x983e5152, 0xa831c66d, 0xb00327c8, 0xbf597fc7, 0xc6e00bf3, 0xd5a79147, 0x06ca6351, 0x14292967,
    0x27b70a85, 0x2e1b2138, 0x4d2c6dfc, 0x53380d13, 0x650a7354, 0x766a0abb, 0x81c2c92e, 0x92722c85,
    0xa2bfe8a1, 0xa81a664b, 0xc24b8b70, 0xc76c51a3, 0xd192e819, 0xd6990624, 0xf40e3585, 0x106aa070,
    0x19a4c116, 0x1e376c08, 0x2748774c, 0x34b0bcb5, 0x391c0cb3, 0x4ed8aa4a, 0x5b9cca4f, 0x682e6ff3,
    0x748f82ee, 0x78a5636f, 0x84c87814, 0x8cc70208, 0x90befffa, 0xa4506ceb, 0xbef9a3f7, 0xc67178f2]

def Chain.round (chain : Chain) (constant word : UInt32) : Chain :=
  let t1 := chain.h + bigSigma1 chain.e + ch chain.e chain.f chain.g + constant + word
  let t2 := bigSigma0 chain.a + maj chain.a chain.b chain.c
  ⟨t1 + t2, chain.a, chain.b, chain.c, chain.d + t1, chain.e, chain.f, chain.g⟩

/-- The schedule word behind the sixteen words of a window. -/
def nextWord (window : List UInt32) : UInt32 :=
  smallSigma1 (window.getD 14 0) + window.getD 9 0 + smallSigma0 (window.getD 1 0) + window.getD 0 0

/-- The rounds of a block, with the window that the schedule slides along. -/
def Chain.roundsOf : List UInt32 → Chain → List UInt32 → Chain
  | [], chain, _ => chain
  | constant :: constants, chain, window =>
      roundsOf constants (chain.round constant (window.getD 0 0)) (window.tail ++ [nextWord window])

def Chain.add (chain other : Chain) : Chain :=
  ⟨chain.a + other.a, chain.b + other.b, chain.c + other.c, chain.d + other.d, chain.e + other.e, chain.f + other.f,
    chain.g + other.g, chain.h + other.h⟩

/-- The words of a block in big-endian order. -/
def blockWords (block : List UInt8) : List UInt32 :=
  (List.range 16).map fun i => UInt32.ofNat (beValue ((block.drop (4 * i)).take 4))

def Chain.compress (chain : Chain) (block : List UInt8) : Chain :=
  chain.add (roundsOf roundConstants chain (blockWords block))

end Compression

section Message

/-- The padded message fills whole blocks. -/
def pad (message : List UInt8) : List UInt8 :=
  message ++ 0x80 :: List.replicate ((119 - message.length % 64) % 64) 0 ++ toBeBytes 8 (8 * message.length)

/-- The chaining value behind the given number of blocks. -/
def Chain.compressBlocks : ℕ → Chain → List UInt8 → Chain
  | 0, chain, _ => chain
  | count + 1, chain, bytes => compressBlocks count (chain.compress (bytes.take 64)) (bytes.drop 64)

def Chain.digest (chain : Chain) : Vector UInt8 32 :=
  ⟨(toBeBytes 4 chain.a.toNat ++ toBeBytes 4 chain.b.toNat ++ toBeBytes 4 chain.c.toNat ++
    toBeBytes 4 chain.d.toNat ++ toBeBytes 4 chain.e.toNat ++ toBeBytes 4 chain.f.toNat ++
    toBeBytes 4 chain.g.toNat ++ toBeBytes 4 chain.h.toNat).toArray, by simp⟩

/-- The hash function SHA-256. -/
def sha256 (message : List UInt8) : Vector UInt8 32 :=
  (Chain.compressBlocks ((pad message).length / 64) .initial (pad message)).digest

end Message

end Pvugc.Hash
