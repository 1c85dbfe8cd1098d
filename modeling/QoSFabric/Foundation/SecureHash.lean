import QoSFabric.Foundation.Blocks
import Mathlib.Data.Nat.NthRoot.Defs
import Mathlib.Data.Nat.Prime.Basic

/-!
# The secure hash standard

SHA-256 as FIPS 180-4 states it, over messages of whole bytes: its functions and constants, its
padding, and its computation on a message schedule.
-/

namespace SecureHash

abbrev Word := BitVec 32

def choose (x y z : Word) : Word := (x &&& y) ^^^ (~~~x &&& z)

def majority (x y z : Word) : Word := (x &&& y) ^^^ (x &&& z) ^^^ (y &&& z)

def bigSigma0 (x : Word) : Word := x.rotateRight 2 ^^^ x.rotateRight 13 ^^^ x.rotateRight 22

def bigSigma1 (x : Word) : Word := x.rotateRight 6 ^^^ x.rotateRight 11 ^^^ x.rotateRight 25

def smallSigma0 (x : Word) : Word := x.rotateRight 7 ^^^ x.rotateRight 18 ^^^ x >>> 3

def smallSigma1 (x : Word) : Word := x.rotateRight 17 ^^^ x.rotateRight 19 ^^^ x >>> 10

def fractionalRoot (degree n : Nat) : Word :=
  BitVec.ofNat 32 (Nat.nthRoot degree (n * 2 ^ (32 * degree)))

def primes : List Nat := (List.range 312).filter Nat.Prime

def roundConstants : List Word := primes.map (fractionalRoot 3)

/-- The working variables, and the hash value, of eight words. -/
structure Variables where
  (a b c d e f g h : Word)
  deriving DecidableEq

def initial : Variables where
  a := fractionalRoot 2 2
  b := fractionalRoot 2 3
  c := fractionalRoot 2 5
  d := fractionalRoot 2 7
  e := fractionalRoot 2 11
  f := fractionalRoot 2 13
  g := fractionalRoot 2 17
  h := fractionalRoot 2 19

def zeros (length : Nat) : Nat := (119 - length % 64) % 64

theorem zeros_least {length count : Nat} (aligned : (length + 1 + count) % 64 = 56) :
    zeros length ≤ count := by
  unfold zeros
  omega

theorem zeros_aligned (length : Nat) : (length + 1 + zeros length) % 64 = 56 := by
  unfold zeros
  omega

def lengthBytes (bits : Nat) : List UInt8 :=
  (List.range 8).map fun i => UInt8.ofNat (bits >>> (8 * (7 - i)))

def pad (message : List UInt8) : List UInt8 :=
  message ++ (0x80 :: List.replicate (zeros message.length) 0) ++ lengthBytes (8 * message.length)

def word (block : List UInt8) (i : Nat) : Word :=
  (block.getD (4 * i) 0).toBitVec ++ (block.getD (4 * i + 1) 0).toBitVec ++
    (block.getD (4 * i + 2) 0).toBitVec ++ (block.getD (4 * i + 3) 0).toBitVec

def schedule (block : List UInt8) (t : Nat) : Word :=
  if t < 16 then word block t
  else
    smallSigma1 (schedule block (t - 2)) + schedule block (t - 7) +
      smallSigma0 (schedule block (t - 15)) + schedule block (t - 16)

def round (k w : Word) (s : Variables) : Variables :=
  let temp1 := s.h + bigSigma1 s.e + choose s.e s.f s.g + k + w
  let temp2 := bigSigma0 s.a + majority s.a s.b s.c
  ⟨temp1 + temp2, s.a, s.b, s.c, s.d + temp1, s.e, s.f, s.g⟩

def rounds (block : List UInt8) (s : Variables) : Nat → Variables
  | 0 => s
  | t + 1 => round (roundConstants.getD t 0) (schedule block t) (rounds block s t)

def compress (s : Variables) (block : List UInt8) : Variables :=
  let r := rounds block s 64
  ⟨r.a + s.a, r.b + s.b, r.c + s.c, r.d + s.d, r.e + s.e, r.f + s.f, r.g + s.g, r.h + s.h⟩

def wordBytes (w : Word) : List UInt8 :=
  (List.range 4).map fun i => UInt8.ofBitVec (w.extractLsb' (8 * (3 - i)) 8)

def digest (s : Variables) : List UInt8 :=
  [s.a, s.b, s.c, s.d, s.e, s.f, s.g, s.h].flatMap wordBytes

def sha256 (message : List UInt8) : List UInt8 :=
  digest ((Blocks.blocks 64 (pad message)).foldl compress initial)

end SecureHash
