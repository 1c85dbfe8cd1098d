import QoSFabric.Model.Limits
import QoSFabric.Foundation.LittleEndian

/-!
# Content addressing and frame integrity
-/

namespace QoSFabric

/-! ## Digests -/

structure Digest256 where
  bytes : Bytes
  size : bytes.length = 32
  deriving DecidableEq

namespace Digest256

def zero : Digest256 := ⟨List.replicate 32 0, by simp⟩

def isZero (d : Digest256) : Bool := d.bytes.all (· == 0)

/-- A digest from a buffer of at least 32 bytes, as `std::memcpy` fills one. -/
def ofBuffer (b : Bytes) : Digest256 :=
  if h : (b.take 32).length = 32 then ⟨b.take 32, h⟩ else zero

def hexDigit (n : UInt8) : UInt8 := if n < 10 then 48 + n else 87 + n

def hex (d : Digest256) : Text :=
  d.bytes.flatMap fun (b : UInt8) => [hexDigit ((b >>> 4) &&& 0x0F), hexDigit (b &&& 0x0F)]

def hexNibble (c : UInt8) : Option UInt8 :=
  if 48 ≤ c ∧ c ≤ 57 then some (c - 48)
  else if 97 ≤ c ∧ c ≤ 102 then some (c - 87)
  else if 65 ≤ c ∧ c ≤ 70 then some (c - 55)
  else none

def parseHexBytes : Text → Option Bytes
  | [] => some []
  | [_] => none
  | high :: low :: rest =>
      match hexNibble high, hexNibble low, parseHexBytes rest with
      | some high, some low, some bytes => some (((high <<< 4) ||| low) :: bytes)
      | _, _, _ => none

def parseHex (t : Text) : Option Digest256 :=
  match parseHexBytes t with
  | some bytes => if h : bytes.length = 32 then some ⟨bytes, h⟩ else none
  | none => none

theorem hex_nibbles (b : UInt8) :
    hexNibble (hexDigit ((b >>> 4) &&& 0x0F)) = some ((b >>> 4) &&& 0x0F) ∧
      hexNibble (hexDigit (b &&& 0x0F)) = some (b &&& 0x0F) ∧
      (((b >>> 4) &&& 0x0F) <<< 4) ||| (b &&& 0x0F) = b := by
  have table : ∀ n < 256, hexNibble (hexDigit ((UInt8.ofNat n >>> 4) &&& 0x0F)) =
        some ((UInt8.ofNat n >>> 4) &&& 0x0F) ∧
      hexNibble (hexDigit (UInt8.ofNat n &&& 0x0F)) = some (UInt8.ofNat n &&& 0x0F) ∧
      (((UInt8.ofNat n >>> 4) &&& 0x0F) <<< 4) ||| (UInt8.ofNat n &&& 0x0F) = UInt8.ofNat n := by
    decide +kernel
  have entry := table b.toNat b.toNat_lt
  rwa [UInt8.ofNat_toNat] at entry

@[simp] theorem parseHex_hex (d : Digest256) : parseHex d.hex = some d := by
  have bytes (bs : Bytes) : parseHexBytes (bs.flatMap fun (b : UInt8) =>
      [hexDigit ((b >>> 4) &&& 0x0F), hexDigit (b &&& 0x0F)]) = some bs := by
    induction bs with
    | nil => rfl
    | cons b bs ih =>
        obtain ⟨high, low, joined⟩ := hex_nibbles b
        simp only [List.flatMap_cons, List.cons_append, List.nil_append, parseHexBytes, high, low,
          ih, joined]
  simp [parseHex, hex, bytes, d.size]

theorem ofBuffer_bytes (value : Digest256) : ofBuffer value.bytes = value := by
  have whole : value.bytes.take 32 = value.bytes := by
    rw [List.take_of_length_le (Nat.le_of_eq value.size)]
  unfold ofBuffer
  rw [dif_pos (by rw [whole, value.size])]
  cases value
  congr

end Digest256

/-! ## CRC-32C -/

def crc32cBit (crc : UInt32) : UInt32 :=
  if crc &&& 1 = 1 then (crc >>> 1) ^^^ 0x82F63B78 else crc >>> 1

/-- The slot of `make_crc32c_table` with this ordinal. -/
def crc32cTable (ordinal : UInt8) : UInt32 :=
  Nat.repeat crc32cBit 8 ordinal.toUInt32

def crc32cByte (crc : UInt32) (b : UInt8) : UInt32 :=
  crc32cTable ((crc ^^^ b.toUInt32) &&& 0xFF).toUInt8 ^^^ (crc >>> 8)

def crc32c (data : Bytes) : UInt32 :=
  data.foldl crc32cByte 0xFFFFFFFF ^^^ 0xFFFFFFFF

example : crc32c (text "123456789") = 0xE3069283 := by decide +kernel

/-! ## SHA-256 -/

def sha256K : List UInt32 := [
  0x428a2f98, 0x71374491, 0xb5c0fbcf, 0xe9b5dba5, 0x3956c25b, 0x59f111f1, 0x923f82a4,
  0xab1c5ed5, 0xd807aa98, 0x12835b01, 0x243185be, 0x550c7dc3, 0x72be5d74, 0x80deb1fe,
  0x9bdc06a7, 0xc19bf174, 0xe49b69c1, 0xefbe4786, 0x0fc19dc6, 0x240ca1cc, 0x2de92c6f,
  0x4a7484aa, 0x5cb0a9dc, 0x76f988da, 0x983e5152, 0xa831c66d, 0xb00327c8, 0xbf597fc7,
  0xc6e00bf3, 0xd5a79147, 0x06ca6351, 0x14292967, 0x27b70a85, 0x2e1b2138, 0x4d2c6dfc,
  0x53380d13, 0x650a7354, 0x766a0abb, 0x81c2c92e, 0x92722c85, 0xa2bfe8a1, 0xa81a664b,
  0xc24b8b70, 0xc76c51a3, 0xd192e819, 0xd6990624, 0xf40e3585, 0x106aa070, 0x19a4c116,
  0x1e376c08, 0x2748774c, 0x34b0bcb5, 0x391c0cb3, 0x4ed8aa4a, 0x5b9cca4f, 0x682e6ff3,
  0x748f82ee, 0x78a5636f, 0x84c87814, 0x8cc70208, 0x90befffa, 0xa4506ceb, 0xbef9a3f7,
  0xc67178f2]

structure Sha256State where
  (a b c d e f g h : UInt32)
  deriving DecidableEq, Repr

def sha256Init : Sha256State :=
  ⟨0x6a09e667, 0xbb67ae85, 0x3c6ef372, 0xa54ff53a, 0x510e527f, 0x9b05688c, 0x1f83d9ab, 0x5be0cd19⟩

def rotr (value : UInt32) (bits : UInt32) : UInt32 :=
  (value >>> bits) ||| (value <<< (32 - bits))

def blockWord (block : Bytes) (i : Nat) : UInt32 :=
  ((block.getD (i * 4) 0).toUInt32 <<< 24) ||| ((block.getD (i * 4 + 1) 0).toUInt32 <<< 16) |||
    ((block.getD (i * 4 + 2) 0).toUInt32 <<< 8) ||| (block.getD (i * 4 + 3) 0).toUInt32

/-- The message schedule, newest word first: `w[i - k]` is the entry at `k - 1`. -/
def scheduleStep (w : List UInt32) : List UInt32 :=
  let w15 := w.getD 14 0
  let w2 := w.getD 1 0
  let s0 := rotr w15 7 ^^^ rotr w15 18 ^^^ (w15 >>> 3)
  let s1 := rotr w2 17 ^^^ rotr w2 19 ^^^ (w2 >>> 10)
  (w.getD 15 0 + s0 + w.getD 6 0 + s1) :: w

def schedule (block : Bytes) : List UInt32 :=
  (Nat.repeat scheduleStep 48 ((List.range 16).map (blockWord block)).reverse).reverse

def roundStep (s : Sha256State) (kw : UInt32 × UInt32) : Sha256State :=
  let s1 := rotr s.e 6 ^^^ rotr s.e 11 ^^^ rotr s.e 25
  let ch := (s.e &&& s.f) ^^^ (~~~s.e &&& s.g)
  let temp1 := s.h + s1 + ch + kw.1 + kw.2
  let s0 := rotr s.a 2 ^^^ rotr s.a 13 ^^^ rotr s.a 22
  let maj := (s.a &&& s.b) ^^^ (s.a &&& s.c) ^^^ (s.b &&& s.c)
  let temp2 := s0 + maj
  ⟨temp1 + temp2, s.a, s.b, s.c, s.d + temp1, s.e, s.f, s.g⟩

def compress (s : Sha256State) (block : Bytes) : Sha256State :=
  let r := (sha256K.zip (schedule block)).foldl roundStep s
  ⟨s.a + r.a, s.b + r.b, s.c + r.c, s.d + r.d, s.e + r.e, s.f + r.f, s.g + r.g, s.h + r.h⟩

/-- The streaming hasher. The bytes buffered so far stand for `buffer_` and `buffered_`. -/
structure Sha256 where
  state : Sha256State
  buffer : Bytes
  totalBytes : UInt64
  deriving DecidableEq, Repr

namespace Sha256

def reset : Sha256 := ⟨sha256Init, [], 0⟩

def absorb : Nat → Sha256State → Bytes → Sha256State × Bytes
  | 0, s, data => (s, data)
  | fuel + 1, s, data =>
      if 64 ≤ data.length then absorb fuel (compress s (data.take 64)) (data.drop 64)
      else (s, data)

def update (h : Sha256) (data : Bytes) : Sha256 :=
  if data.isEmpty then h
  else
    let total := h.totalBytes + UInt64.ofNat data.length
    if h.buffer.isEmpty then
      let (s, rest) := absorb (data.length / 64) h.state data
      ⟨s, rest, total⟩
    else
      let need := 64 - h.buffer.length
      let filled := h.buffer ++ data.take need
      let data := data.drop need
      if filled.length = 64 then
        let (s, rest) := absorb (data.length / 64) (compress h.state filled) data
        ⟨s, rest, total⟩
      else ⟨h.state, filled, total⟩

/-- The padding loop of `finish`; one byte per turn, at most 64 turns. -/
def padZeros : Nat → Sha256 → Sha256
  | 0, h => h
  | fuel + 1, h => if h.buffer.length ≠ 56 then padZeros fuel (h.update [0]) else h

def wordBytes (w : UInt32) : Bytes :=
  [(w >>> 24).toUInt8, (w >>> 16).toUInt8, (w >>> 8).toUInt8, w.toUInt8]

def finish (h : Sha256) : Digest256 :=
  let bitLength := h.totalBytes * 8
  let padded := padZeros 64 (h.update [0x80])
  let s := compress padded.state (padded.buffer.take 56 ++ (LittleEndian.encode 8 bitLength.toNat).reverse)
  ⟨wordBytes s.a ++ wordBytes s.b ++ wordBytes s.c ++ wordBytes s.d ++
    wordBytes s.e ++ wordBytes s.f ++ wordBytes s.g ++ wordBytes s.h, by simp [wordBytes]⟩

end Sha256

def sha256 (data : Bytes) : Digest256 :=
  (Sha256.reset.update data).finish

example : (sha256 (text "abc")).hex =
    text "ba7816bf8f01cfea414140de5dae2223b00361a396177a9cb410ff61f20015ad" := by decide +kernel

end QoSFabric
