import Mathlib.Tactic.Ring
import Mathlib.Tactic.NormNum

/-!
# Little-endian integers

Fixed-width little-endian encodings of natural numbers as lists of bytes.
-/

namespace LittleEndian

def encode : Nat → Nat → List UInt8
  | 0, _ => []
  | width + 1, n => UInt8.ofNat n :: encode width (n / 256)

def decode : List UInt8 → Nat
  | [] => 0
  | b :: bs => b.toNat + 256 * decode bs

@[simp] theorem length_encode (width n : Nat) : (encode width n).length = width := by
  induction width generalizing n with
  | zero => rfl
  | succ width ih => simp [encode, ih]

theorem encode_mod (width n : Nat) : encode width (n % 256 ^ width) = encode width n := by
  induction width generalizing n with
  | zero => rfl
  | succ width ih =>
      have low : n % 256 ^ (width + 1) % 256 = n % 256 := by
        rw [pow_succ', Nat.mod_mul_right_mod]
      have high : n % 256 ^ (width + 1) / 256 = n / 256 % 256 ^ width := by
        rw [pow_succ', Nat.mod_mul_right_div_self]
      have byte : UInt8.ofNat (n % 256 ^ (width + 1)) = UInt8.ofNat n := by
        apply UInt8.toNat_inj.mp
        rw [UInt8.toNat_ofNat', UInt8.toNat_ofNat', low]
      rw [encode, encode, high, ih, byte]

theorem decode_encode (width n : Nat) : decode (encode width n) = n % 256 ^ width := by
  induction width generalizing n with
  | zero => simp [encode, decode, Nat.mod_one]
  | succ width ih =>
      rw [encode, decode, ih, pow_succ', Nat.mod_mul]
      simp

theorem decode_encode_of_lt {width n : Nat} (bound : n < 256 ^ width) :
    decode (encode width n) = n := by
  rw [decode_encode, Nat.mod_eq_of_lt bound]

theorem decode_lt (bytes : List UInt8) : decode bytes < 256 ^ bytes.length := by
  induction bytes with
  | nil => simp [decode]
  | cons b bs ih =>
      have low : b.toNat < 256 := b.toNat_lt
      rw [decode, List.length_cons, pow_succ]
      omega

theorem encode_decode (bytes : List UInt8) : encode bytes.length (decode bytes) = bytes := by
  induction bytes with
  | nil => rfl
  | cons b bs ih =>
      have low : b.toNat < 256 := b.toNat_lt
      have quotient : (b.toNat + 256 * decode bs) / 256 = decode bs := by omega
      rw [List.length_cons, decode, encode, quotient, ih]
      congr 1
      apply UInt8.toNat_inj.mp
      simp only [UInt8.toNat_ofNat']
      omega

theorem exists_encode {width : Nat} {bytes : List UInt8} (long : width ≤ bytes.length) :
    ∃ n < 256 ^ width, ∃ rest, bytes = encode width n ++ rest := by
  have length : (bytes.take width).length = width := List.length_take_of_le long
  have bound := decode_lt (bytes.take width)
  have front := encode_decode (bytes.take width)
  rw [length] at bound front
  exact ⟨_, bound, bytes.drop width, by rw [front, List.take_append_drop]⟩

end LittleEndian
