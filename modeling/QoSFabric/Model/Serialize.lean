import QoSFabric.Model.Limits
import QoSFabric.Foundation.LittleEndian

/-!
# Canonical byte streams

The bounded writer and reader of `serialize.hpp`. A writer that has failed holds no data, and a
reader that has failed holds no input: neither is looked at again by any caller.
-/

namespace QoSFabric

structure ByteWriter (limit : Nat) where
  data : Option Bytes
  fits : ∀ bytes ∈ data, bytes.length ≤ limit

namespace ByteWriter

variable {limit : Nat}

@[ext] theorem ext {v w : ByteWriter limit} (h : v.data = w.data) : v = w := by
  cases v
  cases w
  simp_all

def empty : ByteWriter limit := ⟨some [], by simp⟩

def fail (_ : ByteWriter limit) : ByteWriter limit := ⟨none, by simp⟩

def ok (w : ByteWriter limit) : Bool := w.data.isSome

def raw (w : ByteWriter limit) (bytes : Bytes) : ByteWriter limit where
  data := w.data.bind fun buffer =>
    if buffer.length + bytes.length ≤ limit then some (buffer ++ bytes) else none
  fits := by
    intro out h
    obtain ⟨buffer, -, h⟩ := Option.bind_eq_some_iff.mp h
    split at h
    · next fit => simp_all [← Option.some.inj h]
    · simp at h

def u8 (w : ByteWriter limit) (value : UInt8) : ByteWriter limit :=
  w.raw [value]

def u16 (w : ByteWriter limit) (value : UInt16) : ByteWriter limit :=
  w.raw (LittleEndian.encode 2 value.toNat)

def u32 (w : ByteWriter limit) (value : UInt32) : ByteWriter limit :=
  w.raw (LittleEndian.encode 4 value.toNat)

def u64 (w : ByteWriter limit) (value : UInt64) : ByteWriter limit :=
  w.raw (LittleEndian.encode 8 value.toNat)

def bytes (w : ByteWriter limit) (value : Bytes) : ByteWriter limit :=
  if value.length > 0xFFFFFFFF then w.fail
  else (w.u32 (UInt32.ofNat value.length)).raw value

def str (w : ByteWriter limit) (value : Text) (maxLen : Nat) : ByteWriter limit :=
  if value.length > maxLen then w.fail
  else (w.u32 (UInt32.ofNat value.length)).raw value

def presence (w : ByteWriter limit) (present : Bool) : ByteWriter limit :=
  w.u8 (if present then 1 else 0)

def counted {α : Type} (w : ByteWriter limit) (items : List α)
    (emit : ByteWriter limit → α → ByteWriter limit) : ByteWriter limit :=
  if items.length > 0xFFFFFFFF then w.fail
  else items.foldl emit (w.u32 (UInt32.ofNat items.length))

@[simp] theorem data_empty : (empty : ByteWriter limit).data = some [] := rfl

@[simp] theorem data_fail (w : ByteWriter limit) : w.fail.data = none := rfl

@[simp] theorem raw_fail (w : ByteWriter limit) (bytes : Bytes) : w.fail.raw bytes = w.fail := rfl

@[simp] theorem raw_raw (w : ByteWriter limit) (first second : Bytes) :
    (w.raw first).raw second = w.raw (first ++ second) := by
  ext1
  cases h : w.data with
  | none => simp [raw, h]
  | some buffer =>
      by_cases fit : buffer.length + first.length ≤ limit
      · simp [raw, h, fit, Nat.add_assoc]
      · have above : ¬buffer.length + (first.length + second.length) ≤ limit := by omega
        simp [raw, h, fit, above]

@[simp] theorem raw_nil (w : ByteWriter limit) : w.raw [] = w := by
  ext1
  cases h : w.data with
  | none => simp [raw, h]
  | some buffer => simp [raw, h, w.fits buffer h]

theorem u32_ofNat (w : ByteWriter limit) (n : Nat) :
    w.u32 (UInt32.ofNat n) = w.raw (LittleEndian.encode 4 n) := by
  rw [u32, UInt32.toNat_ofNat']
  exact congrArg w.raw (LittleEndian.encode_mod 4 n)

theorem data_raw_empty (bytes : Bytes) :
    ((empty : ByteWriter limit).raw bytes).data =
      if bytes.length ≤ limit then some bytes else none := by
  simp [raw]

end ByteWriter

/-! ## Reading -/

structure ByteReader where
  remaining : Option Bytes
  deriving DecidableEq, Repr

namespace ByteReader

def ofBytes (data : Bytes) : ByteReader := ⟨some data⟩

def failed (r : ByteReader) : Bool := r.remaining.isNone

def atEnd (r : ByteReader) : Bool := r.remaining == some []

end ByteReader

/-- Readers yield zero values once the stream has failed; the caller asks `failed` when it matters. -/
abbrev Read (α : Type) := ByteReader → α × ByteReader

namespace Read

def fail : Read Unit := fun _ => ((), ⟨none⟩)

def raw (size : Nat) : Read (Option Bytes) := fun r =>
  match r.remaining with
  | none => (none, r)
  | some data =>
      if size > data.length then (none, ⟨none⟩)
      else (some (data.take size), ⟨some (data.drop size)⟩)

def word (width : Nat) : Read Nat := fun r =>
  match raw width r with
  | (none, r) => (0, r)
  | (some view, r) => (LittleEndian.decode view, r)

def u8 : Read UInt8 := fun r => (word 1 r).map UInt8.ofNat id

def u16 : Read UInt16 := fun r => (word 2 r).map UInt16.ofNat id

def u32 : Read UInt32 := fun r => (word 4 r).map UInt32.ofNat id

def u64 : Read UInt64 := fun r => (word 8 r).map UInt64.ofNat id

def str (maxLen : Nat) : Read Text := fun r =>
  match u32 r with
  | (length, r) =>
      if r.failed then ([], r)
      else if length.toNat > maxLen then ([], ⟨none⟩)
      else
        match raw length.toNat r with
        | (none, r) => ([], r)
        | (some view, r) => (view, r)

def bytes (maxLen : Nat) : Read Bytes := str maxLen

def presence : Read Bool := fun r =>
  match u8 r with
  | (value, r) =>
      if r.failed then (false, r)
      else if value > 1 then (false, ⟨none⟩)
      else (value == 1, r)

def count (maxCount : Nat) : Read (Option Nat) := fun r =>
  match u32 r with
  | (value, r) =>
      if r.failed then (none, r)
      else if value.toNat > maxCount then (none, ⟨none⟩)
      else (some value.toNat, r)

theorem raw_append {size : Nat} {view : Bytes} (h : view.length = size) (rest : Bytes) :
    raw size ⟨some (view ++ rest)⟩ = (some view, ⟨some rest⟩) := by
  have fit : ¬size > (view ++ rest).length := by
    rw [List.length_append]
    omega
  simp only [raw, if_neg fit, List.take_left' h, List.drop_left' h]

theorem word_encode {width n : Nat} (bound : n < 256 ^ width) (rest : Bytes) :
    word width ⟨some (LittleEndian.encode width n ++ rest)⟩ = (n, ⟨some rest⟩) := by
  rw [word, raw_append (LittleEndian.length_encode width n)]
  simp only [LittleEndian.decode_encode_of_lt bound]

@[simp] theorem u8_cons (value : UInt8) (rest : Bytes) :
    u8 ⟨some (value :: rest)⟩ = (value, ⟨some rest⟩) := by
  have view := raw_append (show [value].length = 1 from rfl) rest
  rw [List.singleton_append] at view
  simp [u8, word, view, LittleEndian.decode]

@[simp] theorem u16_encode (value : UInt16) (rest : Bytes) :
    u16 ⟨some (LittleEndian.encode 2 value.toNat ++ rest)⟩ = (value, ⟨some rest⟩) := by
  rw [u16, word_encode value.toNat_lt]
  simp

@[simp] theorem u32_encode (value : UInt32) (rest : Bytes) :
    u32 ⟨some (LittleEndian.encode 4 value.toNat ++ rest)⟩ = (value, ⟨some rest⟩) := by
  rw [u32, word_encode value.toNat_lt]
  simp

theorem u32_length {n : Nat} (bound : n < 2 ^ 32) (rest : Bytes) :
    u32 ⟨some (LittleEndian.encode 4 n ++ rest)⟩ = (UInt32.ofNat n, ⟨some rest⟩) := by
  rw [u32, word_encode bound]
  simp

@[simp] theorem u64_encode (value : UInt64) (rest : Bytes) :
    u64 ⟨some (LittleEndian.encode 8 value.toNat ++ rest)⟩ = (value, ⟨some rest⟩) := by
  rw [u64, word_encode value.toNat_lt]
  simp

end Read

end QoSFabric
