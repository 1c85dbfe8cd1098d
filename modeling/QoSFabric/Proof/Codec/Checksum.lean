import QoSFabric.Proof.Store.Frame
import QoSFabric.Foundation.Checksum

namespace QoSFabric

def crc32cUnbit (crc : UInt32) : UInt32 :=
  if crc >>> 31 = 1 then ((crc ^^^ 0x82F63B78) <<< 1) ||| 1 else crc <<< 1

theorem crc32cTable_unbit : ∀ ordinal : Fin 256,
    (Nat.repeat crc32cUnbit 8 (crc32cTable (.ofFin ordinal) >>> 24 <<< 24)).toUInt8 =
      .ofFin ordinal := by
  decide +kernel

theorem crc32cTable_injective : Function.Injective fun ordinal => crc32cTable ordinal >>> 24 := by
  intro first second same
  have unbit (ordinal : UInt8) : (Nat.repeat crc32cUnbit 8 (crc32cTable ordinal >>> 24 <<< 24)).toUInt8 =
      ordinal := crc32cTable_unbit ordinal.toFin
  dsimp only at same
  rw [← unbit first, ← unbit second, same]

theorem crc32cByte_high (crc : UInt32) (b : UInt8) :
    crc32cByte crc b >>> 24 = crc32cTable ((crc ^^^ b.toUInt32) &&& 0xFF).toUInt8 >>> 24 := by
  have empty : crc >>> 8 >>> 24 = 0 := by
    apply UInt32.toNat_inj.mp
    have lt := crc.toNat_lt
    simp only [UInt32.toNat_shiftRight]
    simp [Nat.shiftRight_eq_div_pow, Nat.div_div_eq_div_mul]
    omega
  rw [crc32cByte, UInt32.shiftRight_xor, empty, UInt32.xor_zero]

theorem toUInt8_low (crc : UInt32) (b : UInt8) :
    ((crc ^^^ b.toUInt32) &&& 0xFF).toUInt8 = crc.toUInt8 ^^^ b := by
  have all : (0xFF : UInt32).toUInt8 = -1 := rfl
  rw [UInt32.toUInt8_and, all, UInt8.and_neg_one, UInt32.toUInt8_xor, UInt8.toUInt8_toUInt32]

theorem crc32cByte_eq_iff {crc crc' : UInt32} {b b' : UInt8} :
    crc32cByte crc b = crc32cByte crc' b' ↔
      crc.toUInt8 ^^^ b = crc'.toUInt8 ^^^ b' ∧ crc >>> 8 = crc' >>> 8 := by
  constructor
  · intro same
    have high := congrArg (fun crc : UInt32 => crc >>> 24) same
    simp only [crc32cByte_high, toUInt8_low] at high
    have low := crc32cTable_injective high
    refine ⟨low, ?_⟩
    rw [crc32cByte, crc32cByte, toUInt8_low, toUInt8_low, low] at same
    exact (UInt32.xor_right_inj _).mp same
  · rintro ⟨low, high⟩
    rw [crc32cByte, crc32cByte, toUInt8_low, toUInt8_low, low, high]

theorem eq_of_low_high {crc crc' : UInt32} (low : crc.toUInt8 = crc'.toUInt8)
    (high : crc >>> 8 = crc' >>> 8) : crc = crc' := by
  have low := congrArg UInt8.toNat low
  have high := congrArg UInt32.toNat high
  simp only [UInt32.toNat_toUInt8, UInt32.toNat_shiftRight, Nat.shiftRight_eq_div_pow] at low high
  apply UInt32.toNat_inj.mp
  change crc.toNat / 2 ^ 8 = crc'.toNat / 2 ^ 8 at high
  omega

theorem crc32cByte_lossless : Checksum.Lossless crc32cByte where
  state b crc crc' same := by
    obtain ⟨low, high⟩ := crc32cByte_eq_iff.mp same
    exact eq_of_low_high ((UInt8.xor_left_inj b).mp low) high
  item crc b b' same := (UInt8.xor_right_inj _).mp (crc32cByte_eq_iff.mp same).1

theorem crc32c_set_ne {message : Bytes} {i : Nat} {b : UInt8} (lt : i < message.length)
    (ne : b ≠ message[i]) : crc32c (message.set i b) ≠ crc32c message := by
  intro same
  exact crc32cByte_lossless.foldl_set_ne lt ne _ ((UInt32.xor_left_inj _).mp same)

theorem framed_set_ne {record other : Bytes} {i : Nat} {b : UInt8}
    (lt : i < (frameHeader record ++ record).length) (ne : b ≠ (frameHeader record ++ record)[i]) :
    (frameHeader record ++ record).set i b ≠ frameHeader other ++ other := by
  intro same
  have size : (frameHeader record).length = (frameHeader other).length := by
    rw [length_frameHeader, length_frameHeader]
  by_cases header : i < (frameHeader record).length
  · -- the records agree, and with them the headers
    rw [List.set_append_left _ _ header] at same
    obtain ⟨changed, rfl⟩ := List.append_inj same (by rw [List.length_set, size])
    rw [List.getElem_append_left header] at ne
    have read := congrArg (fun bytes : Bytes => bytes[i]?) changed
    simp only [List.getElem?_set_self header, List.getElem?_eq_getElem header,
      Option.some.injEq] at read
    exact ne read
  · have behind := Nat.le_of_not_lt header
    rw [List.set_append_right _ _ behind] at same
    obtain ⟨headers, changed⟩ := List.append_inj same size
    rw [List.length_append] at lt
    rw [List.getElem_append_right behind] at ne
    have checksums : crc32c record = crc32c other := by
      have words := (List.append_inj' headers (by simp)).2
      have numbers := congrArg LittleEndian.decode words
      rw [LittleEndian.decode_encode_of_lt (crc32c record).toNat_lt,
        LittleEndian.decode_encode_of_lt (crc32c other).toNat_lt] at numbers
      exact UInt32.toNat_inj.mp numbers
    rw [← changed] at checksums
    exact crc32c_set_ne (by omega) ne checksums.symm

end QoSFabric
