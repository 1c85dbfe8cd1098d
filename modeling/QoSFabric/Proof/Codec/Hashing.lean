import QoSFabric.Foundation.SecureHash
import QoSFabric.Model.Crypto
import Mathlib.Data.List.GetD

/-!
# Streaming hash

The hasher absorbs the blocks of everything it has been given, however it was cut into chunks, and
its padding is the one of the standard.
-/

namespace QoSFabric

open Blocks

theorem toBitVec_rotr (x : UInt32) {bits : UInt32} (small : bits < 32) (positive : 0 < bits) :
    (rotr x bits).toBitVec = x.toBitVec.rotateRight bits.toNat := by
  have below : bits.toNat < 32 := small
  have above : 0 < bits.toNat := positive
  have right : bits.toBitVec % 32 = bits.toBitVec := by
    apply BitVec.eq_of_toNat_eq
    rw [BitVec.toNat_umod]
    exact Nat.mod_eq_of_lt below
  have left : ((32 - bits).toBitVec % 32).toNat = 32 - bits.toNat := by
    have sub : (32 - bits).toNat = 32 - bits.toNat := UInt32.toNat_sub_of_le _ _ (UInt32.le_of_lt small)
    rw [BitVec.toNat_umod]
    show (32 - bits).toNat % 32 = _
    rw [sub, Nat.mod_eq_of_lt (by omega)]
  rw [rotr, UInt32.toBitVec_or, UInt32.toBitVec_shiftRight, UInt32.toBitVec_shiftLeft,
    BitVec.rotateRight_def, Nat.mod_eq_of_lt below, right]
  congr 1
  rw [BitVec.shiftLeft_eq', left]

theorem append_bytes (b₀ b₁ b₂ b₃ : BitVec 8) :
    (b₀.setWidth 32 <<< 24 ||| b₁.setWidth 32 <<< 16 ||| b₂.setWidth 32 <<< 8 ||| b₃.setWidth 32) =
      (b₀ ++ b₁ ++ b₂ ++ b₃ : BitVec 32) := by
  have shifted (b : BitVec 8) {places : Nat} (few : places ≤ 24) :
      (b.setWidth 32 <<< places).toNat = b.toNat <<< places := by
    have small : b.toNat < 2 ^ 8 := b.isLt
    have wide : b.toNat <<< places < 2 ^ 32 := by
      rw [Nat.shiftLeft_eq]
      calc b.toNat * 2 ^ places < 2 ^ 8 * 2 ^ places := Nat.mul_lt_mul_of_pos_right small (Nat.two_pow_pos _)
        _ ≤ 2 ^ 8 * 2 ^ 24 := Nat.mul_le_mul_left _ (Nat.pow_le_pow_right (by decide) few)
        _ = 2 ^ 32 := by decide
    have narrow : b.toNat < 2 ^ 32 := Nat.lt_trans small (by decide)
    rw [BitVec.toNat_shiftLeft, BitVec.toNat_setWidth, Nat.mod_eq_of_lt narrow, Nat.mod_eq_of_lt wide]
  have last : (b₃.setWidth 32).toNat = b₃.toNat := by
    rw [BitVec.toNat_setWidth, Nat.mod_eq_of_lt (Nat.lt_trans b₃.isLt (by decide))]
  apply BitVec.eq_of_toNat_eq
  rw [BitVec.toNat_or, BitVec.toNat_or, BitVec.toNat_or, shifted b₀ (by decide), shifted b₁ (by decide),
    shifted b₂ (by decide), last, BitVec.toNat_append, BitVec.toNat_append, BitVec.toNat_append]
  simp only [Nat.shiftLeft_or_distrib, ← Nat.shiftLeft_add]

theorem toBitVec_blockWord (block : Bytes) (i : Nat) :
    (blockWord block i).toBitVec = SecureHash.word block i := by
  unfold blockWord SecureHash.word
  rw [Nat.mul_comm i 4, ← append_bytes]
  rfl
structure Scheduled (block : Bytes) (count : Nat) (w : List UInt32) : Prop where
  length : w.length = count
  word : ∀ i < count, (w.getD i 0).toBitVec = SecureHash.schedule block (count - 1 - i)

theorem schedule_input {block : Bytes} {t : Nat} (input : t < 16) :
    SecureHash.schedule block t = SecureHash.word block t := by
  rw [SecureHash.schedule, if_pos input]

theorem schedule_later {block : Bytes} (t : Nat) :
    SecureHash.schedule block (16 + t) =
      SecureHash.smallSigma1 (SecureHash.schedule block (14 + t)) +
        SecureHash.schedule block (9 + t) +
        SecureHash.smallSigma0 (SecureHash.schedule block (1 + t)) +
        SecureHash.schedule block t := by
  have two : 16 + t - 2 = 14 + t := by omega
  have seven : 16 + t - 7 = 9 + t := by omega
  have fifteen : 16 + t - 15 = 1 + t := by omega
  have sixteen : 16 + t - 16 = t := by omega
  rw [SecureHash.schedule, if_neg (by omega), two, seven, fifteen, sixteen]

theorem scheduled_input (block : Bytes) :
    Scheduled block 16 ((List.range 16).map (blockWord block)).reverse := by
  refine ⟨by simp, ?_⟩
  intro i below
  rw [List.getD_eq_getElem _ _ (by simpa using below), List.getElem_reverse]
  simp only [List.length_map, List.length_range, List.getElem_map, List.getElem_range]
  rw [toBitVec_blockWord, schedule_input (by omega)]

theorem toBitVec_smallSigma0 (x : UInt32) :
    (rotr x 7 ^^^ rotr x 18 ^^^ (x >>> 3)).toBitVec = SecureHash.smallSigma0 x.toBitVec := by
  rw [UInt32.toBitVec_xor, UInt32.toBitVec_xor, toBitVec_rotr x (by decide) (by decide),
    toBitVec_rotr x (by decide) (by decide)]
  rfl

theorem toBitVec_smallSigma1 (x : UInt32) :
    (rotr x 17 ^^^ rotr x 19 ^^^ (x >>> 10)).toBitVec = SecureHash.smallSigma1 x.toBitVec := by
  rw [UInt32.toBitVec_xor, UInt32.toBitVec_xor, toBitVec_rotr x (by decide) (by decide),
    toBitVec_rotr x (by decide) (by decide)]
  rfl

theorem Scheduled.step {block : Bytes} {count : Nat} {w : List UInt32}
    (scheduled : Scheduled block (16 + count) w) :
    Scheduled block (16 + (count + 1)) (scheduleStep w) := by
  refine ⟨congrArg (· + 1) scheduled.length, ?_⟩
  intro i below
  cases i with
  | zero =>
      have newest : 16 + (count + 1) - 1 - 0 = 16 + count := by omega
      have at15 := scheduled.word 14 (by omega)
      have at2 := scheduled.word 1 (by omega)
      have at16 := scheduled.word 15 (by omega)
      have at7 := scheduled.word 6 (by omega)
      rw [show 16 + count - 1 - 14 = 1 + count by omega] at at15
      rw [show 16 + count - 1 - 1 = 14 + count by omega] at at2
      rw [show 16 + count - 1 - 15 = count by omega] at at16
      rw [show 16 + count - 1 - 6 = 9 + count by omega] at at7
      rw [newest, schedule_later, ← at2, ← at7, ← at15, ← at16, ← toBitVec_smallSigma0,
        ← toBitVec_smallSigma1]
      unfold scheduleStep
      dsimp only
      rw [List.getD_cons_zero, UInt32.toBitVec_add, UInt32.toBitVec_add, UInt32.toBitVec_add]
      ac_rfl
  | succ i =>
      have before := scheduled.word i (by omega)
      rw [show 16 + (count + 1) - 1 - (i + 1) = 16 + count - 1 - i by omega]
      exact before

theorem scheduled_repeat (block : Bytes) (count : Nat) : Scheduled block (16 + count)
    (Nat.repeat scheduleStep count ((List.range 16).map (blockWord block)).reverse) := by
  induction count with
  | zero => exact scheduled_input block
  | succ count ih => exact ih.step

theorem length_schedule (block : Bytes) : (schedule block).length = 64 := by
  rw [schedule, List.length_reverse, (scheduled_repeat block 48).length]

theorem toBitVec_schedule {block : Bytes} {t : Nat} (below : t < 64) :
    ((schedule block).getD t 0).toBitVec = SecureHash.schedule block t := by
  have whole := scheduled_repeat block 48
  have length := whole.length
  have word := whole.word (63 - t) (by omega)
  rw [show 16 + 48 - 1 - (63 - t) = t by omega] at word
  rw [schedule, List.getD_reverse t (by omega), length, show 16 + 48 - 1 - t = 63 - t by omega, word]

def Sha256State.variables (s : Sha256State) : SecureHash.Variables :=
  ⟨s.a.toBitVec, s.b.toBitVec, s.c.toBitVec, s.d.toBitVec, s.e.toBitVec, s.f.toBitVec, s.g.toBitVec,
    s.h.toBitVec⟩

theorem sha256K_roots : sha256K.map UInt32.toBitVec = SecureHash.roundConstants := by
  decide +kernel

theorem sha256Init_roots : sha256Init.variables = SecureHash.initial := by
  decide +kernel

theorem toBitVec_bigSigma0 (x : UInt32) :
    (rotr x 2 ^^^ rotr x 13 ^^^ rotr x 22).toBitVec = SecureHash.bigSigma0 x.toBitVec := by
  rw [UInt32.toBitVec_xor, UInt32.toBitVec_xor, toBitVec_rotr x (by decide) (by decide),
    toBitVec_rotr x (by decide) (by decide), toBitVec_rotr x (by decide) (by decide)]
  rfl

theorem toBitVec_bigSigma1 (x : UInt32) :
    (rotr x 6 ^^^ rotr x 11 ^^^ rotr x 25).toBitVec = SecureHash.bigSigma1 x.toBitVec := by
  rw [UInt32.toBitVec_xor, UInt32.toBitVec_xor, toBitVec_rotr x (by decide) (by decide),
    toBitVec_rotr x (by decide) (by decide), toBitVec_rotr x (by decide) (by decide)]
  rfl

theorem variables_roundStep (s : Sha256State) (k w : UInt32) :
    (roundStep s (k, w)).variables = SecureHash.round k.toBitVec w.toBitVec s.variables := by
  unfold roundStep SecureHash.round Sha256State.variables
  simp only [UInt32.toBitVec_add, toBitVec_bigSigma0, toBitVec_bigSigma1]
  rfl

theorem variables_rounds (s : Sha256State) (block : Bytes) {t : Nat} (bound : t ≤ 64) :
    (((sha256K.zip (schedule block)).take t).foldl roundStep s).variables =
      SecureHash.rounds block s.variables t := by
  induction t with
  | zero => rfl
  | succ t ih =>
      have below : t < 64 := bound
      have inside : t < sha256K.length := below
      have within : t < (schedule block).length := (length_schedule block).symm ▸ below
      have entry : (sha256K.zip (schedule block))[t]? =
          some (sha256K.getD t 0, (schedule block).getD t 0) := by
        rw [List.getElem?_zip_eq_some, List.getD_eq_getElem _ _ inside, List.getD_eq_getElem _ _ within]
        exact ⟨List.getElem?_eq_getElem inside, List.getElem?_eq_getElem within⟩
      have constant : (sha256K.getD t 0).toBitVec = SecureHash.roundConstants.getD t 0 := by
        rw [← sha256K_roots]
        exact (List.getD_map sha256K 0 UInt32.toBitVec).symm
      rw [List.take_add_one, entry, Option.toList_some, List.foldl_append, List.foldl_cons,
        List.foldl_nil, variables_roundStep, ih (Nat.le_of_succ_le bound), constant,
        toBitVec_schedule below]
      rfl

theorem variables_compress (s : Sha256State) (block : Bytes) :
    (compress s block).variables = SecureHash.compress s.variables block := by
  have whole : (sha256K.zip (schedule block)).take 64 = sha256K.zip (schedule block) := by
    apply List.take_of_length_le
    rw [List.length_zip, length_schedule]
    decide
  have ran := variables_rounds s block (Nat.le_refl 64)
  rw [whole] at ran
  unfold compress SecureHash.compress
  dsimp only
  rw [← ran]
  unfold Sha256State.variables
  simp only [UInt32.toBitVec_add, BitVec.add_comm]

theorem variables_foldl_compress (s : Sha256State) (blocks : List Bytes) :
    (blocks.foldl compress s).variables = blocks.foldl SecureHash.compress s.variables := by
  induction blocks generalizing s with
  | nil => rfl
  | cons block blocks ih => rw [List.foldl_cons, List.foldl_cons, ih, variables_compress]

namespace Sha256

/-- A hasher that has been given some bytes. -/
structure Holds (h : Sha256) (bytes : Bytes) : Prop where
  absorbed : Absorbed 64 compress sha256Init bytes h.state h.buffer
  total : h.totalBytes = UInt64.ofNat bytes.length

theorem absorbed_absorb {fuel : Nat} {data : Bytes} (s : Sha256State)
    (enough : data.length / 64 ≤ fuel) :
    Absorbed 64 compress s data (absorb fuel s data).1 (absorb fuel s data).2 := by
  induction fuel generalizing s data with
  | zero => exact .rest (by omega)
  | succ fuel ih =>
      unfold absorb
      split
      · next whole =>
          have length : (data.take 64).length = 64 := List.length_take_of_le whole
          have rest : (data.drop 64).length / 64 ≤ fuel := by
            rw [List.length_drop]
            omega
          have later := Absorbed.block length (ih (compress s (data.take 64)) rest)
          rwa [List.take_append_drop] at later
      · next short => exact .rest (Nat.not_le.mp short)

theorem holds_reset : Holds reset [] := ⟨.rest (by decide), rfl⟩

theorem Holds.update {h : Sha256} {bytes : Bytes} (holds : Holds h bytes) (data : Bytes) :
    Holds (h.update data) (bytes ++ data) := by
  obtain ⟨absorbed, total⟩ := holds
  have counted : h.totalBytes + UInt64.ofNat data.length = UInt64.ofNat (bytes ++ data).length := by
    rw [total, List.length_append, UInt64.ofNat_add]
  unfold Sha256.update
  split
  · next empty =>
      rw [List.isEmpty_iff.mp empty, List.append_nil]
      exact ⟨absorbed, total⟩
  dsimp only
  split
  · next fresh =>
      have nothing := List.isEmpty_iff.mp fresh
      have next := absorbed_absorb h.state (Nat.le_refl (data.length / 64))
      refine ⟨absorbed.append ?_, counted⟩
      rwa [nothing, List.nil_append]
  · split
    · next full =>
        have next := absorbed_absorb (compress h.state (h.buffer ++ data.take (64 - h.buffer.length)))
          (Nat.le_refl ((data.drop (64 - h.buffer.length)).length / 64))
        refine ⟨absorbed.append ?_, counted⟩
        have block := Absorbed.block full next
        rwa [List.append_assoc, List.take_append_drop] at block
    · next part =>
        have short := absorbed.short
        have all : data.length < 64 - h.buffer.length := by
          rw [List.length_append, List.length_take] at part
          omega
        have taken : data.take (64 - h.buffer.length) = data := List.take_of_length_le (by omega)
        rw [taken]
        refine ⟨absorbed.append (.rest ?_), counted⟩
        rw [List.length_append]
        omega

theorem holds_updates (chunks : List Bytes) :
    Holds (chunks.foldl update reset) chunks.flatten := by
  have run {h : Sha256} {bytes : Bytes} (holds : Holds h bytes) :
      Holds (chunks.foldl update h) (bytes ++ chunks.flatten) := by
    induction chunks generalizing h bytes with
    | nil => rwa [List.flatten_nil, List.append_nil]
    | cons chunk chunks ih =>
        rw [List.foldl_cons, List.flatten_cons, ← List.append_assoc]
        exact ih (holds.update chunk)
  exact run holds_reset

theorem padZeros_of_full {h : Sha256} (full : h.buffer.length = 56) (fuel : Nat) :
    padZeros fuel h = h := by
  cases fuel with
  | zero => rfl
  | succ fuel => exact if_neg (not_not.mpr full)

theorem Holds.padZeros {count : Nat} {h : Sha256} {bytes : Bytes} (holds : Holds h bytes)
    (unaligned : ∀ k < count, (bytes.length + k) % 64 ≠ 56)
    (aligned : (bytes.length + count) % 64 = 56) {fuel : Nat} (enough : count ≤ fuel) :
    Holds (padZeros fuel h) (bytes ++ List.replicate count 0) ∧
      padZeros fuel h = padZeros count h ∧ (padZeros count h).buffer.length = 56 := by
  induction count generalizing h bytes fuel with
  | zero =>
      have full : h.buffer.length = 56 := holds.absorbed.length.trans aligned
      rw [padZeros_of_full full, padZeros_of_full full, List.replicate_zero, List.append_nil]
      exact ⟨holds, rfl, full⟩
  | succ count ih =>
      obtain ⟨fuel, rfl⟩ : ∃ spare, fuel = spare + 1 := ⟨fuel - 1, by omega⟩
      have open_ : h.buffer.length ≠ 56 := by
        rw [holds.absorbed.length]
        exact unaligned 0 (Nat.succ_pos _)
      have next := holds.update [0]
      have length : (bytes ++ [0]).length = bytes.length + 1 := List.length_append
      rw [Sha256.padZeros, if_pos open_, Sha256.padZeros, if_pos open_, List.replicate_succ,
        List.append_cons]
      apply ih next
      · intro k below
        have later := unaligned (k + 1) (Nat.succ_lt_succ below)
        rwa [length, Nat.add_assoc, Nat.add_comm 1 k]
      · rw [length, Nat.add_assoc, Nat.add_comm 1 count]
        exact aligned
      · exact Nat.le_of_succ_le_succ enough

theorem reverse_encode (n : Nat) : (LittleEndian.encode 8 n).reverse = SecureHash.lengthBytes n := by
  simp [LittleEndian.encode, SecureHash.lengthBytes, List.range, List.range.loop,
    Nat.shiftRight_eq_div_pow, Nat.div_div_eq_div_mul]

theorem wordBytes_eq (w : UInt32) : wordBytes w = SecureHash.wordBytes w.toBitVec := by
  have byte {places : UInt32} {start : Nat} (same : places.toNat = start) (below : start < 32) :
      (w >>> places).toUInt8 = UInt8.ofBitVec (w.toBitVec.extractLsb' start 8) := by
    apply UInt8.toNat_inj.mp
    rw [UInt32.toNat_toUInt8, UInt32.toNat_shiftRight, same, Nat.mod_eq_of_lt below, UInt8.toNat_ofBitVec,
      BitVec.extractLsb'_toNat]
    rfl
  have last : w.toUInt8 = UInt8.ofBitVec (w.toBitVec.extractLsb' 0 8) := by
    apply UInt8.toNat_inj.mp
    rw [UInt32.toNat_toUInt8, UInt8.toNat_ofBitVec, BitVec.extractLsb'_toNat]
    rfl
  have first := byte (show (24 : UInt32).toNat = 24 from rfl) (by decide)
  have second := byte (show (16 : UInt32).toNat = 16 from rfl) (by decide)
  have third := byte (show (8 : UInt32).toNat = 8 from rfl) (by decide)
  rw [wordBytes, first, second, third, last]
  rfl

theorem digest_eq (s : Sha256State) :
    wordBytes s.a ++ wordBytes s.b ++ wordBytes s.c ++ wordBytes s.d ++ wordBytes s.e ++
        wordBytes s.f ++ wordBytes s.g ++ wordBytes s.h = SecureHash.digest s.variables := by
  unfold SecureHash.digest Sha256State.variables
  simp only [wordBytes_eq, List.flatMap_cons, List.flatMap_nil, List.append_assoc, List.append_nil]

theorem padding_ends {h : Sha256} {bytes : Bytes} (holds : Holds h bytes) {fuel : Nat}
    (enough : SecureHash.zeros bytes.length ≤ fuel) :
    Holds (padZeros fuel (h.update [0x80]))
        (bytes ++ 0x80 :: List.replicate (SecureHash.zeros bytes.length) 0) ∧
      padZeros fuel (h.update [0x80]) =
        padZeros (SecureHash.zeros bytes.length) (h.update [0x80]) ∧
      (padZeros (SecureHash.zeros bytes.length) (h.update [0x80])).buffer.length = 56 := by
  have started := holds.update [0x80]
  have length : (bytes ++ [0x80]).length = bytes.length + 1 := List.length_append
  rw [List.append_cons]
  apply started.padZeros ?_ ?_ enough
  · intro k below aligned
    rw [length] at aligned
    exact absurd (SecureHash.zeros_least aligned) (Nat.not_le.mpr below)
  · rw [length]
    exact SecureHash.zeros_aligned _

theorem bytes_finish {h : Sha256} {bytes : Bytes} (holds : Holds h bytes)
    (small : bytes.length < 2 ^ 61) : h.finish.bytes = SecureHash.sha256 bytes := by
  have few : SecureHash.zeros bytes.length ≤ 64 := Nat.le_of_lt (Nat.mod_lt _ (by decide))
  obtain ⟨padded, same, full⟩ := padding_ends holds few
  rw [← same] at full
  have fits : bytes.length < 2 ^ 64 := by omega
  have scaled : 8 * bytes.length < 2 ^ 64 := by omega
  have bits : (h.totalBytes * 8).toNat = 8 * bytes.length := by
    rw [holds.total, UInt64.toNat_mul, UInt64.toNat_ofNat', Nat.mod_eq_of_lt fits, Nat.mul_comm]
    exact Nat.mod_eq_of_lt scaled
  have block : ((padZeros 64 (h.update [0x80])).buffer ++
      SecureHash.lengthBytes (8 * bytes.length)).length = 64 := by
    rw [List.length_append, full]
    rfl
  have last : Absorbed 64 compress (padZeros 64 (h.update [0x80])).state
      ((padZeros 64 (h.update [0x80])).buffer ++ SecureHash.lengthBytes (8 * bytes.length) ++ [])
      (compress (padZeros 64 (h.update [0x80])).state
        ((padZeros 64 (h.update [0x80])).buffer ++ SecureHash.lengthBytes (8 * bytes.length))) [] :=
    .block block (.rest (by decide))
  rw [List.append_nil] at last
  have whole := congrArg Sha256State.variables (padded.absorbed.append last).foldl_blocks
  rw [variables_foldl_compress, sha256Init_roots] at whole
  unfold finish
  dsimp only
  rw [List.take_of_length_le (Nat.le_of_eq full), bits, reverse_encode, digest_eq, whole]
  rfl

/-- Whatever the chunks are, the hasher gives the digest of the standard, and its padding ends. -/
theorem streaming_eq_standard (chunks : List Bytes) (small : chunks.flatten.length < 2 ^ 61) :
    (chunks.foldl update reset).finish.bytes = SecureHash.sha256 chunks.flatten ∧
      ∃ turns < 64, ∀ fuel ≥ turns,
        padZeros fuel ((chunks.foldl update reset).update [0x80]) =
          padZeros turns ((chunks.foldl update reset).update [0x80]) ∧
        (padZeros turns ((chunks.foldl update reset).update [0x80])).buffer.length = 56 := by
  have holds := holds_updates chunks
  refine ⟨bytes_finish holds small, SecureHash.zeros chunks.flatten.length,
    Nat.mod_lt _ (by decide), ?_⟩
  intro fuel enough
  exact (padding_ends holds enough).2

theorem streaming_eq_standard_abc :
    ([text "a", [], text "bc"].foldl update reset).finish.bytes =
      SecureHash.sha256 (text "abc") :=
  (streaming_eq_standard [text "a", [], text "bc"] (by decide)).1

end Sha256

end QoSFabric
