import QoSFabric.Model.Artifact
import QoSFabric.Proof.Store.Frame

namespace QoSFabric

def snapshotFile (sequence : UInt64) (payload : Bytes) : Bytes :=
  snapshotMagic ++ (LittleEndian.encode 2 frameVersion.toNat ++ (LittleEndian.encode 2 0 ++
    (LittleEndian.encode 8 sequence.toNat ++ (LittleEndian.encode 4 payload.length ++
      (payload ++ LittleEndian.encode 4 (crc32c payload).toNat)))))

@[simp] theorem length_snapshotFile (sequence : UInt64) (payload : Bytes) :
    (snapshotFile sequence payload).length = 28 + payload.length := by
  have magic : snapshotMagic.length = 8 := by decide
  simp [snapshotFile, magic]
  omega

theorem encodeSnapshot_eq {payload : Bytes} (sequence : UInt64)
    (small : payload.length ≤ Limits.maxSnapshotBytes) :
    encodeSnapshot sequence payload = snapshotFile sequence payload := by
  have fit : (snapshotFile sequence payload).length ≤ snapshotLimit := by
    simp only [length_snapshotFile, snapshotLimit]
    omega
  have data : (writeSnapshotFile sequence payload).data = some (snapshotFile sequence payload) := by
    rw [← if_pos fit (t := some (snapshotFile sequence payload)) (e := none),
      ← ByteWriter.data_raw_empty]
    simp only [writeSnapshotFile, ByteWriter.u32_ofNat]
    simp [snapshotFile, ByteWriter.u16, ByteWriter.u32, ByteWriter.u64]
  rw [encodeSnapshot, data, Option.getD_some]

theorem decodeSnapshot_snapshotFile {payload : Bytes} (sequence : UInt64)
    (small : payload.length ≤ Limits.maxSnapshotBytes) :
    decodeSnapshot (snapshotFile sequence payload) = .ok (sequence, payload) := by
  have bound : payload.length < 2 ^ 32 := Nat.lt_of_le_of_lt small (by decide)
  have length : (UInt32.ofNat payload.length).toNat = payload.length := by
    rw [UInt32.toNat_ofNat', Nat.mod_eq_of_lt bound]
  have size : ¬(snapshotFile sequence payload).length < 8 + 2 + 2 + 8 + 4 + 4 := by
    rw [length_snapshotFile]
    omega
  have crc : Read.u32 ⟨some (LittleEndian.encode 4 (crc32c payload).toNat)⟩ =
      (crc32c payload, ⟨some []⟩) := by
    simpa using Read.u32_encode (crc32c payload) []
  have reserved (rest : Bytes) : Read.u16 ⟨some (LittleEndian.encode 2 0 ++ rest)⟩ =
      (0, ⟨some rest⟩) := Read.u16_encode 0 rest
  rw [decodeSnapshot, if_neg size]
  simp only [snapshotFile, ByteReader.ofBytes, Read.raw_append rfl, Read.u16_encode, reserved,
    Read.u64_encode, Read.u32_length bound, length, crc]
  simp [ByteReader.failed, ByteReader.atEnd, Nat.not_lt.mpr small]

namespace Manifest

/-- The bytes the checksum covers. -/
def payload (m : Manifest) : Bytes :=
  manifestMagic ++ (LittleEndian.encode 2 storeFormatVersion.toNat ++ (LittleEndian.encode 2 0 ++
    (m.storeId.bytes ++ (LittleEndian.encode 8 m.durableEpoch.toNat ++
      (LittleEndian.encode 8 m.snapshotSequence.toNat ++
        (LittleEndian.encode 8 m.lastSequence.toNat ++
          (LittleEndian.encode 4 m.snapshotName.length ++ m.snapshotName)))))))

def file (m : Manifest) : Bytes :=
  m.payload ++ LittleEndian.encode 4 (crc32c m.payload).toNat

/-- What `load_manifest` asks of a snapshot name; without a name there is no snapshot. -/
structure Sound (m : Manifest) : Prop where
  short : m.snapshotName.length ≤ 64
  slash : 47 ∉ m.snapshotName
  backslash : 92 ∉ m.snapshotName
  parent : ¬[46, 46] <:+: m.snapshotName
  unnamed : m.snapshotName = [] → m.snapshotSequence = 0

@[simp] theorem length_payload (m : Manifest) : m.payload.length = 72 + m.snapshotName.length := by
  have magic : manifestMagic.length = 8 := by decide
  simp [payload, magic, m.storeId.size]
  omega

@[simp] theorem length_file (m : Manifest) : m.file.length = 76 + m.snapshotName.length := by
  simp [file]
  omega

end Manifest

theorem encodeManifest_eq {m : Manifest} (sound : m.Sound) : encodeManifest m = some m.file := by
  have fit : m.payload.length ≤ 65536 := by
    have := sound.short
    rw [Manifest.length_payload]
    omega
  have data : m.write.data = some m.payload := by
    rw [← if_pos fit (t := some m.payload) (e := none), ← ByteWriter.data_raw_empty]
    simp [Manifest.write, Manifest.payload, ByteWriter.u16, ByteWriter.u32_ofNat, ByteWriter.u64]
  rw [encodeManifest, data, Option.map_some, Manifest.file]

theorem loadLe_append {before : Bytes} {offset width n : Nat} (length : before.length = offset)
    (bound : n < 256 ^ width) (rest : Bytes) :
    loadLe (before ++ (LittleEndian.encode width n ++ rest)) offset width = n := by
  rw [loadLe, List.drop_left' length, List.take_left' (LittleEndian.length_encode width n),
    LittleEndian.decode_encode_of_lt bound]

theorem decodeManifest_file {m : Manifest} (sound : m.Sound) :
    decodeManifest storeFormatVersion m.file = .ok m := by
  have magic : manifestMagic.length = 8 := by decide
  have id := m.storeId.size
  have version : loadLe m.file 8 2 = storeFormatVersion.toNat := by
    rw [Manifest.file, Manifest.payload, List.append_assoc, List.append_assoc]
    exact loadLe_append magic (by decide) _
  have storeId : Digest256.ofBuffer (m.file.drop 12) = m.storeId := by
    have split : m.file.drop 12 = m.storeId.bytes ++ (m.file.drop 44) := by
      simp [Manifest.file, Manifest.payload, List.drop_append, magic, id, List.drop_eq_nil_of_le]
    simp [Digest256.ofBuffer, split, List.take_left' id, id]
  have epoch : loadLe m.file 44 8 = m.durableEpoch.toNat := by
    have split : m.file.drop 44 = LittleEndian.encode 8 m.durableEpoch.toNat ++ m.file.drop 52 := by
      simp [Manifest.file, Manifest.payload, List.drop_append, magic, id, List.drop_eq_nil_of_le]
    rw [loadLe, split, List.take_left' (LittleEndian.length_encode 8 _),
      LittleEndian.decode_encode_of_lt m.durableEpoch.toNat_lt]
  have snapshot : loadLe m.file 52 8 = m.snapshotSequence.toNat := by
    have split : m.file.drop 52 =
        LittleEndian.encode 8 m.snapshotSequence.toNat ++ m.file.drop 60 := by
      simp [Manifest.file, Manifest.payload, List.drop_append, magic, id, List.drop_eq_nil_of_le]
    rw [loadLe, split, List.take_left' (LittleEndian.length_encode 8 _),
      LittleEndian.decode_encode_of_lt m.snapshotSequence.toNat_lt]
  have last : loadLe m.file 60 8 = m.lastSequence.toNat := by
    have split : m.file.drop 60 = LittleEndian.encode 8 m.lastSequence.toNat ++ m.file.drop 68 := by
      simp [Manifest.file, Manifest.payload, List.drop_append, magic, id, List.drop_eq_nil_of_le]
    rw [loadLe, split, List.take_left' (LittleEndian.length_encode 8 _),
      LittleEndian.decode_encode_of_lt m.lastSequence.toNat_lt]
  have nameLength : loadLe m.file 68 4 = m.snapshotName.length := by
    have split : m.file.drop 68 =
        LittleEndian.encode 4 m.snapshotName.length ++ m.file.drop 72 := by
      simp [Manifest.file, Manifest.payload, List.drop_append, magic, id, List.drop_eq_nil_of_le]
    have bound : m.snapshotName.length < 256 ^ 4 := Nat.lt_of_le_of_lt sound.short (by decide)
    rw [loadLe, split, List.take_left' (LittleEndian.length_encode 4 _),
      LittleEndian.decode_encode_of_lt bound]
  have name : (m.file.drop 72).take m.snapshotName.length = m.snapshotName := by
    have split : m.file.drop 72 =
        m.snapshotName ++ LittleEndian.encode 4 (crc32c m.payload).toNat := by
      simp [Manifest.file, Manifest.payload, List.drop_append, magic, id, List.drop_eq_nil_of_le]
    rw [split, List.take_left]
  have covered : m.file.take (m.file.length - 4) = m.payload := by
    rw [Manifest.length_file, Manifest.file, List.take_left' (by rw [Manifest.length_payload]; omega)]
  have crc : loadLe m.file (m.file.length - 4) 4 = (crc32c m.payload).toNat := by
    rw [Manifest.length_file, Manifest.file, loadLe,
      List.drop_left' (by rw [Manifest.length_payload]; omega),
      List.take_of_length_le (by rw [LittleEndian.length_encode]),
      LittleEndian.decode_encode_of_lt (crc32c m.payload).toNat_lt]
  have start : m.file.take 8 = manifestMagic := by
    rw [Manifest.file, Manifest.payload, List.append_assoc, List.take_left' magic]
  have short := sound.short
  have size := m.length_file
  have sequence : (if m.snapshotName = [] then 0 else m.snapshotSequence) =
      m.snapshotSequence := by
    split
    · next empty => exact (sound.unnamed empty).symm
    · rfl
  rw [decodeManifest, if_neg (by omega), covered, crc, if_neg (by simp), start, if_neg (by simp)]
  simp only [version, nameLength, name, storeId, epoch, snapshot, last]
  rw [if_neg (by decide), if_neg (by omega), if_neg (by omega),
    if_neg (by simp [sound.slash, sound.backslash, sound.parent])]
  simp only [List.isEmpty_iff, sequence, UInt64.ofNat_toNat]

theorem mem_decimal {n : Nat} {c : UInt8} (h : c ∈ decimal n) :
    48 ≤ c.toNat ∧ c.toNat ≤ 57 := by
  obtain ⟨digit, mem, rfl⟩ := List.mem_map.mp h
  have isDigit := Nat.isDigit_of_mem_toDigits (by decide) (by decide) mem
  simp only [Char.isDigit, Bool.and_eq_true, decide_eq_true_eq, ge_iff_le, UInt32.le_iff_toNat_le]
    at isDigit
  have low : 48 ≤ digit.toNat := isDigit.1
  have high : digit.toNat ≤ 57 := isDigit.2
  rw [UInt8.toNat_ofNat', Nat.mod_eq_of_lt (by omega)]
  exact ⟨low, high⟩

theorem parseDecimal_decimal {n : Nat} (small : n < 2 ^ 64) :
    parseDecimal (decimal n) = UInt64.ofNat n := by
  have value (digits : List Char) (isDigit : ∀ c ∈ digits, c.toNat < 256) (start : Nat) :
      (digits.map fun c => UInt8.ofNat c.toNat).foldl (fun n c => n * 10 + (c.toNat - 48)) start =
        Nat.ofDigitChars 10 digits start := by
    induction digits generalizing start with
    | nil => rfl
    | cons c digits ih =>
        have byte : (UInt8.ofNat c.toNat).toNat = c.toNat := by
          rw [UInt8.toNat_ofNat', Nat.mod_eq_of_lt (isDigit c List.mem_cons_self)]
        rw [List.map_cons, List.foldl_cons, Nat.ofDigitChars_cons, byte,
          ih fun d mem => isDigit d (List.mem_cons_of_mem _ mem), Nat.mul_comm]
        rfl
  have digits : ∀ c ∈ Nat.toDigits 10 n, c.toNat < 256 := by
    intro c mem
    have isDigit := Nat.isDigit_of_mem_toDigits (by decide) (by decide) mem
    simp only [Char.isDigit, Bool.and_eq_true, decide_eq_true_eq, ge_iff_le,
      UInt32.le_iff_toNat_le] at isDigit
    have high : c.toNat ≤ 57 := isDigit.2
    omega
  have max : maxUInt64.toNat = 2 ^ 64 - 1 := by decide
  rw [parseDecimal, decimal, value _ digits, Nat.ofDigitChars_ten_toDigits]
  exact if_neg (by omega)

theorem length_decimal_le {n : Nat} (small : n < 2 ^ 64) : (decimal n).length ≤ 20 := by
  rw [decimal, List.length_map, Nat.length_toDigits_le_iff (by decide) (by decide)]
  exact Nat.lt_of_lt_of_le small (by decide)

theorem decimal_ne_nil (n : Nat) : decimal n ≠ [] := by
  simp [decimal, Nat.toDigits_ne_nil]

theorem snapshotPrefix_eq : snapshotPrefix = [83, 78, 65, 80, 83, 72, 79, 84, 45] := by decide

theorem snapshotSuffix_eq : snapshotSuffix = [46, 113, 115, 110] := by decide

theorem snapshotFileName_injective {a b : UInt64} (h : snapshotFileName a = snapshotFileName b) :
    a = b := by
  rw [snapshotFileName, snapshotFileName, List.append_assoc, List.append_assoc,
    List.append_cancel_left_eq, List.append_cancel_right_eq] at h
  have parsed := congrArg parseDecimal h
  rwa [parseDecimal_decimal a.toNat_lt, parseDecimal_decimal b.toNat_lt, UInt64.ofNat_toNat,
    UInt64.ofNat_toNat] at parsed

theorem snapshotNameSequence_snapshotFileName (sequence : UInt64) :
    snapshotNameSequence (snapshotFileName sequence) = some sequence := by
  have positive : 0 < (decimal sequence.toNat).length :=
    List.length_pos_iff.mpr (decimal_ne_nil _)
  have named : isSnapshotName (snapshotFileName sequence) = true := by
    have before : snapshotPrefix <+: snapshotFileName sequence :=
      ⟨decimal sequence.toNat ++ snapshotSuffix, by rw [snapshotFileName, List.append_assoc]⟩
    have after : snapshotSuffix <:+ snapshotFileName sequence := List.suffix_append _ _
    have long : snapshotPrefix.length + snapshotSuffix.length <
        (snapshotFileName sequence).length := by
      rw [snapshotFileName, List.length_append, List.length_append]
      omega
    simp [isSnapshotName, before, after, long]
  have digits : ((snapshotFileName sequence).drop snapshotPrefix.length).take
      ((snapshotFileName sequence).length - snapshotPrefix.length - snapshotSuffix.length) =
        decimal sequence.toNat := by
    rw [snapshotFileName, List.append_assoc, List.drop_left, List.take_left']
    rw [List.length_append, List.length_append]
    omega
  have all : (decimal sequence.toNat).all (fun c => 48 ≤ c && c ≤ 57) = true := by
    rw [List.all_eq_true]
    intro c mem
    have range := mem_decimal mem
    simp only [Bool.and_eq_true, decide_eq_true_eq, UInt8.le_iff_toNat_le]
    exact range
  have some : (decimal sequence.toNat).isEmpty = false := by
    simp [decimal_ne_nil]
  rw [snapshotNameSequence, if_pos named]
  simp only [digits, all, some, Bool.not_false, Bool.and_self, if_true,
    parseDecimal_decimal sequence.toNat_lt, UInt64.ofNat_toNat]

theorem Manifest.sound_snapshotFileName {m : Manifest} {sequence : UInt64}
    (named : m.snapshotName = snapshotFileName sequence) : m.Sound := by
  have digit {c : UInt8} (mem : c ∈ decimal sequence.toNat) : 48 ≤ c.toNat ∧ c.toNat ≤ 57 :=
    mem_decimal mem
  have name : m.snapshotName = [83, 78, 65, 80, 83, 72, 79, 84, 45] ++
      (decimal sequence.toNat ++ [46, 113, 115, 110]) := by
    rw [named, snapshotFileName, snapshotPrefix_eq, snapshotSuffix_eq, List.append_assoc]
  refine ⟨?_, ?_, ?_, ?_, ?_⟩
  · have := length_decimal_le sequence.toNat_lt
    rw [name]
    simp only [List.length_append, List.length_cons, List.length_nil]
    omega
  · intro mem
    rw [name, List.mem_append, List.mem_append] at mem
    rcases mem with mem | mem | mem
    · exact absurd mem (by decide)
    · exact absurd (digit mem).1 (by decide)
    · exact absurd mem (by decide)
  · intro mem
    rw [name, List.mem_append, List.mem_append] at mem
    rcases mem with mem | mem | mem
    · exact absurd mem (by decide)
    · exact absurd (digit mem).2 (by decide)
    · exact absurd mem (by decide)
  · intro parent
    have dots := parent.sublist.count_le 46
    have none : (decimal sequence.toNat).count 46 = 0 :=
      List.count_eq_zero.mpr fun mem => absurd (digit mem).1 (by decide)
    have before : List.count (46 : UInt8) [83, 78, 65, 80, 83, 72, 79, 84, 45] = 0 := by decide
    have after : List.count (46 : UInt8) [46, 113, 115, 110] = 1 := by decide
    have twice : List.count (46 : UInt8) [46, 46] = 2 := by decide
    rw [name, List.count_append, List.count_append, none, before, after, twice] at dots
    omega
  · intro empty
    rw [empty] at name
    exact absurd name (by simp)

theorem Manifest.sound_unnamed {m : Manifest} (name : m.snapshotName = [])
    (sequence : m.snapshotSequence = 0) : m.Sound where
  short := by simp [name]
  slash := by simp [name]
  backslash := by simp [name]
  parent := by simp [name]
  unnamed _ := sequence

theorem getLast?_manifestFileName : manifestFileName.getLast? = some 109 := by decide

theorem getLast?_walFileName : walFileName.getLast? = some 108 := by decide

theorem getLast?_snapshotFileName (sequence : UInt64) :
    (snapshotFileName sequence).getLast? = some 110 := by
  simp [snapshotFileName, snapshotSuffix_eq]

theorem getLast?_tempName (name : FileName) : (tempName name).getLast? = some 112 := by
  have suffix : text ".tmp" = [46, 116, 109, 112] := by decide
  simp [tempName, suffix]

@[simp] theorem wal_ne_manifest : walFileName ≠ manifestFileName := by decide

@[simp] theorem manifest_ne_wal : manifestFileName ≠ walFileName := by decide

@[simp] theorem snapshot_ne_manifest (s : UInt64) : snapshotFileName s ≠ manifestFileName := by
  intro h
  simpa [getLast?_snapshotFileName, getLast?_manifestFileName] using congrArg List.getLast? h

@[simp] theorem snapshot_ne_wal (s : UInt64) : snapshotFileName s ≠ walFileName := by
  intro h
  simpa [getLast?_snapshotFileName, getLast?_walFileName] using congrArg List.getLast? h

@[simp] theorem tempName_ne_manifest (n : FileName) : tempName n ≠ manifestFileName := by
  intro h
  simpa [getLast?_tempName, getLast?_manifestFileName] using congrArg List.getLast? h

@[simp] theorem tempName_ne_wal (n : FileName) : tempName n ≠ walFileName := by
  intro h
  simpa [getLast?_tempName, getLast?_walFileName] using congrArg List.getLast? h

@[simp] theorem tempName_ne_snapshot (n : FileName) (s : UInt64) :
    tempName n ≠ snapshotFileName s := by
  intro h
  simpa [getLast?_tempName, getLast?_snapshotFileName] using congrArg List.getLast? h

theorem not_isTempName {name : FileName} (last : name.getLast? ≠ some 112) :
    isTempName name = false := by
  rw [isTempName, Bool.and_eq_false_iff]
  right
  rw [Bool.eq_false_iff]
  intro suffix
  obtain ⟨before, rfl⟩ := List.isSuffixOf_iff_suffix.mp suffix
  exact last (getLast?_tempName before)

theorem not_isSnapshotName {name : FileName} (last : name.getLast? ≠ some 110) :
    isSnapshotName name = false := by
  rw [isSnapshotName, Bool.and_eq_false_iff]
  right
  rw [Bool.eq_false_iff]
  intro suffix
  obtain ⟨before, rfl⟩ := List.isSuffixOf_iff_suffix.mp suffix
  exact last (by simp [snapshotSuffix_eq])

end QoSFabric
