import QoSFabric.Model.Frame

namespace QoSFabric

namespace Frame

/-- The bytes of a record that fits its writer. -/
def payload (f : Frame) : Bytes :=
  LittleEndian.encode 2 frameVersion.toNat ++ (LittleEndian.encode 2 f.type.value.toNat ++
    (f.flags :: (LittleEndian.encode 8 f.sequence.toNat ++ (LittleEndian.encode 8 f.attempt.toNat ++
      (LittleEndian.encode 4 f.body.length ++ f.body)))))

@[simp] theorem length_payload (f : Frame) :
    f.payload.length = recordHeaderBytes + f.body.length := by
  simp [payload, recordHeaderBytes]
  omega

theorem data_write {limit : Nat} (f : Frame) :
    (f.write : ByteWriter limit).data =
      if recordHeaderBytes + f.body.length ≤ limit then some f.payload else none := by
  rw [← length_payload, ← ByteWriter.data_raw_empty]
  simp [write, payload, ByteWriter.u8, ByteWriter.u16, ByteWriter.u32_ofNat, ByteWriter.u64]

end Frame

def encodeFrame (f : Frame) : Bytes := frameHeader f.payload ++ f.payload

@[simp] theorem length_frameHeader (record : Bytes) :
    (frameHeader record).length = frameHeaderBytes := by
  simp [frameHeader]

@[simp] theorem length_encodeFrame (f : Frame) :
    (encodeFrame f).length = frameHeaderBytes + (recordHeaderBytes + f.body.length) := by
  simp [encodeFrame]

def Frame.Fits (maxRecordBytes : Nat) (f : Frame) : Prop :=
  recordHeaderBytes + f.body.length ≤ maxRecordBytes ∧ f.body.length ≤ Limits.maxWalRecordBytes

instance (maxRecordBytes : Nat) (f : Frame) : Decidable (f.Fits maxRecordBytes) := by
  unfold Frame.Fits
  infer_instance

theorem parseRecord_payload {f : Frame} (small : f.body.length ≤ Limits.maxWalRecordBytes) :
    parseRecord f.payload = some f := by
  have bound : f.body.length < 2 ^ 32 := Nat.lt_of_le_of_lt small (by decide)
  have bodyLength : (UInt32.ofNat f.body.length).toNat = f.body.length := by
    rw [UInt32.toNat_ofNat', Nat.mod_eq_of_lt bound]
  have noMore : ¬f.body.length > f.payload.length - recordHeaderBytes := by
    rw [Frame.length_payload]
    omega
  have body : f.payload.drop recordHeaderBytes = f.body := by
    simp [Frame.payload, List.drop_append, recordHeaderBytes, List.drop_eq_nil_of_le]
  unfold parseRecord
  rw [body]
  simp only [Frame.payload, ByteReader.ofBytes, Read.u16_encode, Read.u8_cons, Read.u64_encode,
    Read.u32_length bound, ByteReader.failed, RecordType.ofValue_value]
  rw [← Frame.payload, bodyLength, if_neg noMore, List.take_length]
  rfl

theorem decode_header_length {record : Bytes} (small : record.length < 2 ^ 32) (rest : Bytes) :
    LittleEndian.decode ((frameHeader record ++ rest).take 4) = record.length := by
  rw [frameHeader, List.append_assoc, List.take_left' (LittleEndian.length_encode 4 _)]
  exact LittleEndian.decode_encode_of_lt small

theorem decode_header_crc (record rest : Bytes) :
    LittleEndian.decode (((frameHeader record ++ rest).drop 4).take 4) = (crc32c record).toNat := by
  rw [frameHeader, List.append_assoc, List.drop_left' (LittleEndian.length_encode 4 _),
    List.take_left' (LittleEndian.length_encode 4 _)]
  exact LittleEndian.decode_encode_of_lt (crc32c record).toNat_lt

theorem Frame.Fits.payload_lt {maxRecordBytes : Nat} {f : Frame} (fit : f.Fits maxRecordBytes) :
    f.payload.length < 2 ^ 32 := by
  have := fit.2
  rw [Frame.length_payload]
  exact Nat.lt_of_le_of_lt (Nat.add_le_add_left this _) (by decide)

theorem parseFrame_encode {maxRecordBytes : Nat} (f : Frame) (rest : Bytes)
    (fit : f.Fits maxRecordBytes) :
    parseFrame maxRecordBytes (encodeFrame f ++ rest) = .whole f (encodeFrame f).length := by
  have size : (encodeFrame f ++ rest).length = frameHeaderBytes + f.payload.length + rest.length := by
    simp [encodeFrame, Nat.add_assoc]
  have header : ¬frameHeaderBytes > (encodeFrame f ++ rest).length := by omega
  have budget : ¬f.payload.length > maxRecordBytes := by
    rw [Frame.length_payload]
    exact Nat.not_lt.mpr fit.1
  have complete : ¬frameHeaderBytes + f.payload.length > (encodeFrame f ++ rest).length := by omega
  have record : ¬f.payload.length < recordHeaderBytes := by
    rw [Frame.length_payload]
    omega
  have payload : ((encodeFrame f ++ rest).drop frameHeaderBytes).take f.payload.length =
      f.payload := by
    rw [encodeFrame, List.append_assoc, List.drop_left' (length_frameHeader _), List.take_left]
  have length : LittleEndian.decode ((encodeFrame f ++ rest).take 4) = f.payload.length := by
    rw [encodeFrame, List.append_assoc]
    exact decode_header_length fit.payload_lt _
  have crc : LittleEndian.decode (((encodeFrame f ++ rest).drop 4).take 4) =
      (crc32c f.payload).toNat := by
    rw [encodeFrame, List.append_assoc]
    exact decode_header_crc _ _
  rw [parseFrame, if_neg header]
  simp only [length, crc, payload, if_neg budget, if_neg complete, if_neg record, ne_eq,
    not_true_eq_false, if_false, parseRecord_payload fit.2]
  simp [encodeFrame]

theorem parseFrame_torn {maxRecordBytes : Nat} (f : Frame) (torn : Bytes)
    (fit : f.Fits maxRecordBytes) (pre : torn <+: encodeFrame f) (cut : torn ≠ encodeFrame f) :
    parseFrame maxRecordBytes torn = .incomplete := by
  have short : torn.length < frameHeaderBytes + f.payload.length := by
    have le := pre.length_le
    have ne : torn.length ≠ (encodeFrame f).length := fun eq => cut (pre.eq_of_length eq)
    have size : (encodeFrame f).length = frameHeaderBytes + f.payload.length := by
      simp [encodeFrame]
    omega
  unfold parseFrame
  split
  · rfl
  · next header =>
      have budget : ¬f.payload.length > maxRecordBytes := by
        rw [Frame.length_payload]
        exact Nat.not_lt.mpr fit.1
      have length : LittleEndian.decode (torn.take 4) = f.payload.length := by
        obtain ⟨rest, eq⟩ := pre
        have same : torn.take 4 = (encodeFrame f).take 4 := by
          rw [← eq, List.take_append_of_le_length (by simp only [frameHeaderBytes] at header; omega)]
        rw [same]
        exact decode_header_length fit.payload_lt _
      simp only [length, if_neg budget]
      rw [if_pos (by omega)]

def walFormat (maxRecordBytes : Nat) : Framing.Format Frame where
  header := frameHeaderBytes
  encode := encodeFrame
  parse := parseFrame maxRecordBytes
  Fits := Frame.Fits maxRecordBytes
  header_le := by simp
  header_pos := by decide
  parse_encode := parseFrame_encode
  parse_torn := parseFrame_torn

def intentBody (type : RecordType) (attempt : AttemptId) (payload : Bytes) : Bytes :=
  LittleEndian.encode 2 type.value.toNat ++ (LittleEndian.encode 8 attempt.toNat ++
    (LittleEndian.encode 4 payload.length ++ payload))

def commitBody (attempt : AttemptId) (appliedDigest : Digest256) : Bytes :=
  LittleEndian.encode 8 attempt.toNat ++ appliedDigest.bytes

def abortBody (attempt : AttemptId) (reason : Text) : Bytes :=
  LittleEndian.encode 8 attempt.toNat ++
    (LittleEndian.encode 4 (reason.take Limits.maxReasonLen).length ++
      reason.take Limits.maxReasonLen)

@[simp] theorem length_intentBody (type : RecordType) (attempt : AttemptId) (payload : Bytes) :
    (intentBody type attempt payload).length = 14 + payload.length := by
  simp [intentBody]
  omega

theorem data_writeIntent {limit : Nat} (type : RecordType) (attempt : AttemptId) (payload : Bytes) :
    (writeIntent type attempt payload : ByteWriter limit).data =
      if 14 + payload.length ≤ limit then some (intentBody type attempt payload) else none := by
  rw [← length_intentBody type attempt payload, ← ByteWriter.data_raw_empty]
  simp [writeIntent, intentBody, ByteWriter.u16, ByteWriter.u32_ofNat, ByteWriter.u64]

theorem data_writeCommit (attempt : AttemptId) (appliedDigest : Digest256) :
    (writeCommit attempt appliedDigest).data = some (commitBody attempt appliedDigest) := by
  have fit : (commitBody attempt appliedDigest).length ≤ 256 := by
    simp [commitBody, appliedDigest.size]
  rw [← if_pos fit (t := some (commitBody attempt appliedDigest)) (e := none),
    ← ByteWriter.data_raw_empty]
  simp [writeCommit, commitBody, ByteWriter.u64]

theorem data_writeAbort (attempt : AttemptId) (reason : Text) :
    (writeAbort attempt reason).data = some (abortBody attempt reason) := by
  have clipped : (reason.take Limits.maxReasonLen).length ≤ Limits.maxReasonLen :=
    List.length_take_le _ _
  have fit : (abortBody attempt reason).length ≤ 512 := by
    simp only [Limits.maxReasonLen] at clipped
    simp only [abortBody, List.length_append, LittleEndian.length_encode, Limits.maxReasonLen]
    omega
  rw [← if_pos fit (t := some (abortBody attempt reason)) (e := none),
    ← ByteWriter.data_raw_empty, writeAbort, ByteWriter.str, if_neg (by omega)]
  simp [abortBody, ByteWriter.u32_ofNat, ByteWriter.u64]

@[simp] theorem readIntent_intentBody {payload : Bytes} (type : RecordType) (attempt : AttemptId)
    (small : payload.length < 2 ^ 32) :
    readIntent (intentBody type attempt payload) = some (type, attempt, payload) := by
  have length : (UInt32.ofNat payload.length).toNat = payload.length := by
    rw [UInt32.toNat_ofNat', Nat.mod_eq_of_lt small]
  simp only [readIntent, intentBody, ByteReader.ofBytes, Read.u16_encode, Read.u64_encode,
    Read.u32_length small, RecordType.ofValue_value, length]
  simp

@[simp] theorem readAttempt_encode (attempt : AttemptId) (rest : Bytes) :
    readAttempt (LittleEndian.encode 8 attempt.toNat ++ rest) = some attempt := by
  simp [readAttempt, ByteReader.ofBytes, ByteReader.failed]

end QoSFabric
