import QoSFabric.Model.Wire
import QoSFabric.Proof.Codec.Checksum

/-!
# Frames of the publisher protocol and their bytes

The decoder accepts a stream exactly where the bytes of a frame stand at its start, so that framing
is a bijection between the frames within the budget and the buffers that are accepted, and a stream
of frames is taken apart where it was put together. No two frames differ in one byte alone.
-/

namespace QoSFabric

theorem Read.exists_u32 (data : Bytes) (long : 4 ≤ data.length) :
    ∃ (value : UInt32) (rest : Bytes), data = LittleEndian.encode 4 value.toNat ++ rest := by
  obtain ⟨n, bound, rest, rfl⟩ := LittleEndian.exists_encode long
  refine ⟨UInt32.ofNat n, rest, ?_⟩
  rw [UInt32.toNat_ofNat', Nat.mod_eq_of_lt (show n < 2 ^ 32 from bound)]

theorem Read.exists_u16 (data : Bytes) (long : 2 ≤ data.length) :
    ∃ (value : UInt16) (rest : Bytes), data = LittleEndian.encode 2 value.toNat ++ rest := by
  obtain ⟨n, bound, rest, rfl⟩ := LittleEndian.exists_encode long
  refine ⟨UInt16.ofNat n, rest, ?_⟩
  rw [UInt16.toNat_ofNat', Nat.mod_eq_of_lt (show n < 2 ^ 16 from bound)]

theorem MessageType.eq_value {raw : UInt8} {type : MessageType} (known : ofValue raw = some type) :
    raw = type.value := by
  apply UInt8.toNat_inj.mp
  unfold ofValue at known
  split at known <;> cases known <;> assumption

namespace WireFrame

def payload (f : WireFrame) : Bytes :=
  LittleEndian.encode 2 wireProtocolVersion.toNat ++
    (f.type.value :: (LittleEndian.encode 4 f.body.length ++ f.body))

/-- The bytes of a frame that fits its writer. -/
def bytes (f : WireFrame) : Bytes := frameHeader f.payload ++ f.payload

def Fits (f : WireFrame) : Prop := Wire.envelopeBytes + f.body.length ≤ Limits.maxWireFrameBytes

variable {f : WireFrame}

@[simp] theorem length_payload (f : WireFrame) :
    f.payload.length = Wire.envelopeBytes + f.body.length := by
  simp [payload, Wire.envelopeBytes]
  omega

@[simp] theorem length_bytes (f : WireFrame) :
    f.bytes.length = Wire.frameHeaderBytes + f.payload.length := by
  simp [bytes, frameHeaderBytes, Wire.frameHeaderBytes]

theorem Fits.payload_lt (fits : f.Fits) : f.payload.length < 2 ^ 32 := by
  rw [length_payload]
  exact Nat.lt_of_le_of_lt fits (by decide)

theorem Fits.body_lt (fits : f.Fits) : f.body.length < 2 ^ 32 := by
  have := fits.payload_lt
  rw [length_payload] at this
  omega

theorem bytes_ne_nil (f : WireFrame) : f.bytes ≠ [] := by
  apply List.ne_nil_of_length_pos
  rw [length_bytes]
  exact Nat.add_pos_left (by decide) _

end WireFrame

namespace Wire

variable {bytes : Bytes} {f : WireFrame}

theorem data_writeEnvelope {limit : Nat} (type : MessageType) (body : Bytes) :
    (writeEnvelope type body : ByteWriter limit).data =
      if envelopeBytes + body.length ≤ limit then some (WireFrame.payload ⟨type, body⟩) else none := by
  rw [← WireFrame.length_payload ⟨type, body⟩, ← ByteWriter.data_raw_empty]
  simp [writeEnvelope, WireFrame.payload, ByteWriter.u8, ByteWriter.u16, ByteWriter.u32_ofNat]

theorem data_writeFrame (inner : Bytes) :
    (writeFrame inner : ByteWriter (frameHeaderBytes + inner.length)).data =
      some (frameHeader inner ++ inner) := by
  have size : (frameHeader inner ++ inner).length = frameHeaderBytes + inner.length := by
    rw [List.length_append, length_frameHeader]
  have written : (writeFrame inner : ByteWriter (frameHeaderBytes + inner.length)) =
      ByteWriter.empty.raw (frameHeader inner ++ inner) := by
    rw [writeFrame, ByteWriter.u32_ofNat, ByteWriter.u32, ByteWriter.raw_raw, ByteWriter.raw_raw,
      frameHeader, List.append_assoc]
  rw [written, ByteWriter.data_raw_empty, if_pos size.le]

theorem encodeFrame_of_fits (fits : f.Fits) : encodeFrame f.type f.body = f.bytes := by
  unfold WireFrame.Fits at fits
  rw [encodeFrame, if_neg (Nat.not_lt.mpr fits), data_writeEnvelope, if_pos fits]
  simp only [data_writeFrame, Option.getD_some]
  rfl

theorem encodeFrame_eq_nil (large : ¬f.Fits) : encodeFrame f.type f.body = [] := by
  rw [encodeFrame, if_pos (Nat.lt_of_not_le large)]

theorem encodeFrame_ne_nil : encodeFrame f.type f.body ≠ [] ↔ f.Fits := by
  refine ⟨fun ne => of_not_not fun large => ne (encodeFrame_eq_nil large), fun fits => ?_⟩
  rw [encodeFrame_of_fits fits]
  exact f.bytes_ne_nil

theorem decodeFramePrefix_bytes (fits : f.Fits) (rest : Bytes) :
    decodeFramePrefix (f.bytes ++ rest) = .ok (f, f.bytes.length) := by
  have lt := fits.payload_lt
  have word : (UInt32.ofNat f.payload.length).toNat = f.payload.length := by
    rw [UInt32.toNat_ofNat', Nat.mod_eq_of_lt lt]
  have bodyWord : (UInt32.ofNat f.body.length).toNat = f.body.length := by
    rw [UInt32.toNat_ofNat', Nat.mod_eq_of_lt fits.body_lt]
  have size : (f.bytes ++ rest).length = frameHeaderBytes + f.payload.length + rest.length := by
    rw [List.length_append, WireFrame.length_bytes]
  have header : ¬(f.bytes ++ rest).length < frameHeaderBytes := by omega
  have budget : ¬f.payload.length > Limits.maxWireFrameBytes := by
    rw [WireFrame.length_payload]
    exact Nat.not_lt.mpr fits
  have complete : ¬(f.bytes ++ rest).length < frameHeaderBytes + f.payload.length := by omega
  have envelope : ¬f.payload.length < envelopeBytes := by
    rw [WireFrame.length_payload]
    omega
  have payload : ((f.bytes ++ rest).drop frameHeaderBytes).take f.payload.length = f.payload := by
    rw [WireFrame.bytes, List.append_assoc, List.drop_left' (length_frameHeader _), List.take_left]
  have length : Read.u32 (.ofBytes (f.bytes ++ rest)) = (UInt32.ofNat f.payload.length,
      ⟨some (LittleEndian.encode 4 (crc32c f.payload).toNat ++ (f.payload ++ rest))⟩) := by
    rw [WireFrame.bytes, frameHeader, List.append_assoc, List.append_assoc]
    exact Read.u32_length lt _
  have room : ¬f.body.length > f.payload.length - envelopeBytes := by
    rw [WireFrame.length_payload]
    omega
  rw [decodeFramePrefix, if_neg header]
  simp only [length, Read.u32_encode, ByteReader.failed, word, payload, if_neg budget,
    if_neg complete, if_neg envelope]
  simp only [WireFrame.payload, ByteReader.ofBytes, Read.u16_encode, Read.u8_cons,
    Read.u32_length fits.body_lt, MessageType.ofValue_value, bodyWord]
  rw [← WireFrame.payload]
  simp only [if_neg room]
  simp [Read.raw, ByteReader.atEnd]

theorem exists_envelope (data : Bytes) (long : envelopeBytes ≤ data.length) :
    ∃ (version : UInt16) (rawType : UInt8) (length : UInt32) (body : Bytes),
      data = LittleEndian.encode 2 version.toNat ++
        (rawType :: (LittleEndian.encode 4 length.toNat ++ body)) := by
  obtain ⟨version, rest, rfl⟩ := Read.exists_u16 data (Nat.le_trans (by decide) long)
  rw [List.length_append, LittleEndian.length_encode] at long
  obtain ⟨rawType, rest, rfl⟩ := List.exists_cons_of_length_pos (l := rest) (by
    simp only [envelopeBytes] at long
    omega)
  rw [List.length_cons] at long
  obtain ⟨length, body, rfl⟩ := Read.exists_u32 rest (by
    simp only [envelopeBytes] at long
    omega)
  exact ⟨version, rawType, length, body, rfl⟩

theorem accepted_of_decodeFramePrefix {consumed : Nat}
    (accepted : decodeFramePrefix bytes = .ok (f, consumed)) :
    f.Fits ∧ consumed = f.bytes.length ∧ f.bytes <+: bytes := by
  unfold decodeFramePrefix at accepted
  split at accepted
  · cases accepted
  next header =>
  have header := Nat.not_lt.mp header
  obtain ⟨length, rest, rfl⟩ := Read.exists_u32 bytes (Nat.le_trans (by decide) header)
  rw [List.length_append, LittleEndian.length_encode] at header
  obtain ⟨crc, rest, rfl⟩ := Read.exists_u32 rest (by
    simp only [frameHeaderBytes] at header
    omega)
  have behind : (LittleEndian.encode 4 length.toNat ++
      (LittleEndian.encode 4 crc.toNat ++ rest)).drop frameHeaderBytes = rest := by
    rw [← List.append_assoc, List.drop_left' (by simp [frameHeaderBytes])]
  simp only [ByteReader.ofBytes, Read.u32_encode, ByteReader.failed, Option.isNone_some,
    Bool.false_eq_true, if_false, behind] at accepted
  split at accepted
  · cases accepted
  next budget =>
  split at accepted
  · cases accepted
  next complete =>
  split at accepted
  · cases accepted
  next checksum =>
  split at accepted
  · cases accepted
  next envelope =>
  have enough : length.toNat ≤ rest.length := by
    simp only [List.length_append, LittleEndian.length_encode, frameHeaderBytes] at complete
    omega
  have size : (rest.take length.toNat).length = length.toNat := List.length_take_of_le enough
  obtain ⟨version, rawType, bodyLength, body, payload⟩ :=
    exists_envelope (rest.take length.toNat) (by rw [size]; exact Nat.not_lt.mp envelope)
  rw [payload] at accepted size
  simp only [Read.u16_encode, Read.u8_cons, Read.u32_encode, Option.isNone_some,
    Bool.false_eq_true, if_false] at accepted
  split at accepted
  · cases accepted
  next supported =>
  split at accepted
  · cases accepted
  next type known =>
  split at accepted
  · cases accepted
  next room =>
  have total : envelopeBytes + body.length = length.toNat := by
    rw [← size]
    simp [envelopeBytes]
    omega
  rw [Read.raw] at accepted
  dsimp only at accepted
  rw [if_neg (by omega)] at accepted
  dsimp only at accepted
  split at accepted
  · cases accepted
  next ended =>
  obtain ⟨rfl, rfl⟩ := Prod.mk.inj (Except.ok.inj accepted)
  -- nothing stands behind the body, so that it is as long as the envelope says
  have all : body.length = bodyLength.toNat := by
    simp only [ByteReader.atEnd, Bool.not_eq_true', beq_eq_false_iff_ne, ne_eq, Option.some.injEq,
      List.drop_eq_nil_iff, not_not] at ended
    omega
  have whole : rest.take length.toNat =
      WireFrame.payload ⟨type, body.take bodyLength.toNat⟩ := by
    rw [payload, WireFrame.payload, MessageType.eq_value known, not_not.mp supported, ← all,
      List.take_length]
  have count : (WireFrame.payload ⟨type, body.take bodyLength.toNat⟩).length = length.toNat := by
    rw [← whole, List.length_take_of_le enough]
  refine ⟨?_, ?_, rest.drop length.toNat, ?_⟩
  · rw [WireFrame.Fits, ← all, List.take_length, total]
    exact Nat.not_lt.mp budget
  · rw [WireFrame.length_bytes, count]
  · rw [WireFrame.bytes, frameHeader, count, ← whole, not_not.mp checksum, List.append_assoc,
      List.append_assoc, List.take_append_drop]

theorem decodeFramePrefix_eq_ok {consumed : Nat} :
    decodeFramePrefix bytes = .ok (f, consumed) ↔
      f.Fits ∧ consumed = f.bytes.length ∧ f.bytes <+: bytes := by
  refine ⟨accepted_of_decodeFramePrefix, ?_⟩
  rintro ⟨fits, rfl, rest, rfl⟩
  exact decodeFramePrefix_bytes fits rest

theorem decodeFrame_eq_ok : decodeFrame bytes = .ok f ↔ f.Fits ∧ bytes = f.bytes := by
  unfold decodeFrame
  constructor
  · intro accepted
    split at accepted
    · cases accepted
    next frame consumed decoded =>
    split at accepted
    · cases accepted
    next all =>
    obtain rfl := Except.ok.inj accepted
    obtain ⟨fits, size, pre⟩ := decodeFramePrefix_eq_ok.mp decoded
    exact ⟨fits, (pre.eq_of_length (size.symm.trans (not_not.mp all))).symm⟩
  · rintro ⟨fits, rfl⟩
    rw [decodeFramePrefix_eq_ok.mpr ⟨fits, rfl, List.prefix_refl _⟩]
    exact if_neg (not_not.mpr rfl)

/-- Repeated `decode_frame_prefix`: every frame of a stream, with the bytes it took. -/
def decodeFrames (bytes : Bytes) : Result (List (WireFrame × Nat)) :=
  if bytes.isEmpty then .ok []
  else
    match _decoded : decodeFramePrefix bytes with
    | .error e => .error e
    | .ok (frame, consumed) =>
        (decodeFrames (bytes.drop consumed)).map fun frames => (frame, consumed) :: frames
termination_by bytes.length
decreasing_by
  obtain ⟨-, size, pre⟩ := decodeFramePrefix_eq_ok.mp _decoded
  have le := pre.length_le
  rw [List.length_drop, size]
  rw [WireFrame.length_bytes] at le ⊢
  simp only [frameHeaderBytes] at le ⊢
  omega

theorem decodeFrames_cons (fits : f.Fits) (rest : Bytes) :
    decodeFrames (f.bytes ++ rest) =
      (decodeFrames rest).map fun frames => (f, f.bytes.length) :: frames := by
  have first := decodeFramePrefix_bytes fits rest
  rw [decodeFrames, if_neg (by simp [f.bytes_ne_nil])]
  split
  next e failed =>
    rw [first] at failed
    cases failed
  next frame consumed decoded =>
    rw [first] at decoded
    obtain ⟨rfl, rfl⟩ := Prod.mk.inj (Except.ok.inj decoded)
    rw [List.drop_left]

theorem decodeFrames_stream {frames : List WireFrame} (fit : ∀ f ∈ frames, f.Fits) :
    decodeFrames (frames.flatMap WireFrame.bytes) =
      .ok (frames.map fun f => (f, f.bytes.length)) := by
  induction frames with
  | nil => rw [List.flatMap_nil, decodeFrames]; rfl
  | cons f frames ih =>
      rw [List.flatMap_cons, decodeFrames_cons (fit f List.mem_cons_self),
        ih fun g mem => fit g (List.mem_cons_of_mem _ mem)]
      rfl

/-- Framing is a bijection between the frames within the budget and the buffers that are accepted,
and takes a stream of frames apart where it was put together. -/
theorem framing_exact :
    (∀ type body, envelopeBytes + body.length ≤ Limits.maxWireFrameBytes →
      decodeFrame (encodeFrame type body) = .ok ⟨type, body⟩) ∧
    (∀ bytes frame, decodeFrame bytes = .ok frame → encodeFrame frame.type frame.body = bytes) ∧
    ∀ frames : List WireFrame, (∀ f ∈ frames, encodeFrame f.type f.body ≠ []) →
      decodeFrames (frames.flatMap fun f => encodeFrame f.type f.body) =
        .ok (frames.map fun f => (f, (encodeFrame f.type f.body).length)) := by
  refine ⟨?_, ?_, ?_⟩
  · intro type body budget
    have fits : WireFrame.Fits ⟨type, body⟩ := budget
    exact decodeFrame_eq_ok.mpr ⟨fits, encodeFrame_of_fits fits⟩
  · intro bytes frame accepted
    obtain ⟨fits, rfl⟩ := decodeFrame_eq_ok.mp accepted
    exact encodeFrame_of_fits fits
  · intro frames encodable
    have fit : ∀ f ∈ frames, f.Fits := fun f mem => encodeFrame_ne_nil.mp (encodable f mem)
    have same : ∀ f ∈ frames, encodeFrame f.type f.body = f.bytes := fun f mem =>
      encodeFrame_of_fits (fit f mem)
    have stream : (frames.flatMap fun f => encodeFrame f.type f.body) =
        frames.flatMap WireFrame.bytes := List.flatMap_congr same
    rw [stream, decodeFrames_stream fit]
    exact congrArg Except.ok (List.map_congr_left fun f mem => by rw [same f mem])

theorem framing_exact_ping :
    decodeFrame (encodeFrame .ping [7]) = .ok ⟨.ping, [7]⟩ ∧
    decodeFrames (encodeFrame .ping [7] ++ encodeFrame .bye []) =
      .ok [(⟨.ping, [7]⟩, (encodeFrame .ping [7]).length),
        (⟨.bye, []⟩, (encodeFrame .bye []).length)] := by
  have stream := framing_exact.2.2 [⟨.ping, [7]⟩, ⟨.bye, []⟩] (by decide +kernel)
  rw [List.flatMap_cons, List.flatMap_cons, List.flatMap_nil, List.append_nil] at stream
  exact ⟨framing_exact.1 .ping [7] (by decide), stream⟩

/-- A buffer that differs from a frame in one byte is no frame. -/
theorem corruption_refused {type : MessageType} {body : Bytes} {i : Nat} {b : UInt8}
    (encodable : encodeFrame type body ≠ []) (lt : i < (encodeFrame type body).length)
    (ne : b ≠ (encodeFrame type body)[i]) :
    ∃ e, decodeFrame ((encodeFrame type body).set i b) = .error e := by
  have fits : WireFrame.Fits ⟨type, body⟩ := encodeFrame_ne_nil.mp encodable
  cases decoded : decodeFrame ((encodeFrame type body).set i b) with
  | error e => exact ⟨e, rfl⟩
  | ok frame =>
      obtain ⟨-, same⟩ := decodeFrame_eq_ok.mp decoded
      have bytes : encodeFrame type body = WireFrame.bytes ⟨type, body⟩ := encodeFrame_of_fits fits
      simp only [bytes] at lt ne same
      exact absurd same (framed_set_ne lt ne)

theorem corruption_refused_ping :
    ∃ e, decodeFrame ((encodeFrame .ping [7]).set 15 8) = .error e :=
  corruption_refused (by decide +kernel) (by decide +kernel) (by decide +kernel)

end Wire

end QoSFabric
