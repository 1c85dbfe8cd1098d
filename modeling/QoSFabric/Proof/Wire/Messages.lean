import QoSFabric.Model.Messages
import QoSFabric.Proof.Codec.Inversion

/-!
# Messages and their bodies

Every message is read back from its body with its text clipped, and a body that is accepted is the
body of the message it is read as.
-/

namespace QoSFabric

namespace Wire

open Decode

/-- Encoding and decoding undo each other, on messages that may be sent and on accepted bodies. -/
structure Reversible {α : Type} (sendable : α → Prop) (clipped : α → α) (encode : α → Bytes)
    (decode : Bytes → Result α) : Prop where
  decode_encode : ∀ value, sendable value → decode (encode value) = .ok (clipped value)
  encode_decode : ∀ body value, decode body = .ok value → encode value = body

section Bodies

variable {α : Type}

theorem decodeBody_eq_ok {message : Decode α} {body : Bytes} {value : α} :
    decodeBody message body = .ok value ↔
      ∃ reader, message (.ofBytes body) = .ok (value, reader) := by
  rw [decodeBody, Decode.map_eq_ok]
  constructor
  · rintro ⟨⟨value', reader⟩, read, rfl⟩
    exact ⟨reader, read⟩
  · rintro ⟨reader, read⟩
    exact ⟨_, read, rfl⟩

theorem encodeBody_of_within
    {emit : ByteWriter Limits.maxWireFrameBytes → ByteWriter Limits.maxWireFrameBytes} {bound : Nat}
    (within : (emit .empty).Within bound) : (emit .empty).data = some (encodeBody emit) := by
  obtain ⟨bytes, data, -⟩ := within
  rw [encodeBody, data]
  rfl

variable {sendable : α → Prop} {clipped : α → α} {message : Decode α}
  {emit : α → ByteWriter Limits.maxWireFrameBytes → ByteWriter Limits.maxWireFrameBytes} {bound : Nat}

theorem reversible_of_codes (within : ∀ value, sendable value → (emit value .empty).Within bound)
    (codes : ∀ value, sendable value →
      CodesBefore (· = []) (emit value) message (clipped value) True)
    (yields : Yields message sendable) (spells : SpellsBefore (· = []) id message emit) :
    Reversible sendable clipped (fun value => encodeBody (emit value)) (decodeBody message) := by
  constructor
  · intro value good
    obtain ⟨before, bytes, nothing, eq, reads⟩ :=
      codes value good .empty _ (encodeBody_of_within (within value good))
    cases nothing
    rw [List.nil_append] at eq
    refine decodeBody_eq_ok.mpr ⟨⟨some []⟩, ?_⟩
    rcases reads [] rfl with read | ⟨never, -⟩
    · rw [List.append_nil, ← eq] at read
      exact read
    · exact absurd trivial never
  · intro body value decoded
    obtain ⟨reader, read⟩ := decodeBody_eq_ok.mp decoded
    obtain ⟨bytes, rest, rfl, -, eq, written⟩ := spells _ value reader read
    have whole : body = bytes := by
      have same := congrArg ByteReader.remaining eq
      rw [List.append_nil] at same
      exact Option.some.inj same
    have data := encodeBody_of_within (within value (yields.ok _ _ _ read))
    rw [written, id, ByteWriter.data_raw_empty] at data
    split at data
    · rw [whole]
      exact (Option.some.inj data).symm
    · cases data

end Bodies

section Fields

variable {α β : Type} {limit : Nat} {G : Prop}

theorem codes_text (value : Text) {maxLen : Nat} (bound : maxLen < 2 ^ 32) :
    Codes (fun w : ByteWriter limit => writeText w value maxLen) (readText maxLen)
      (value.take maxLen) G := by
  unfold readText
  show Codes (emitAll [fun w => w.str (value.take maxLen) maxLen]) _ _ G
  apply Codes.step (codes_str _ bound)
  apply Codes.skip .sound
  exact Codes.done

theorem inverts_text {maxLen : Nat} :
    Inverts (readText maxLen) fun value (w : ByteWriter limit) => writeText w value maxLen := by
  have spells : Spells id (readText maxLen) fun value (w : ByteWriter limit) =>
      writeText w value maxLen := by
    unfold readText
    apply Spells.bind_yields inverts_str yields_str
    intro value short
    apply Spells.last spells_sound
    intro _
    refine Closes.pure fun w => ?_
    rw [writeText, List.take_of_length_le short]
    rfl
  exact spells.inverts

theorem yields_text {maxLen : Nat} : Yields (readText maxLen) fun value => value.length ≤ maxLen := by
  unfold readText
  apply yields_str.bind
  intro value short
  apply Yields.after
  intro _
  exact .pure short

theorem settles_endOfBody {detail : String} : (endOfBody detail).Settles (· = []) () G := by
  unfold endOfBody
  exact Reads.bind Settles.atEnd (fun _ _ => .inl rfl) fun _ may => may

theorem codes_end {detail : String} {k : Unit → Decode β} {b : β}
    (settles : (k ()).Settles (· = []) b G) :
    CodesBefore (· = []) (emitAll ([] : List (ByteWriter limit → ByteWriter limit)))
      (endOfBody detail >>= k) b G :=
  Codes.last (Reads.bind settles_endOfBody settles fun _ may => may)

theorem spells_end {detail : String} {k : Unit → Decode β}
    {done : ByteWriter limit → ByteWriter limit} {encode : β → ByteWriter limit → ByteWriter limit}
    (rest : Closes done (k ()) encode) :
    SpellsBefore (· = []) done (endOfBody detail >>= k) encode := by
  rintro ⟨remaining⟩ b reader' read
  obtain ⟨_, between, ended, read₂⟩ := bind_eq_ok_iff.mp read
  obtain ⟨whole, between', asked, ended⟩ := bind_eq_ok_iff.mp ended
  cases asked
  split at ended
  next nothing =>
    cases ended
    obtain ⟨rfl, written⟩ := rest _ b reader' read₂
    obtain rfl : remaining = some [] := beq_iff_eq.mp nothing
    exact ⟨[], [], rfl, rfl, rfl, fun w => by rw [written, ByteWriter.raw_nil]⟩
  · cases ended

theorem inverts_boot : Inverts (.read (Read.raw 16)) fun view (w : ByteWriter limit) =>
    w.raw (BootId.ofView view).bytes := by
  intro reader found rest read
  have raw : Read.raw 16 reader = (found, ⟨some rest⟩) := Except.ok.inj read
  obtain ⟨view, rfl⟩ := Read.raw_of_good raw
  obtain ⟨rest', same, eq, length⟩ := Read.raw_eq_some raw
  cases same
  refine ⟨view, eq, fun w => ?_⟩
  show w.raw ((view ++ List.replicate 16 0).take 16) = _
  rw [List.take_left' length]

theorem inverts_viewed : Inverts (.read (Read.raw 32)) fun view (w : ByteWriter limit) =>
    w.raw (Digest256.ofBuffer (view.getD [])).bytes := by
  intro reader found rest read
  have raw : Read.raw 32 reader = (found, ⟨some rest⟩) := Except.ok.inj read
  obtain ⟨view, rfl⟩ := Read.raw_of_good raw
  obtain ⟨rest', same, eq, length⟩ := Read.raw_eq_some raw
  cases same
  refine ⟨view, eq, fun w => ?_⟩
  show w.raw (Digest256.ofBuffer view).bytes = _
  rw [bytes_ofBuffer length]

theorem settles_status {status : WireStatus} {detail : String} {k : WireStatus → Decode β} {b : β}
    (settles : (k status).Settles (· = []) b G) :
    (Decode.require .malformed detail (ofRaw WireStatus.members WireStatus.value status.value) >>=
      k).Settles (· = []) b G := by
  have known : ofRaw WireStatus.members WireStatus.value status.value = some status := by
    cases status <;> rfl
  exact Reads.bind (S := (· = [])) (Settles.require known) settles fun _ may => may

end Fields

theorem within_text {limit bound : Nat} {w : ByteWriter limit} (within : w.Within bound)
    (value : Text) {maxLen : Nat} (fits : bound + 4 + maxLen ≤ limit) :
    (writeText w value maxLen).Within (bound + 4 + maxLen) :=
  within.str _ (List.length_take_le _ _) fits

end Wire

open Wire Decode

namespace HelloMessage

def Sendable (value : HelloMessage) : Prop :=
  isValid value.publisher = true ∧ value.incarnation ≠ 0

def clipped (value : HelloMessage) : HelloMessage :=
  { value with origin := value.origin.take Limits.maxOriginLen }

theorem ofView_bytes (boot : BootId) : BootId.ofView (some boot.bytes) = boot := by
  have whole : (boot.bytes ++ List.replicate 16 0).take 16 = boot.bytes := List.take_left' boot.size
  unfold BootId.ofView
  cases boot
  congr

theorem writeHello_eq {limit : Nat} {value : HelloMessage} (valid : isValid value.publisher = true)
    (w : ByteWriter limit) :
    writeHello value w = emitAll [fun w => w.str value.publisher Limits.maxIdentifierLen,
      fun w => w.u64 value.incarnation, fun w => w.raw value.boot.bytes, fun w => w.u32 value.ttlMs,
      fun w => writeText w value.origin Limits.maxOriginLen] w := by
  rw [writeHello, valid]
  rfl

theorem within {value : HelloMessage} (sendable : value.Sendable) :
    (writeHello value (.empty : ByteWriter Limits.maxWireFrameBytes)).Within 260 := by
  rw [writeHello_eq sendable.1]
  have writer := (@ByteWriter.Within.empty Limits.maxWireFrameBytes)
    |>.ident (length_of_isValidIdentifier sendable.1) (by decide)
    |>.u64 value.incarnation (by decide)
    |>.raw (Nat.le_of_eq value.boot.size) (by decide)
    |>.u32 value.ttlMs (by decide)
  exact (within_text writer value.origin (by decide)).mono (by decide)

theorem codes {limit : Nat} {value : HelloMessage} (sendable : value.Sendable) :
    CodesBefore (· = []) (writeHello value : ByteWriter limit → ByteWriter limit) readHello
      value.clipped True := by
  have short : value.publisher.take Limits.maxIdentifierLen = value.publisher :=
    List.take_of_length_le (length_of_isValidIdentifier sendable.1)
  have named : (fun w : ByteWriter limit => w.str value.publisher Limits.maxIdentifierLen) =
      fun w => writeText w value.publisher Limits.maxIdentifierLen := by
    funext w
    rw [writeText, short]
  rw [funext (writeHello_eq sendable.1), named]
  unfold readHello
  apply Codes.step (codes_text _ (by decide))
  apply Codes.step (codes_u64 _)
  apply Codes.step (codes_raw value.boot.size)
  apply Codes.step (codes_u32 _)
  apply Codes.step (codes_text _ (by decide))
  apply codes_end
  rw [short, ofView_bytes, if_neg (by simp [sendable.1, sendable.2])]
  exact fun _ _ => .inl rfl

theorem yields : Yields readHello Sendable := by
  unfold readHello
  apply Yields.after
  intro publisher
  apply Yields.after
  intro incarnation
  apply Yields.after
  intro boot
  apply Yields.after
  intro ttlMs
  apply Yields.after
  intro origin
  apply Yields.after
  intro _
  refine .ite (fun _ => .refuse) fun named => .pure ?_
  simpa [Sendable] using named

theorem spells {limit : Nat} : SpellsBefore (· = []) id readHello
    fun value (w : ByteWriter limit) => writeHello value w := by
  unfold readHello
  apply Spells.bind_yields inverts_text yields_text
  intro publisher short
  apply Spells.bind inverts_u64
  intro incarnation
  apply Spells.bind inverts_boot
  intro boot
  apply Spells.bind inverts_u32
  intro ttlMs
  apply Spells.bind inverts_text
  intro origin
  apply spells_end
  intro reader value reader' read
  split at read
  · cases read
  next named =>
    cases read
    refine ⟨rfl, fun w => ?_⟩
    dsimp only
    rw [writeHello, if_neg (by simp at named ⊢; exact named.1)]
    simp only [writeText, List.take_of_length_le short, id]

end HelloMessage

namespace HelloAckMessage

def clipped (value : HelloAckMessage) : HelloAckMessage :=
  { value with detail := value.detail.take Limits.maxReasonLen }

theorem within (value : HelloAckMessage) :
    (writeHelloAck value (.empty : ByteWriter Limits.maxWireFrameBytes)).Within 285 := by
  have writer := (@ByteWriter.Within.empty Limits.maxWireFrameBytes)
    |>.u8 value.status.value (by decide)
    |>.u64 value.epoch (by decide)
    |>.u64 value.lease (by decide)
    |>.u64 value.expiresAtMs (by decide)
  exact (within_text writer value.detail (by decide)).mono (by decide)

theorem codes {limit : Nat} (value : HelloAckMessage) :
    CodesBefore (· = []) (writeHelloAck value : ByteWriter limit → ByteWriter limit) readHelloAck
      value.clipped True := by
  unfold readHelloAck
  show CodesBefore _ (emitAll [fun w => w.u8 value.status.value, fun w => w.u64 value.epoch,
    fun w => w.u64 value.lease, fun w => w.u64 value.expiresAtMs,
    fun w => writeText w value.detail Limits.maxReasonLen]) _ _ True
  apply Codes.step (codes_u8 _)
  apply Codes.step (codes_u64 _)
  apply Codes.step (codes_u64 _)
  apply Codes.step (codes_u64 _)
  apply Codes.step (codes_text _ (by decide))
  apply codes_end
  apply settles_status
  exact fun _ _ => .inl rfl

theorem spells {limit : Nat} : SpellsBefore (· = []) id readHelloAck
    fun value (w : ByteWriter limit) => writeHelloAck value w := by
  unfold readHelloAck
  apply Spells.bind inverts_u8
  intro status
  apply Spells.bind inverts_u64
  intro epoch
  apply Spells.bind inverts_u64
  intro lease
  apply Spells.bind inverts_u64
  intro expiresAtMs
  apply Spells.bind inverts_text
  intro detail
  apply spells_end
  apply Closes.require
  rintro status rfl
  exact Closes.pure fun _ => rfl

end HelloAckMessage

namespace PublishAckMessage

def clipped (value : PublishAckMessage) : PublishAckMessage :=
  { value with detail := value.detail.take Limits.maxReasonLen }

theorem within (value : PublishAckMessage) :
    (writePublishAck value (.empty : ByteWriter Limits.maxWireFrameBytes)).Within 309 := by
  have writer := (@ByteWriter.Within.empty Limits.maxWireFrameBytes)
    |>.u8 value.status.value (by decide)
    |>.u64 value.generation (by decide)
    |>.u64 value.sequence (by decide)
    |>.raw (Nat.le_of_eq value.digest.size) (by decide)
  exact (within_text writer value.detail (by decide)).mono (by decide)

theorem codes {limit : Nat} (value : PublishAckMessage) :
    CodesBefore (· = []) (writePublishAck value : ByteWriter limit → ByteWriter limit)
      readPublishAck value.clipped True := by
  unfold readPublishAck
  show CodesBefore _ (emitAll [fun w => w.u8 value.status.value, fun w => w.u64 value.generation,
    fun w => w.u64 value.sequence, fun w => w.raw value.digest.bytes,
    fun w => writeText w value.detail Limits.maxReasonLen]) _ _ True
  apply Codes.step (codes_u8 _)
  apply Codes.step (codes_u64 _)
  apply Codes.step (codes_u64 _)
  apply Codes.step (codes_raw value.digest.size)
  apply Codes.step (codes_text _ (by decide))
  apply codes_end
  apply settles_status
  rw [Option.getD_some, Digest256.ofBuffer_bytes]
  exact fun _ _ => .inl rfl

theorem spells {limit : Nat} : SpellsBefore (· = []) id readPublishAck
    fun value (w : ByteWriter limit) => writePublishAck value w := by
  unfold readPublishAck
  apply Spells.bind inverts_u8
  intro status
  apply Spells.bind inverts_u64
  intro generation
  apply Spells.bind inverts_u64
  intro sequence
  apply Spells.bind inverts_viewed
  intro digest
  apply Spells.bind inverts_text
  intro detail
  apply spells_end
  apply Closes.require
  rintro status rfl
  exact Closes.pure fun _ => rfl

end PublishAckMessage

namespace RegistryStatusMessage

theorem within (value : RegistryStatusMessage) :
    (writeRegistryStatus value (.empty : ByteWriter Limits.maxWireFrameBytes)).Within 64 :=
  (@ByteWriter.Within.empty Limits.maxWireFrameBytes)
    |>.u64 value.epoch (by decide)
    |>.u64 value.classes (by decide)
    |>.u64 value.policies (by decide)
    |>.u64 value.paths (by decide)
    |>.u64 value.capabilities (by decide)
    |>.u64 value.decisions (by decide)
    |>.u64 value.publishers (by decide)
    |>.u64 value.conflicts (by decide)

theorem codes {limit : Nat} (value : RegistryStatusMessage) :
    CodesBefore (· = []) (writeRegistryStatus value : ByteWriter limit → ByteWriter limit)
      readRegistryStatus value True := by
  unfold readRegistryStatus
  show CodesBefore _ (emitAll [fun w => w.u64 value.epoch, fun w => w.u64 value.classes,
    fun w => w.u64 value.policies, fun w => w.u64 value.paths, fun w => w.u64 value.capabilities,
    fun w => w.u64 value.decisions, fun w => w.u64 value.publishers,
    fun w => w.u64 value.conflicts]) _ _ True
  iterate 8 apply Codes.step (codes_u64 _)
  exact codes_end fun _ _ => .inl rfl

theorem spells {limit : Nat} : SpellsBefore (· = []) id readRegistryStatus
    fun value (w : ByteWriter limit) => writeRegistryStatus value w := by
  unfold readRegistryStatus
  iterate 8
    apply Spells.bind inverts_u64
    intro _
  apply spells_end
  exact Closes.pure fun _ => rfl

end RegistryStatusMessage

theorem yields_anything {α : Type} {message : Decode α} : Yields message fun _ => True :=
  ⟨fun _ _ _ _ => trivial⟩

theorem messages_round_trip :
    Reversible HelloMessage.Sendable HelloMessage.clipped encodeHello decodeHello ∧
      Reversible (fun _ => True) HelloAckMessage.clipped encodeHelloAck decodeHelloAck ∧
      Reversible (fun _ => True) PublishAckMessage.clipped encodePublishAck decodePublishAck ∧
      Reversible (fun _ => True) id encodeRegistryStatus decodeRegistryStatus := by
  refine ⟨?_, ?_, ?_, ?_⟩
  · exact reversible_of_codes (fun _ => HelloMessage.within) (fun _ => HelloMessage.codes)
      HelloMessage.yields HelloMessage.spells
  · exact reversible_of_codes (fun value _ => value.within) (fun value _ => value.codes) yields_anything
      HelloAckMessage.spells
  · exact reversible_of_codes (fun value _ => value.within) (fun value _ => value.codes) yields_anything
      PublishAckMessage.spells
  · exact reversible_of_codes (fun value _ => value.within) (fun value _ => value.codes) yields_anything
      RegistryStatusMessage.spells

end QoSFabric
