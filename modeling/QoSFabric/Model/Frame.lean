import QoSFabric.Model.Serialize
import QoSFabric.Model.Crypto
import QoSFabric.Model.Entities
import QoSFabric.Foundation.Framing

/-!
# Frames of the write-ahead log

The frame codec of `store.cpp` and the bodies of the journal's own records. A frame is parsed at
the start of the bytes from its offset on.
-/

namespace QoSFabric

open Framing (Outcome)

abbrev frameVersion : UInt16 := 1
abbrev frameHeaderBytes : Nat := 8
abbrev recordHeaderBytes : Nat := 25
abbrev maxWalScanBytes : Nat := Limits.maxSnapshotBytes + 1048576

abbrev flagNone : UInt8 := 0
abbrev flagHasAttempt : UInt8 := 1

inductive RecordType where
  | unknown | storeHeader | epochAdvance | publishClass | publishPolicy | publishPath
  | publishCapability | publishReservation | registerPublisher | revokePublisher | recordDecision
  | mutationIntent | mutationCommit | conflictRecord | publisherLeaseCleared | mutationAbort
  | cleanShutdown
  deriving DecidableEq, Repr

namespace RecordType

def value : RecordType → UInt16
  | unknown => 0 | storeHeader => 1 | epochAdvance => 2 | publishClass => 3 | publishPolicy => 4
  | publishPath => 5 | publishCapability => 6 | publishReservation => 7 | registerPublisher => 8
  | revokePublisher => 9 | recordDecision => 10 | mutationIntent => 11 | mutationCommit => 12
  | conflictRecord => 13 | publisherLeaseCleared => 14 | mutationAbort => 15 | cleanShutdown => 16

/-- The record type of a raw number up to `CleanShutdown`. -/
def ofValue (raw : UInt16) : Option RecordType :=
  match raw.toNat with
  | 0 => some unknown | 1 => some storeHeader | 2 => some epochAdvance | 3 => some publishClass
  | 4 => some publishPolicy | 5 => some publishPath | 6 => some publishCapability
  | 7 => some publishReservation | 8 => some registerPublisher | 9 => some revokePublisher
  | 10 => some recordDecision | 11 => some mutationIntent | 12 => some mutationCommit
  | 13 => some conflictRecord | 14 => some publisherLeaseCleared | 15 => some mutationAbort
  | 16 => some cleanShutdown | _ => none

@[simp] theorem ofValue_value (type : RecordType) : ofValue type.value = some type := by
  cases type <;> rfl

end RecordType

structure Frame where
  type : RecordType
  flags : UInt8
  sequence : Sequence
  attempt : AttemptId
  body : Bytes
  deriving DecidableEq, Repr

namespace Frame

def write {limit : Nat} (f : Frame) : ByteWriter limit :=
  ((((((ByteWriter.empty.u16 frameVersion).u16 f.type.value).u8 f.flags).u64 f.sequence).u64
    f.attempt).u32 (UInt32.ofNat f.body.length)).raw f.body

end Frame

def frameHeader (record : Bytes) : Bytes :=
  LittleEndian.encode 4 record.length ++ LittleEndian.encode 4 (crc32c record).toNat

def parseRecord (payload : Bytes) : Option Frame :=
  let (version, r) := Read.u16 (.ofBytes payload)
  let (rawType, r) := Read.u16 r
  let (flags, r) := Read.u8 r
  let (sequence, r) := Read.u64 r
  let (attempt, r) := Read.u64 r
  let (bodyLength, r) := Read.u32 r
  if r.failed || version != frameVersion then none
  else match RecordType.ofValue rawType with
    | none => none
    | some type =>
        if bodyLength.toNat > payload.length - recordHeaderBytes then none
        else some ⟨type, flags, sequence, attempt,
          (payload.drop recordHeaderBytes).take bodyLength.toNat⟩

/-- `parse_frame`: a frame running past the end is incomplete, anything else unreadable is bad. -/
def parseFrame (maxRecordBytes : Nat) (rest : Bytes) : Outcome Frame :=
  if frameHeaderBytes > rest.length then .incomplete
  else
    let length := LittleEndian.decode (rest.take 4)
    let expectedCrc := LittleEndian.decode ((rest.drop 4).take 4)
    if length > maxRecordBytes then .bad
    else if frameHeaderBytes + length > rest.length then .incomplete
    else
      let payload := (rest.drop frameHeaderBytes).take length
      if (crc32c payload).toNat ≠ expectedCrc then .bad
      else if length < recordHeaderBytes then .bad
      else match parseRecord payload with
        | none => .bad
        | some frame => .whole frame (frameHeaderBytes + length)

/-- `any_valid_frame_after` an offset, given the bytes from it on. -/
def anyValidFrameAfter (maxRecordBytes : Nat) (rest : Bytes) : Bool :=
  Framing.anyWhole (parseFrame maxRecordBytes) rest.tail

/-! ## Bodies of the journal's records -/

/-- The body `Stage` writes. -/
def writeIntent {limit : Nat} (type : RecordType) (attempt : AttemptId) (payload : Bytes) :
    ByteWriter limit :=
  (((ByteWriter.empty.u16 type.value).u64 attempt).u32 (UInt32.ofNat payload.length)).raw payload

/-- The body `Commit` writes. -/
def writeCommit (attempt : AttemptId) (appliedDigest : Digest256) : ByteWriter 256 :=
  (ByteWriter.empty.u64 attempt).raw appliedDigest.bytes

/-- The body `Abort` writes. -/
def writeAbort (attempt : AttemptId) (reason : Text) : ByteWriter 512 :=
  (ByteWriter.empty.u64 attempt).str (reason.take Limits.maxReasonLen) Limits.maxReasonLen

/-- What `replay_log` reads out of an intent; nothing when the body is malformed. -/
def readIntent (body : Bytes) : Option (RecordType × AttemptId × Bytes) :=
  let (rawType, r) := Read.u16 (.ofBytes body)
  let (attempt, r) := Read.u64 r
  let (bodyLength, r) := Read.u32 r
  match r.remaining, RecordType.ofValue rawType with
  | some remaining, some type =>
      if bodyLength.toNat > remaining.length then none
      else some (type, attempt, remaining.take bodyLength.toNat)
  | _, _ => none

/-- What `replay_log` reads out of a commit or an abort. -/
def readAttempt (body : Bytes) : Option AttemptId :=
  let (attempt, r) := Read.u64 (.ofBytes body)
  if r.failed then none else some attempt

end QoSFabric
