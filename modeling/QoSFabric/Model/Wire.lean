import QoSFabric.Model.Serialize
import QoSFabric.Model.Crypto

/-!
# Frames of the publisher protocol

The framing of `wire.cpp`: what every message travels in, whatever its body is. A body and the frame
around it are budgeted in `Nat`, where the checked size arithmetic of the source cannot overflow.
-/

namespace QoSFabric

abbrev wireProtocolVersion : UInt16 := 1

inductive MessageType where
  | unknown | hello | helloAck | publishCapability | publishReservation | publishAck | revoke | bye
  | ping | pong | registryStatus
  deriving DecidableEq, Repr

namespace MessageType

def value : MessageType → UInt8
  | unknown => 0 | hello => 1 | helloAck => 2 | publishCapability => 3 | publishReservation => 4
  | publishAck => 5 | revoke => 6 | bye => 7 | ping => 8 | pong => 9 | registryStatus => 10

/-- The message type of a raw number up to `kMaxMessageType`. -/
def ofValue (raw : UInt8) : Option MessageType :=
  match raw.toNat with
  | 0 => some unknown | 1 => some hello | 2 => some helloAck | 3 => some publishCapability
  | 4 => some publishReservation | 5 => some publishAck | 6 => some revoke | 7 => some bye
  | 8 => some ping | 9 => some pong | 10 => some registryStatus | _ => none

@[simp] theorem ofValue_value (type : MessageType) : ofValue type.value = some type := by
  cases type <;> rfl

end MessageType

/-- The `Frame` of `wire.hpp`. -/
structure WireFrame where
  type : MessageType
  body : Bytes
  deriving DecidableEq, Repr

namespace Wire

abbrev frameHeaderBytes : Nat := 8
abbrev envelopeBytes : Nat := 7

def writeEnvelope {limit : Nat} (type : MessageType) (body : Bytes) : ByteWriter limit :=
  (((ByteWriter.empty.u16 wireProtocolVersion).u8 type.value).u32 (UInt32.ofNat body.length)).raw
    body

def writeFrame {limit : Nat} (inner : Bytes) : ByteWriter limit :=
  ((ByteWriter.empty.u32 (UInt32.ofNat inner.length)).u32 (crc32c inner)).raw inner

def encodeFrame (type : MessageType) (body : Bytes) : Bytes :=
  if envelopeBytes + body.length > Limits.maxWireFrameBytes then []
  else match (writeEnvelope type body : ByteWriter Limits.maxWireFrameBytes).data with
    | none => []
    | some inner =>
        (writeFrame inner : ByteWriter (frameHeaderBytes + inner.length)).data.getD []

def decodeFramePrefix (bytes : Bytes) : Result (WireFrame × Nat) :=
  if bytes.length < frameHeaderBytes then
    .error (makeError .malformed "frame header is incomplete")
  else
    let (length, r) := Read.u32 (.ofBytes bytes)
    let (expectedCrc, r) := Read.u32 r
    if r.failed then .error (makeError .malformed "frame header is malformed")
    else if length.toNat > Limits.maxWireFrameBytes then
      .error (makeError .tooLarge "frame length exceeds the wire budget")
    else
      let total := frameHeaderBytes + length.toNat
      if bytes.length < total then .error (makeError .malformed "frame body is incomplete")
      else
        let payload := (bytes.drop frameHeaderBytes).take length.toNat
        if crc32c payload ≠ expectedCrc then
          .error (makeError .corrupt "frame checksum mismatch")
        else if length.toNat < envelopeBytes then
          .error (makeError .malformed "frame payload is too small to be an envelope")
        else
          let (version, r) := Read.u16 (.ofBytes payload)
          let (rawType, r) := Read.u8 r
          let (bodyLength, r) := Read.u32 r
          if r.failed then .error (makeError .malformed "frame envelope is truncated")
          else if version ≠ wireProtocolVersion then
            .error (makeError .versionMismatch "wire protocol version is not supported")
          else match MessageType.ofValue rawType with
            | none => .error (makeError .malformed "message type is not recognised")
            | some type =>
                if bodyLength.toNat > length.toNat - envelopeBytes then
                  .error (makeError .malformed "declared body length exceeds the frame")
                else
                  match Read.raw bodyLength.toNat r with
                  | (none, _) => .error (makeError .malformed "frame body is truncated")
                  | (some body, r) =>
                      if !r.atEnd then
                        .error (makeError .malformed "frame carries trailing bytes")
                      else .ok (⟨type, body⟩, total)

def decodeFrame (bytes : Bytes) : Result WireFrame :=
  match decodeFramePrefix bytes with
  | .error e => .error e
  | .ok (frame, consumed) =>
      if consumed ≠ bytes.length then
        .error (makeError .malformed "buffer holds more than one frame")
      else .ok frame

end Wire

end QoSFabric
