import QoSFabric.Model.Registry
import QoSFabric.Model.Wire

/-!
# Messages of the publisher protocol

The bodies of `wire.cpp` that a frame carries: what a publisher says when it connects, and what it
is answered.
-/

namespace QoSFabric

inductive WireStatus where
  | ok | rejected | fenced | unauthorized | stale | conflict | tooLarge | notFound | internal
  deriving DecidableEq, Repr

namespace WireStatus

def value : WireStatus → UInt8
  | ok => 0 | rejected => 1 | fenced => 2 | unauthorized => 3 | stale => 4 | conflict => 5
  | tooLarge => 6 | notFound => 7 | internal => 8

/-- The statuses up to `kMaxWireStatus`. -/
def members : List WireStatus :=
  [ok, rejected, fenced, unauthorized, stale, conflict, tooLarge, notFound, internal]

end WireStatus

def BootId.ofView (view : Option Bytes) : BootId :=
  ⟨(view.getD [] ++ List.replicate 16 0).take 16, by simp⟩

structure HelloMessage where
  publisher : Text
  incarnation : PublisherIncarnation
  boot : BootId
  ttlMs : UInt32
  origin : Text
  deriving DecidableEq

structure HelloAckMessage where
  status : WireStatus
  epoch : FabricEpoch
  lease : AttemptId
  expiresAtMs : UInt64
  detail : Text
  deriving DecidableEq

structure PublishAckMessage where
  status : WireStatus
  generation : Generation
  sequence : Sequence
  digest : Digest256
  detail : Text
  deriving DecidableEq

structure RegistryStatusMessage where
  epoch : FabricEpoch
  classes : UInt64
  policies : UInt64
  paths : UInt64
  capabilities : UInt64
  decisions : UInt64
  publishers : UInt64
  conflicts : UInt64
  deriving DecidableEq

namespace Wire

section Encode

variable {limit : Nat}

def writeText (w : ByteWriter limit) (value : Text) (maxLen : Nat) : ByteWriter limit :=
  w.str (value.take maxLen) maxLen

def writeHello (value : HelloMessage) (w : ByteWriter limit) : ByteWriter limit :=
  if !isValid value.publisher then w.fail
  else
    writeText
      (w.str value.publisher Limits.maxIdentifierLen
        |>.u64 value.incarnation
        |>.raw value.boot.bytes
        |>.u32 value.ttlMs)
      value.origin Limits.maxOriginLen

def writeHelloAck (value : HelloAckMessage) (w : ByteWriter limit) : ByteWriter limit :=
  writeText
    (w.u8 value.status.value
      |>.u64 value.epoch
      |>.u64 value.lease
      |>.u64 value.expiresAtMs)
    value.detail Limits.maxReasonLen

def writePublishAck (value : PublishAckMessage) (w : ByteWriter limit) : ByteWriter limit :=
  writeText
    (w.u8 value.status.value
      |>.u64 value.generation
      |>.u64 value.sequence
      |>.raw value.digest.bytes)
    value.detail Limits.maxReasonLen

def writeRegistryStatus (value : RegistryStatusMessage) (w : ByteWriter limit) : ByteWriter limit :=
  w.u64 value.epoch
    |>.u64 value.classes
    |>.u64 value.policies
    |>.u64 value.paths
    |>.u64 value.capabilities
    |>.u64 value.decisions
    |>.u64 value.publishers
    |>.u64 value.conflicts

end Encode

def encodeBody
    (emit : ByteWriter Limits.maxWireFrameBytes → ByteWriter Limits.maxWireFrameBytes) : Bytes :=
  (emit .empty).data.getD []

def encodeHello (value : HelloMessage) : Bytes := encodeBody (writeHello value)

def encodeHelloAck (value : HelloAckMessage) : Bytes := encodeBody (writeHelloAck value)

def encodePublishAck (value : PublishAckMessage) : Bytes := encodeBody (writePublishAck value)

def encodeRegistryStatus (value : RegistryStatusMessage) : Bytes :=
  encodeBody (writeRegistryStatus value)

/-! ## Decoding -/

def readText (maxLen : Nat) : Decode Text := do
  let value ← .read (Read.str maxLen)
  .sound .malformed "text field is malformed or over budget"
  pure value

def endOfBody (detail : String) : Decode Unit := do
  if ← atEnd then pure () else .refuse .malformed detail

def readHello : Decode HelloMessage := do
  let publisher ← readText Limits.maxIdentifierLen
  let incarnation ← .read Read.u64
  let boot ← .read (Read.raw 16)
  let ttlMs ← .read Read.u32
  let origin ← readText Limits.maxOriginLen
  endOfBody "hello message is malformed"
  if !isValid publisher || incarnation == 0 then
    .refuse .invalidArgument "hello message carries an invalid identity"
  else pure ⟨publisher, incarnation, .ofView boot, ttlMs, origin⟩

def readHelloAck : Decode HelloAckMessage := do
  let status ← .read Read.u8
  let epoch ← .read Read.u64
  let lease ← .read Read.u64
  let expiresAtMs ← .read Read.u64
  let detail ← readText Limits.maxReasonLen
  endOfBody "hello acknowledgement is malformed"
  let status ← .require .malformed "hello acknowledgement is malformed"
    (ofRaw WireStatus.members WireStatus.value status)
  pure ⟨status, epoch, lease, expiresAtMs, detail⟩

def readPublishAck : Decode PublishAckMessage := do
  let status ← .read Read.u8
  let generation ← .read Read.u64
  let sequence ← .read Read.u64
  let digest ← .read (Read.raw 32)
  let detail ← readText Limits.maxReasonLen
  endOfBody "publish acknowledgement is malformed"
  let status ← .require .malformed "publish acknowledgement is malformed"
    (ofRaw WireStatus.members WireStatus.value status)
  pure ⟨status, generation, sequence, .ofBuffer (digest.getD []), detail⟩

def readRegistryStatus : Decode RegistryStatusMessage := do
  let epoch ← .read Read.u64
  let classes ← .read Read.u64
  let policies ← .read Read.u64
  let paths ← .read Read.u64
  let capabilities ← .read Read.u64
  let decisions ← .read Read.u64
  let publishers ← .read Read.u64
  let conflicts ← .read Read.u64
  endOfBody "registry status message is malformed"
  pure ⟨epoch, classes, policies, paths, capabilities, decisions, publishers, conflicts⟩

def decodeBody {α : Type} (message : Decode α) (body : Bytes) : Result α :=
  (message (.ofBytes body)).map Prod.fst

def decodeHello (body : Bytes) : Result HelloMessage := decodeBody readHello body

def decodeHelloAck (body : Bytes) : Result HelloAckMessage := decodeBody readHelloAck body

def decodePublishAck (body : Bytes) : Result PublishAckMessage := decodeBody readPublishAck body

def decodeRegistryStatus (body : Bytes) : Result RegistryStatusMessage :=
  decodeBody readRegistryStatus body

end Wire

end QoSFabric
