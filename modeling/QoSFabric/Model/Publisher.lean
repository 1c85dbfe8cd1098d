import QoSFabric.Model.Net
import QoSFabric.Model.Scenario
import QoSFabric.Model.Messages
import Mathlib.Data.List.DropRight

/-!
# The publisher process

The process of `qosfabric_publisher.cpp`: it claims an incarnation from its boot file, asks a server
for a lease, and publishes declarations for one resource, one after the other. What it prints is kept
apart from the progress lines; connecting is left to the network.
-/

namespace QoSFabric

open Interaction

/-! ## The boot counter -/

def readIncarnation (path : FileName) : Files (Result PublisherIncarnation) :=
  if path.isEmpty then pure (.ok 0)
  else do
    match ← readFile path 64 with
    | .error e => pure (if e.code = .notFound then .ok 0 else .error e)
    | .ok bytes =>
        let digits := bytes.rdropWhile fun c => c == 10 || c == 13 || c == 32
        pure (if digits.isEmpty || !digits.all isDigit then
            .error (makeError .corrupt "boot file does not hold a decimal counter")
          else .ok (strtoull digits))

def writeIncarnation (path : FileName) (value : PublisherIncarnation) : Files (Result Unit) :=
  if path.isEmpty then pure (.ok ()) else writeFileAtomic path (decimal value.toNat ++ text "\n")

/-- The start of `main`: the incarnation of this process, once it is durable. -/
def claimIncarnation (path : FileName) : Files (Result PublisherIncarnation) := do
  match ← readIncarnation path with
  | .error e => pure (.error e)
  | .ok previous =>
      match ← writeIncarnation path (previous + 1) with
      | .error e => pure (.error e)
      | .ok () => pure (.ok (previous + 1))

/-! ## Declarations -/

/-- The options that a session depends on. -/
structure PublisherOptions where
  publisherId : Text := text "publisher"
  bootFile : FileName := []
  ttlMs : UInt32 := 60000
  resource : Text := text "resource"
  domain : Text := text "domain-0"
  state : Text := text "available"
  rateBps : UInt64 := 10000000
  latencyUs : UInt64 := 100
  jitterUs : UInt64 := 10
  lossPpm : UInt32 := 0
  isolation : Text := text "queue-isolated"
  treatment : Text := text "rate-limited"
  priorityRank : UInt32 := 4
  predicates : List Text := []
  publishes : UInt32 := 1

/-- A process at work: its options, its name and incarnation, and the epoch of its lease. -/
structure Declarant where
  options : PublisherOptions
  publisher : Text
  incarnation : PublisherIncarnation
  epoch : FabricEpoch

namespace Declarant

def declaration (p : Declarant) (now : UInt64) : Option ResourceCapability := do
  let state ← CapabilityState.members.find? fun item => p.options.state == item.name
  let maxIsolation ← IsolationLevel.members.find? fun item => p.options.isolation == item.name
  let maxTreatment ← TreatmentMode.members.find? fun item => p.options.treatment == item.name
  let predicates ← (p.options.predicates.mapM
    fun key => parseStringId key Limits.maxPredicateKeyLen).toOption
  pure {
    resource := p.options.resource, generation := 1, epoch := p.epoch, publisher := p.publisher,
    incarnation := p.incarnation, publishedAtMs := now,
    expiresAtMs := now + p.options.ttlMs.toUInt64, state,
    supportedRateBps := some p.options.rateBps, latencyBoundUs := some p.options.latencyUs,
    jitterBoundUs := some p.options.jitterUs, lossPpm := some p.options.lossPpm,
    maxBurstBytes := some 65536, burstWindowUs := some 1000, mtuBytes := some 9000, maxIsolation,
    maxTreatment, maxPriorityRank := p.options.priorityRank, predicates,
    diversityDomain := p.options.domain, digest := .zero, provenance := .none }

def publicationBody (value : ResourceCapability) : Option Bytes :=
  (encodeCapability value (.empty : ByteWriter Limits.maxCanonicalRecordBytes)).data.map
    fun encoded => 0x01 :: encoded

def publication (p : Declarant) (now : UInt64) : Option Bytes := do
  let value ← p.declaration now
  let body ← publicationBody value
  let frame := Wire.encodeFrame .publishCapability body
  if frame.isEmpty then none else pure frame

end Declarant

/-! ## Sessions -/

def exchange (frame : Bytes) (type : MessageType) : Connected (Option Bytes) := do
  match ← sendAll frame with
  | .error _ => pure none
  | .ok () =>
      match ← recvFrame with
      | .error _ => pure none
      | .ok raw =>
          match Wire.decodeFrame raw with
          | .error _ => pure none
          | .ok reply => pure (if reply.type = type then some reply.body else none)

/-- The publications, one for each index that is left, with a reading of the clock for each. It gives
the exit code of the process, and the acknowledgements in the order in which they came. -/
def Declarant.publishAll (p : Declarant) (clock : Nat → UInt64) :
    Nat → Connected (Nat × List PublishAckMessage)
  | 0 => do
      let _ ← sendAll (Wire.encodeFrame .bye [])
      pure (0, [])
  | left + 1 =>
      match p.publication (clock left) with
      | none => pure (1, [])
      | some frame => do
          match ← exchange frame .publishAck with
          | none => pure (1, [])
          | some body =>
              match Wire.decodePublishAck body with
              | .error _ => pure (1, [])
              | .ok ack =>
                  if ack.status ≠ .ok then pure (2, [ack])
                  else do
                    let (code, acks) ← p.publishAll clock left
                    pure (code, ack :: acks)

/-- What a process exits with, and what it was answered on the way. -/
structure SessionReport where
  exitCode : Nat
  hello : Option HelloAckMessage
  acks : List PublishAckMessage

namespace PublisherOptions

def session (o : PublisherOptions) (boot : BootId) (clock : Nat → UInt64)
    (incarnation : PublisherIncarnation) : Connected SessionReport :=
  match parseStringId o.publisherId Limits.maxIdentifierLen with
  | .error _ => pure ⟨1, none, []⟩
  | .ok publisher =>
      let frame := Wire.encodeFrame .hello
        (Wire.encodeHello ⟨publisher, incarnation, boot, o.ttlMs, text "qosfabric_publisher/1.0.0"⟩)
      if frame.isEmpty then pure ⟨1, none, []⟩
      else do
        match ← exchange frame .helloAck with
        | none => pure ⟨1, none, []⟩
        | some body =>
            match Wire.decodeHelloAck body with
            | .error _ => pure ⟨1, none, []⟩
            | .ok ack =>
                if ack.status ≠ .ok then pure ⟨2, some ack, []⟩
                else do
                  let (code, acks) ← Declarant.publishAll ⟨o, publisher, incarnation, ack.epoch⟩
                    clock o.publishes.toNat
                  pure ⟨code, some ack, acks⟩

/-- `main`. -/
def run (o : PublisherOptions) (boot : BootId) (clock : Nat → UInt64) : Connected SessionReport := do
  match ← (claimIncarnation o.bootFile).lift with
  | .error _ => pure ⟨1, none, []⟩
  | .ok incarnation => o.session boot clock incarnation

end PublisherOptions

end QoSFabric
