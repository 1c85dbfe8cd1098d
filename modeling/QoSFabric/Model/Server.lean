import QoSFabric.Model.Net
import QoSFabric.Model.Serve
import Mathlib.Data.List.Destutter

/-!
# The registry server

The loop of `run_server` in `qosfabric_cli.cpp` over one connection: frames are received, handled by
the registry and answered, until one of them ends the connection. What the server prints is left
out.
-/

namespace QoSFabric

open Interaction

/-! ## Counts -/

/-- The `RegistryCounts` that a status message carries. -/
structure RegistryCounts where
  classes : Nat
  policies : Nat
  paths : Nat
  capabilities : Nat
  reservations : Nat
  publishers : Nat
  decisions : Nat
  conflicts : Nat
  liveLeases : Nat
  deriving DecidableEq, Repr

namespace Registry

def countIdentifiers {kind : EntityKind} (table : GenerationTable kind) : Nat :=
  let ids := table.entries.filterMap fun entry => entry.2.getLast?.map kind.entityId
  ((sortTexts ids).destutter (· ≠ ·)).length

def countGenerations {kind : EntityKind} (table : GenerationTable kind) : Nat :=
  (table.entries.map fun entry => entry.2.length).sum

def counts (r : Registry) : RegistryCounts where
  classes := countIdentifiers (r.tables .class)
  policies := countIdentifiers (r.tables .policy)
  paths := countIdentifiers (r.tables .path)
  capabilities := countGenerations (r.tables .capability)
  reservations := countGenerations (r.tables .reservation)
  publishers := Table.size r.publisherWatermark
  decisions := Table.size r.decisions
  conflicts := r.conflicts.length
  liveLeases := Table.size r.leases

def status (r : Registry) : RegistryStatusMessage where
  epoch := r.currentEpoch
  classes := UInt64.ofNat r.counts.classes
  policies := UInt64.ofNat r.counts.policies
  paths := UInt64.ofNat r.counts.paths
  capabilities := UInt64.ofNat r.counts.capabilities
  decisions := UInt64.ofNat r.counts.decisions
  publishers := UInt64.ofNat r.counts.publishers
  conflicts := UInt64.ofNat r.counts.conflicts

end Registry

/-! ## Frames -/

/-- What is done about a frame: the connection is left, or a frame is sent back. After a reply the
connection may be left as well, and a server need not insist that a reply is sent. -/
inductive Response where
  | leave
  | reply (frame : Bytes) (insists last : Bool)

def Response.answer (type : MessageType) (body : Bytes) (last : Bool) : Response :=
  let frame := Wire.encodeFrame type body
  if frame.isEmpty then leave else reply frame true last

def Response.send : Response → Connected Bool
  | leave => pure false
  | reply frame insists last => do
      let sent ← sendAll frame
      pure ((!insists || sent.toBool) && !last)

def Response.ofAck : Option PublishAckMessage → Response
  | none => leave
  | some ack => answer .publishAck (Wire.encodePublishAck ack) false

def HelloAckMessage.ofGrant (epoch : FabricEpoch) : Result PublisherLease → HelloAckMessage
  | .error e => ⟨.ofError e.code, epoch, 0, 0, e.detail⟩
  | .ok lease => ⟨.ok, lease.epoch, lease.lease, lease.expiresAtMs, []⟩

namespace Registry

def serveHello (r : Registry) (clock : UInt64) (hello : HelloMessage) :
    Files (HelloAckMessage × Registry) := do
  let (lease, r) ← r.registerPublisher clock hello.publisher hello.incarnation hello.boot
    hello.ttlMs.toUInt64 hello.origin
  pure (.ofGrant r.currentEpoch lease, r)

def serveFrame (r : Registry) (clock : UInt64) (frame : WireFrame) : Files (Response × Registry) :=
  match frame.type with
  | .ping => pure (.reply (Wire.encodeFrame .pong []) false false, r)
  | .hello =>
      match Wire.decodeHello frame.body with
      | .error _ => pure (.leave, r)
      | .ok hello => do
          let (ack, r) ← r.serveHello clock hello
          pure (.answer .helloAck (Wire.encodeHelloAck ack) (ack.status != .ok), r)
  | .publishCapability | .publishReservation => do
      let (ack, r) ← r.servePublication frame.type frame.body
      pure (.ofAck ack, r)
  | .registryStatus =>
      pure (.answer .registryStatus (Wire.encodeRegistryStatus r.status) false, r)
  | .unknown | .helloAck | .publishAck | .revoke | .bye | .pong => pure (.leave, r)

/-- The connection loop, with the registry that it leaves and a reading of the system clock for each
turn. It runs out of fuel only when it is given less than the turns it takes. -/
def serveConnection (clock : Nat → UInt64) : Nat → Registry → Connected (Option Registry)
  | 0, _ => pure none
  | fuel + 1, r => do
      match ← recvFrame with
      | .error _ => pure (some r)
      | .ok raw =>
          match Wire.decodeFrame raw with
          | .error _ => pure (some r)
          | .ok frame => do
              let (response, r) ← (r.serveFrame (clock fuel) frame).lift
              if ← response.send then serveConnection clock fuel r else pure (some r)

end Registry

end QoSFabric
