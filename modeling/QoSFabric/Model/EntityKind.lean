import QoSFabric.Model.Decode
import QoSFabric.Model.Frame

/-!
# The durable entities

The five kinds of definition share one publication path. Each member of the kind is what the
overloads of the source give for that type.
-/

namespace QoSFabric

inductive EntityKind where
  | «class» | policy | path | capability | reservation
  deriving DecidableEq, Repr

namespace EntityKind

abbrev Carrier : EntityKind → Type
  | .class => QoSClass
  | policy => Policy
  | path => Path
  | capability => ResourceCapability
  | reservation => Reservation

/-- `entity_id`. -/
def entityId : (kind : EntityKind) → kind.Carrier → Text
  | .class, value => QoSClass.id value
  | policy, value => Policy.id value
  | path, value => Path.id value
  | capability, value => ResourceCapability.resource value
  | reservation, value => Reservation.resource value

def generation : (kind : EntityKind) → kind.Carrier → Generation
  | .class, value => QoSClass.generation value
  | policy, value => Policy.generation value
  | path, value => Path.generation value
  | capability, value => ResourceCapability.generation value
  | reservation, value => Reservation.generation value

def digest : (kind : EntityKind) → kind.Carrier → Digest256
  | .class, value => QoSClass.digest value
  | policy, value => Policy.digest value
  | path, value => Path.digest value
  | capability, value => ResourceCapability.digest value
  | reservation, value => Reservation.digest value

/-- `assertion_epoch`, read. -/
def epoch : (kind : EntityKind) → kind.Carrier → FabricEpoch
  | .class, value => QoSClass.publishedEpoch value
  | policy, value => Policy.publishedEpoch value
  | path, value => Path.epoch value
  | capability, value => ResourceCapability.epoch value
  | reservation, value => Reservation.epoch value

def asserted (epoch : FabricEpoch) (digest : Digest256) (provenance : Provenance) :
    (kind : EntityKind) → kind.Carrier → kind.Carrier
  | .class, value =>
      { (value : QoSClass) with publishedEpoch := epoch, digest := digest, provenance := provenance }
  | policy, value =>
      { (value : Policy) with publishedEpoch := epoch, digest := digest, provenance := provenance }
  | path, value =>
      { (value : Path) with epoch := epoch, digest := digest, provenance := provenance }
  | capability, value =>
      { (value : ResourceCapability) with
        epoch := epoch, digest := digest, provenance := provenance }
  | reservation, value =>
      { (value : Reservation) with epoch := epoch, digest := digest, provenance := provenance }

/-- `assertion_provenance`, set. -/
def withProvenance (provenance : Provenance) : (kind : EntityKind) → kind.Carrier → kind.Carrier
  | .class, value => { (value : QoSClass) with provenance := provenance }
  | policy, value => { (value : Policy) with provenance := provenance }
  | path, value => { (value : Path) with provenance := provenance }
  | capability, value => { (value : ResourceCapability) with provenance := provenance }
  | reservation, value => { (value : Reservation) with provenance := provenance }

def validate : (kind : EntityKind) → kind.Carrier → Result Unit
  | .class, value => validateQoSClass value
  | policy, value => validatePolicy value
  | path, value => validatePath value
  | capability, value => validateCapability value
  | reservation, value => validateReservation value

/-- `compute_digest`. -/
def computeDigest : (kind : EntityKind) → kind.Carrier → Digest256
  | .class, value => QoSClass.computeDigest value
  | policy, value => Policy.computeDigest value
  | path, value => Path.computeDigest value
  | capability, value => ResourceCapability.computeDigest value
  | reservation, value => Reservation.computeDigest value

/-- `canonical_encode`. -/
def encode {limit : Nat} :
    (kind : EntityKind) → kind.Carrier → ByteWriter limit → ByteWriter limit
  | .class, value => encodeQoSClass value
  | policy, value => encodePolicy value
  | path, value => encodePath value
  | capability, value => encodeCapability value
  | reservation, value => encodeReservation value

/-- `canonical_decode`. -/
def decode : (kind : EntityKind) → Decode kind.Carrier
  | .class => decodeQoSClass
  | policy => decodePolicy
  | path => decodePath
  | capability => decodeCapability
  | reservation => decodeReservation

def recordType : EntityKind → RecordType
  | .class => .publishClass
  | policy => .publishPolicy
  | path => .publishPath
  | capability => .publishCapability
  | reservation => .publishReservation

/-- `conflict_scope`. -/
def scope : EntityKind → ConflictScope
  | .class => .class
  | policy => .policy
  | path => .path
  | capability => .capability
  | reservation => .reservation

def maxIdentifiers : EntityKind → Nat
  | .class => Limits.maxClassesRetained
  | policy => Limits.maxPoliciesRetained
  | path => Limits.maxPathsRetained
  | capability | reservation => Limits.maxCapabilitiesRetained

def all : List EntityKind := [.class, policy, path, capability, reservation]

end EntityKind

end QoSFabric
