import QoSFabric.Model.Serialize
import QoSFabric.Model.Validate

/-!
# Canonical encoding of the definitions

Every record starts with its type tag and the schema version. A content digest addresses the
definition, not the assertion: epoch, timestamps and provenance are cleared before hashing.
-/

namespace QoSFabric

def tagQoSClass : UInt16 := 0x0101
def tagPolicy : UInt16 := 0x0102
def tagPath : UInt16 := 0x0103
def tagCapability : UInt16 := 0x0104
def tagReservation : UInt16 := 0x0105
def tagRequest : UInt16 := 0x0106
def schemaVersion : UInt16 := 1

namespace ByteWriter

variable {limit : Nat}

def header (w : ByteWriter limit) (tag : UInt16) : ByteWriter limit :=
  (w.u16 tag).u16 schemaVersion

def ident (w : ByteWriter limit) (value : Text) : ByteWriter limit :=
  w.str value Limits.maxIdentifierLen

def optionalU64 (w : ByteWriter limit) : Option UInt64 → ByteWriter limit
  | none => w.presence false
  | some value => (w.presence true).u64 value

def optionalU32 (w : ByteWriter limit) : Option UInt32 → ByteWriter limit
  | none => w.presence false
  | some value => (w.presence true).u32 value

def digest (w : ByteWriter limit) (value : Digest256) : ByteWriter limit :=
  w.raw value.bytes

def provenance (w : ByteWriter limit) (value : Provenance) : ByteWriter limit :=
  (((w.str value.origin Limits.maxOriginLen).u64 value.epoch).u64 value.generation).u64
    value.sequence

def predicates (w : ByteWriter limit) (keys : List Text) (maxCount : Nat) : ByteWriter limit :=
  if keys.length > maxCount then w.fail
  else w.counted (sortTexts keys) fun w key => w.str key Limits.maxPredicateKeyLen

end ByteWriter

section Encode

variable {limit : Nat}

def encodeQoSClass (value : QoSClass) (w : ByteWriter limit) : ByteWriter limit :=
  w.header tagQoSClass
    |>.ident value.id
    |>.u64 value.generation
    |>.str value.label Limits.maxLabelLen
    |>.optionalU64 value.minRateBps
    |>.optionalU64 value.maxRateBps
    |>.optionalU64 value.peakRateBps
    |>.optionalU64 value.maxLatencyUs
    |>.optionalU64 value.maxJitterUs
    |>.optionalU32 value.maxLossPpm
    |>.optionalU64 value.burstBytes
    |>.optionalU64 value.burstIntervalUs
    |>.optionalU64 value.minMtuBytes
    |>.u8 value.isolation.rank
    |>.u8 value.treatment.rank
    |>.u32 value.minPriorityRank
    |>.u32 value.minDisjointPaths
    |>.presence value.requiresReservation
    |>.predicates value.requiredPredicates Limits.maxRequiredPredicates
    |>.presence value.allowDegrade
    |>.u32 value.degradeMaxRelaxationPpm
    |>.u8 value.violationPolicy.value
    |>.u64 value.publishedEpoch
    |>.provenance value.provenance

def encodePolicy (value : Policy) (w : ByteWriter limit) : ByteWriter limit :=
  w.header tagPolicy
    |>.ident value.id
    |>.u64 value.generation
    |>.str value.label Limits.maxLabelLen
    |>.presence value.degradePermitted
    |>.u32 value.maxRelaxationPpm
    |>.u32 value.maxStaleEpochs
    |>.u64 value.capabilityMaxAgeMs
    |>.u32 value.maxUnknownComponents
    |>.predicates value.requiredPredicates Limits.maxRequiredPredicates
    |>.counted value.deniedClasses (fun w id => w.ident id)
    |>.u64 value.publishedEpoch
    |>.provenance value.provenance

def encodeComponent (w : ByteWriter limit) (component : PathComponent) : ByteWriter limit :=
  w.ident component.resource
    |>.u64 component.capabilityGeneration
    |>.ident component.diversityDomain
    |>.u8 component.role.value

def encodePath (value : Path) (w : ByteWriter limit) : ByteWriter limit :=
  w.header tagPath
    |>.ident value.id
    |>.u64 value.generation
    |>.counted value.components encodeComponent
    |>.u64 value.fixedLatencyUs
    |>.u64 value.fixedJitterUs
    |>.u64 value.epoch
    |>.provenance value.provenance

def encodeCapability (value : ResourceCapability) (w : ByteWriter limit) : ByteWriter limit :=
  w.header tagCapability
    |>.ident value.resource
    |>.u64 value.generation
    |>.u64 value.epoch
    |>.ident value.publisher
    |>.u64 value.incarnation
    |>.u64 value.publishedAtMs
    |>.u64 value.expiresAtMs
    |>.u8 value.state.value
    |>.optionalU64 value.supportedRateBps
    |>.optionalU64 value.latencyBoundUs
    |>.optionalU64 value.jitterBoundUs
    |>.optionalU32 value.lossPpm
    |>.optionalU64 value.maxBurstBytes
    |>.optionalU64 value.burstWindowUs
    |>.optionalU64 value.mtuBytes
    |>.u8 value.maxIsolation.rank
    |>.u8 value.maxTreatment.rank
    |>.u32 value.maxPriorityRank
    |>.predicates value.predicates Limits.maxCapabilityPredicates
    |>.ident value.diversityDomain
    |>.provenance value.provenance

def encodeReservation (value : Reservation) (w : ByteWriter limit) : ByteWriter limit :=
  w.header tagReservation
    |>.ident value.resource
    |>.u64 value.generation
    |>.ident value.classId
    |>.u64 value.classGeneration
    |>.u64 value.reservedMinRateBps
    |>.u64 value.reservedBurstBytes
    |>.u64 value.epoch
    |>.ident value.publisher
    |>.u64 value.incarnation
    |>.u64 value.expiresAtMs
    |>.provenance value.provenance

def encodeRequest (value : ContractRequest) (w : ByteWriter limit) : ByteWriter limit :=
  w.header tagRequest
    |>.ident value.contract
    |>.u64 value.contractGeneration
    |>.ident value.subject
    |>.u64 value.subjectGeneration
    |>.ident value.classId
    |>.u64 value.classGeneration
    |>.ident value.path
    |>.u64 value.pathGeneration
    |>.ident value.policy
    |>.u64 value.policyGeneration
    |>.ident value.priority
    |>.u64 value.priorityGeneration
    |>.u64 value.observedEpoch
    |>.u64 value.requestMs
    |>.provenance value.provenance

end Encode

/-! ## Digests -/

def digestOfEncoding
    (encode : ByteWriter Limits.maxCanonicalRecordBytes → ByteWriter Limits.maxCanonicalRecordBytes) :
    Digest256 :=
  match (encode .empty).data with
  | some bytes => sha256 bytes
  | none => .zero

theorem digestOfEncoding_of_data {bytes : Bytes}
    {encode : ByteWriter Limits.maxCanonicalRecordBytes →
      ByteWriter Limits.maxCanonicalRecordBytes}
    (written : (encode .empty).data = some bytes) : digestOfEncoding encode = sha256 bytes := by
  unfold digestOfEncoding
  rw [written]

theorem digestOfEncoding_of_exceeded
    {encode : ByteWriter Limits.maxCanonicalRecordBytes →
      ByteWriter Limits.maxCanonicalRecordBytes}
    (exceeded : (encode .empty).data = none) : digestOfEncoding encode = .zero := by
  unfold digestOfEncoding
  rw [exceeded]

def QoSClass.normalized (value : QoSClass) : QoSClass :=
  { value with digest := .zero, publishedEpoch := 0, provenance := .none }

def Policy.normalized (value : Policy) : Policy :=
  { value with digest := .zero, publishedEpoch := 0, provenance := .none }

def Path.normalized (value : Path) : Path :=
  { value with digest := .zero, epoch := 0, provenance := .none }

def ResourceCapability.normalized (value : ResourceCapability) : ResourceCapability :=
  { value with
    digest := .zero, epoch := 0, publishedAtMs := 0, expiresAtMs := 0, provenance := .none }

def Reservation.normalized (value : Reservation) : Reservation :=
  { value with digest := .zero, epoch := 0, expiresAtMs := 0, provenance := .none }

def QoSClass.computeDigest (value : QoSClass) : Digest256 :=
  digestOfEncoding (encodeQoSClass value.normalized)

def Policy.computeDigest (value : Policy) : Digest256 :=
  digestOfEncoding (encodePolicy value.normalized)

def Path.computeDigest (value : Path) : Digest256 :=
  digestOfEncoding (encodePath value.normalized)

def ResourceCapability.computeDigest (value : ResourceCapability) : Digest256 :=
  digestOfEncoding (encodeCapability value.normalized)

def Reservation.computeDigest (value : Reservation) : Digest256 :=
  digestOfEncoding (encodeReservation value.normalized)

def ContractRequest.computeDigest (value : ContractRequest) : Digest256 :=
  digestOfEncoding (encodeRequest value)

end QoSFabric
