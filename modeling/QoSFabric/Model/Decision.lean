import QoSFabric.Model.Canonical

/-!
# Decisions

The records of `decision.hpp`, the precedence of outcomes and the canonical form of a decision.
-/

namespace QoSFabric

/-- The constructors stand in precedence order, weakest first. -/
inductive Outcome where
  | supported | supportedDegraded | unknown | unsupported | stale | conflict | rejected
  deriving DecidableEq, Repr

namespace Outcome

def value : Outcome → UInt8
  | supported => 0 | supportedDegraded => 1 | unknown => 2 | unsupported => 3 | stale => 4
  | conflict => 5 | rejected => 6

def isPositive (outcome : Outcome) : Bool :=
  outcome == supported || outcome == supportedDegraded

def dominant (a b : Outcome) : Outcome :=
  if a.value ≥ b.value then a else b

end Outcome

inductive ObligationStatus where
  | satisfied | degraded | violated | unknown | unavailable | stale | notApplicable
  deriving DecidableEq, Repr

def ObligationStatus.value : ObligationStatus → UInt8
  | satisfied => 0 | degraded => 1 | violated => 2 | unknown => 3 | unavailable => 4 | stale => 5
  | notApplicable => 6

inductive ComponentStatus where
  | satisfied | degraded | unknown | unavailable | violated | stale
  deriving DecidableEq, Repr

def ComponentStatus.value : ComponentStatus → UInt8
  | satisfied => 0 | degraded => 1 | unknown => 2 | unavailable => 3 | violated => 4 | stale => 5

inductive Dimension where
  | «class» | subject | path | policy | priority | capability | reservation | fabricEpoch | count
  deriving DecidableEq, Repr

def Dimension.value : Dimension → UInt8
  | .class => 0 | subject => 1 | path => 2 | policy => 3 | priority => 4 | capability => 5
  | reservation => 6 | fabricEpoch => 7 | count => 8

structure AuthorityEntry where
  dimension : Dimension
  id : Text
  generation : Generation
  digestHex : Text
  epoch : FabricEpoch
  source : Text
  deriving DecidableEq, Repr

structure ObligationAssessment where
  kind : ObligationKind
  id : Text
  binding : Bool
  relaxable : Bool
  direction : CompareDirection
  aggregate : AggregateKind
  pathLevel : Bool
  requiredValue : UInt64
  effectiveLimit : UInt64
  composedValue : Option UInt64
  relaxationAppliedPpm : UInt32
  relaxationReportedOnly : Bool
  status : ObligationStatus
  bindingResource : Option Text
  weakestResource : Option Text
  headroomPpm : UInt32
  detail : Text
  deriving DecidableEq, Repr

structure ResourceAssessment where
  resource : Text
  diversityDomain : Text
  role : PathRole
  boundCapabilityGeneration : Generation
  observedCapabilityGeneration : Option Generation
  observedIncarnation : Option PublisherIncarnation
  status : ComponentStatus
  selfDeclaredDegraded : Bool
  reason : Text
  deriving DecidableEq, Repr

structure DegradationReason where
  kind : ObligationKind
  id : Text
  resource : Option Text
  relaxationPpm : UInt32
  reportedOnly : Bool
  detail : Text
  deriving DecidableEq, Repr

/-- `count` is the value past the scopes, which the decoders let through. -/
inductive ConflictScope where
  | «class» | policy | path | capability | reservation | count
  deriving DecidableEq, Repr

namespace ConflictScope

def value : ConflictScope → UInt8
  | .class => 0 | policy => 1 | path => 2 | capability => 3 | reservation => 4 | count => 5

def name : ConflictScope → Text
  | .class => text "class"
  | policy => text "policy"
  | path => text "path"
  | capability => text "capability"
  | reservation => text "reservation"
  | count => text "invalid"

end ConflictScope

structure ConflictMarker where
  scope : ConflictScope
  id : Text
  generation : Generation
  incumbentDigest : Digest256
  challengerDigest : Digest256
  epoch : FabricEpoch
  detail : Text
  deriving DecidableEq

structure ContractDecision where
  contract : Text
  contractGeneration : Generation
  outcome : Outcome
  classId : Text
  classGeneration : Generation
  classDigest : Digest256
  subject : Text
  subjectGeneration : Generation
  path : Text
  pathGeneration : Generation
  pathDigest : Digest256
  policy : Text
  policyGeneration : Generation
  policyDigest : Digest256
  priority : Text
  priorityGeneration : Generation
  fabricEpoch : FabricEpoch
  observedEpoch : FabricEpoch
  decidedAtMs : UInt64
  obligations : List ObligationAssessment
  resources : List ResourceAssessment
  degradations : List DegradationReason
  authority : List AuthorityEntry
  bindingObligation : Option ObligationKind
  bindingResource : Option Text
  unknownComponents : UInt32
  violatedObligations : UInt32
  unsatisfiedDiversityDomains : UInt32
  primaryReason : Text
  requestDigest : Digest256
  decisionDigest : Digest256
  provenance : Provenance
  deriving DecidableEq

/-! ## Canonical form -/

def tagDecision : UInt16 := 0x0201

section Encode

variable {limit : Nat}

def ByteWriter.optionalResource (w : ByteWriter limit) : Option Text → ByteWriter limit
  | none => w.presence false
  | some value => (w.presence true).ident value

def encodeAssessment (w : ByteWriter limit) (item : ObligationAssessment) : ByteWriter limit :=
  w.u8 item.kind.value
    |>.ident item.id
    |>.presence item.binding
    |>.presence item.relaxable
    |>.u8 item.direction.value
    |>.u8 item.aggregate.value
    |>.presence item.pathLevel
    |>.u64 item.requiredValue
    |>.u64 item.effectiveLimit
    |>.optionalU64 item.composedValue
    |>.u32 item.relaxationAppliedPpm
    |>.presence item.relaxationReportedOnly
    |>.u8 item.status.value
    |>.optionalResource item.bindingResource
    |>.optionalResource item.weakestResource
    |>.u32 item.headroomPpm
    |>.str item.detail Limits.maxDetailLen

def encodeResource (w : ByteWriter limit) (item : ResourceAssessment) : ByteWriter limit :=
  w.ident item.resource
    |>.ident item.diversityDomain
    |>.u8 item.role.value
    |>.u64 item.boundCapabilityGeneration
    |>.optionalU64 item.observedCapabilityGeneration
    |>.optionalU64 item.observedIncarnation
    |>.u8 item.status.value
    |>.presence item.selfDeclaredDegraded
    |>.str item.reason Limits.maxReasonLen

def encodeDegradation (w : ByteWriter limit) (item : DegradationReason) : ByteWriter limit :=
  w.u8 item.kind.value
    |>.ident item.id
    |>.optionalResource item.resource
    |>.u32 item.relaxationPpm
    |>.presence item.reportedOnly
    |>.str item.detail Limits.maxReasonLen

def encodeAuthority (w : ByteWriter limit) (item : AuthorityEntry) : ByteWriter limit :=
  w.u8 item.dimension.value
    |>.ident item.id
    |>.u64 item.generation
    |>.str item.digestHex 64
    |>.u64 item.epoch
    |>.str item.source Limits.maxOriginLen

def encodeBindingObligation (w : ByteWriter limit) : Option ObligationKind → ByteWriter limit
  | none => w.presence false
  | some kind => (w.presence true).u8 kind.value

def encodeDecision (value : ContractDecision) (w : ByteWriter limit) : ByteWriter limit :=
  let w := w.u16 tagDecision
    |>.u16 schemaVersion
    |>.ident value.contract
    |>.u64 value.contractGeneration
    |>.u8 value.outcome.value
    |>.ident value.classId
    |>.u64 value.classGeneration
    |>.digest value.classDigest
    |>.ident value.subject
    |>.u64 value.subjectGeneration
    |>.ident value.path
    |>.u64 value.pathGeneration
    |>.digest value.pathDigest
    |>.ident value.policy
    |>.u64 value.policyGeneration
    |>.digest value.policyDigest
    |>.ident value.priority
    |>.u64 value.priorityGeneration
    |>.u64 value.fabricEpoch
    |>.u64 value.observedEpoch
    |>.u64 value.decidedAtMs
    |>.counted value.obligations encodeAssessment
    |>.counted value.resources encodeResource
    |>.counted value.degradations encodeDegradation
    |>.counted value.authority encodeAuthority
  encodeBindingObligation w value.bindingObligation
    |>.optionalResource value.bindingResource
    |>.u32 value.unknownComponents
    |>.u32 value.violatedObligations
    |>.u32 value.unsatisfiedDiversityDomains
    |>.str value.primaryReason Limits.maxReasonLen
    |>.digest value.requestDigest
    |>.u64 value.provenance.epoch
    |>.str value.provenance.origin Limits.maxOriginLen

end Encode

def ContractDecision.computeDecisionDigest (value : ContractDecision) : Digest256 :=
  digestOfEncoding (encodeDecision value)

end QoSFabric
