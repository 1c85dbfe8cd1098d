import QoSFabric.Model.Decision

/-!
# Canonical decoding

The `canonical_decode` of the definitions and of a decision. A decoder stops at its first refusal;
a field that is read past the end of the record is zero until the next question whether the reader
has failed. A decoded definition is validated and its digest computed again.
-/

namespace QoSFabric

abbrev Decode (α : Type) := StateT ByteReader (Except Error) α

namespace Decode

variable {α : Type}

def read (p : Read α) : Decode α := fun r => .ok (p r)

def refuse (code : ErrorCode) (detail : String) : Decode α := fun _ => .error (makeError code detail)

def failed : Decode Bool := fun r => .ok (r.failed, r)

def sound (code : ErrorCode) (detail : String) : Decode Unit := do
  if ← failed then refuse code detail

def require (code : ErrorCode) (detail : String) : Option α → Decode α
  | none => refuse code detail
  | some a => pure a

def lift (result : Result α) : Decode α := fun r => result.map fun a => (a, r)

def times (item : Decode α) : Nat → Decode (List α)
  | 0 => pure []
  | n + 1 => do
      let head ← item
      let tail ← times item n
      pure (head :: tail)

end Decode

def ofRaw {α : Type} (members : List α) (value : α → UInt8) (raw : UInt8) : Option α :=
  members.find? fun member => value member == raw

def IsolationLevel.members : List IsolationLevel :=
  [.none, .shared, .queueIsolated, .resourceIsolated]

def TreatmentMode.members : List TreatmentMode :=
  [.bestEffort, .weightedFair, .rateLimited, .priorityQueue, .strictPriorityLowLatency]

def ViolationPolicy.members : List ViolationPolicy := [.reject, .degradeThenReject, .reportOnly]

def CapabilityState.members : List CapabilityState := [.unknown, .unavailable, .degraded, .available]

def PathRole.members : List PathRole := [.member, .primary, .protection]

def ObligationKind.members : List ObligationKind :=
  [.minRate, .maxRate, .peakRate, .latency, .jitter, .loss, .burstBytes, .burstInterval, .mtu,
    .isolation, .treatment, .priorityRank, .reservation, .disjointPaths, .predicate, .resourceState]

def CompareDirection.members : List CompareDirection := [.atLeast, .atMost]

def AggregateKind.members : List AggregateKind :=
  [.weakestLink, .additive, .lossCompose, .worstCase, .allPresent, .pathDiversity]

def Outcome.members : List Outcome :=
  [.supported, .supportedDegraded, .unknown, .unsupported, .stale, .conflict, .rejected]

def ObligationStatus.members : List ObligationStatus :=
  [.satisfied, .degraded, .violated, .unknown, .unavailable, .stale, .notApplicable]

def ComponentStatus.members : List ComponentStatus :=
  [.satisfied, .degraded, .unknown, .unavailable, .violated, .stale]

def Dimension.members : List Dimension :=
  [.class, .subject, .path, .policy, .priority, .capability, .reservation, .fabricEpoch, .count]

def ConflictScope.members : List ConflictScope :=
  [.class, .policy, .path, .capability, .reservation, .count]

/-! ## Fields -/

def decodeIdentifier (maxLen : Nat) : Decode Text := do
  let value ← .read (Read.str maxLen)
  .sound .malformed "identifier field truncated or over-long"
  if isValidIdentifier value maxLen then pure value
  else .refuse .invalidArgument "identifier outside canonical alphabet"

def decodeEnum {α : Type} (members : List α) (value : α → UInt8) (detail : String) : Decode α := do
  let raw ← .read Read.u8
  .sound .malformed detail
  .require .malformed detail (ofRaw members value raw)

def decodeOptional {α : Type} (value : Read α) (detail : String) : Decode (Option α) := do
  let present ← .read Read.presence
  .sound .malformed detail
  if present then
    let value ← .read value
    .sound .malformed detail
    pure (some value)
  else pure none

def decodeCount (maxCount : Nat) (detail : String) : Decode Nat := do
  let count ← .read (Read.count maxCount)
  .require .tooLarge detail count

def decodeDigest (detail : String) : Decode Digest256 := do
  let raw ← .read (Read.raw 32)
  match raw with
  | none => .refuse .malformed detail
  | some bytes => pure (.ofBuffer bytes)

def decodeProvenance (detail : String) : Decode Provenance := do
  let origin ← .read (Read.str Limits.maxOriginLen)
  let epoch ← .read Read.u64
  let generation ← .read Read.u64
  let sequence ← .read Read.u64
  .sound .malformed detail
  pure (.make origin epoch generation sequence)

def decodePredicates (maxCount : Nat) : Decode (List Text) := do
  let count ← decodeCount maxCount "predicate list exceeds structural budget"
  .times (decodeIdentifier Limits.maxPredicateKeyLen) count

def expectHeader (tag : UInt16) : Decode Unit := do
  let actualTag ← .read Read.u16
  let actualVersion ← .read Read.u16
  .sound .malformed "record header truncated"
  if actualTag ≠ tag then .refuse .versionMismatch "record type tag mismatch"
  else if actualVersion ≠ schemaVersion then
    .refuse .versionMismatch "record schema version mismatch"

/-! ## Definitions -/

def decodeQoSClass : Decode QoSClass := do
  expectHeader tagQoSClass
  let id ← decodeIdentifier Limits.maxIdentifierLen
  let generation ← .read Read.u64
  let label ← .read (Read.str Limits.maxLabelLen)
  let minRateBps ← decodeOptional Read.u64 "class numeric field malformed"
  let maxRateBps ← decodeOptional Read.u64 "class numeric field malformed"
  let peakRateBps ← decodeOptional Read.u64 "class numeric field malformed"
  let maxLatencyUs ← decodeOptional Read.u64 "class numeric field malformed"
  let maxJitterUs ← decodeOptional Read.u64 "class numeric field malformed"
  let maxLossPpm ← decodeOptional Read.u32 "class numeric field malformed"
  let burstBytes ← decodeOptional Read.u64 "class numeric field malformed"
  let burstIntervalUs ← decodeOptional Read.u64 "class numeric field malformed"
  let minMtuBytes ← decodeOptional Read.u64 "class numeric field malformed"
  let isolation ← decodeEnum IsolationLevel.members IsolationLevel.rank
    "class enum field out of range"
  let treatment ← decodeEnum TreatmentMode.members TreatmentMode.rank
    "class enum field out of range"
  let minPriorityRank ← .read Read.u32
  let minDisjointPaths ← .read Read.u32
  let requiresReservation ← .read Read.presence
  let requiredPredicates ← decodePredicates Limits.maxRequiredPredicates
  let allowDegrade ← .read Read.presence
  let degradeMaxRelaxationPpm ← .read Read.u32
  let violationPolicy ← decodeEnum ViolationPolicy.members ViolationPolicy.value
    "violation policy out of range"
  let publishedEpoch ← .read Read.u64
  let provenance ← decodeProvenance "class provenance malformed"
  .sound .malformed "class record truncated"
  let value : QoSClass := {
    id, generation, label, minRateBps, maxRateBps, peakRateBps, maxLatencyUs, maxJitterUs,
    maxLossPpm, burstBytes, burstIntervalUs, minMtuBytes, isolation, treatment, minPriorityRank,
    minDisjointPaths, requiresReservation, requiredPredicates, allowDegrade,
    degradeMaxRelaxationPpm, violationPolicy, publishedEpoch, digest := .zero, provenance }
  let value := { value with digest := value.computeDigest }
  .lift (validateQoSClass value)
  pure value

def decodePolicy : Decode Policy := do
  expectHeader tagPolicy
  let id ← decodeIdentifier Limits.maxIdentifierLen
  let generation ← .read Read.u64
  let label ← .read (Read.str Limits.maxLabelLen)
  let degradePermitted ← .read Read.presence
  let maxRelaxationPpm ← .read Read.u32
  let maxStaleEpochs ← .read Read.u32
  let capabilityMaxAgeMs ← .read Read.u64
  let maxUnknownComponents ← .read Read.u32
  let requiredPredicates ← decodePredicates Limits.maxRequiredPredicates
  let deniedCount ← decodeCount Limits.maxClassesRetained "denied class list exceeds budget"
  let deniedClasses ← .times (decodeIdentifier Limits.maxIdentifierLen) deniedCount
  let publishedEpoch ← .read Read.u64
  let provenance ← decodeProvenance "policy provenance malformed"
  .sound .malformed "policy record truncated"
  let value : Policy := {
    id, generation, label, degradePermitted, maxRelaxationPpm, maxStaleEpochs, capabilityMaxAgeMs,
    maxUnknownComponents, requiredPredicates, deniedClasses, publishedEpoch, digest := .zero,
    provenance }
  let value := { value with digest := value.computeDigest }
  .lift (validatePolicy value)
  pure value

def decodeComponent : Decode PathComponent := do
  let resource ← decodeIdentifier Limits.maxIdentifierLen
  let capabilityGeneration ← .read Read.u64
  let diversityDomain ← decodeIdentifier Limits.maxIdentifierLen
  let role ← decodeEnum PathRole.members PathRole.value "path role out of range"
  pure { resource, capabilityGeneration, diversityDomain, role }

def decodePath : Decode Path := do
  expectHeader tagPath
  let id ← decodeIdentifier Limits.maxIdentifierLen
  let generation ← .read Read.u64
  let count ← decodeCount Limits.maxPathComponents "path component count exceeds budget"
  let components ← .times decodeComponent count
  let fixedLatencyUs ← .read Read.u64
  let fixedJitterUs ← .read Read.u64
  let epoch ← .read Read.u64
  let provenance ← decodeProvenance "path provenance malformed"
  .sound .malformed "path record truncated"
  let value : Path := {
    id, generation, components, fixedLatencyUs, fixedJitterUs, epoch, digest := .zero, provenance }
  let value := { value with digest := value.computeDigest }
  .lift (validatePath value)
  pure value

def decodeCapability : Decode ResourceCapability := do
  expectHeader tagCapability
  let resource ← decodeIdentifier Limits.maxIdentifierLen
  let generation ← .read Read.u64
  let epoch ← .read Read.u64
  let publisher ← decodeIdentifier Limits.maxIdentifierLen
  let incarnation ← .read Read.u64
  let publishedAtMs ← .read Read.u64
  let expiresAtMs ← .read Read.u64
  let state ← decodeEnum CapabilityState.members CapabilityState.value
    "capability state out of range"
  let supportedRateBps ← decodeOptional Read.u64 "capability numeric field malformed"
  let latencyBoundUs ← decodeOptional Read.u64 "capability numeric field malformed"
  let jitterBoundUs ← decodeOptional Read.u64 "capability numeric field malformed"
  let lossPpm ← decodeOptional Read.u32 "capability numeric field malformed"
  let maxBurstBytes ← decodeOptional Read.u64 "capability numeric field malformed"
  let burstWindowUs ← decodeOptional Read.u64 "capability numeric field malformed"
  let mtuBytes ← decodeOptional Read.u64 "capability numeric field malformed"
  let maxIsolation ← decodeEnum IsolationLevel.members IsolationLevel.rank
    "capability enum field out of range"
  let maxTreatment ← decodeEnum TreatmentMode.members TreatmentMode.rank
    "capability enum field out of range"
  let maxPriorityRank ← .read Read.u32
  let predicates ← decodePredicates Limits.maxCapabilityPredicates
  let diversityDomain ← decodeIdentifier Limits.maxIdentifierLen
  let provenance ← decodeProvenance "capability provenance malformed"
  .sound .malformed "capability record truncated"
  let value : ResourceCapability := {
    resource, generation, epoch, publisher, incarnation, publishedAtMs, expiresAtMs, state,
    supportedRateBps, latencyBoundUs, jitterBoundUs, lossPpm, maxBurstBytes, burstWindowUs,
    mtuBytes, maxIsolation, maxTreatment, maxPriorityRank, predicates, diversityDomain,
    digest := .zero, provenance }
  let value := { value with digest := value.computeDigest }
  .lift (validateCapability value)
  pure value

def decodeReservation : Decode Reservation := do
  expectHeader tagReservation
  let resource ← decodeIdentifier Limits.maxIdentifierLen
  let generation ← .read Read.u64
  let classId ← decodeIdentifier Limits.maxIdentifierLen
  let classGeneration ← .read Read.u64
  let reservedMinRateBps ← .read Read.u64
  let reservedBurstBytes ← .read Read.u64
  let epoch ← .read Read.u64
  let publisher ← decodeIdentifier Limits.maxIdentifierLen
  let incarnation ← .read Read.u64
  let expiresAtMs ← .read Read.u64
  let provenance ← decodeProvenance "reservation provenance malformed"
  .sound .malformed "reservation record truncated"
  let value : Reservation := {
    resource, generation, classId, classGeneration, reservedMinRateBps, reservedBurstBytes, epoch,
    publisher, incarnation, expiresAtMs, digest := .zero, provenance }
  let value := { value with digest := value.computeDigest }
  .lift (validateReservation value)
  pure value

def decodeRequest : Decode ContractRequest := do
  expectHeader tagRequest
  let contract ← decodeIdentifier Limits.maxIdentifierLen
  let contractGeneration ← .read Read.u64
  let subject ← decodeIdentifier Limits.maxIdentifierLen
  let subjectGeneration ← .read Read.u64
  let classId ← decodeIdentifier Limits.maxIdentifierLen
  let classGeneration ← .read Read.u64
  let path ← decodeIdentifier Limits.maxIdentifierLen
  let pathGeneration ← .read Read.u64
  let policy ← decodeIdentifier Limits.maxIdentifierLen
  let policyGeneration ← .read Read.u64
  let priority ← decodeIdentifier Limits.maxIdentifierLen
  let priorityGeneration ← .read Read.u64
  let observedEpoch ← .read Read.u64
  let requestMs ← .read Read.u64
  let provenance ← decodeProvenance "request provenance malformed"
  .sound .malformed "request record truncated"
  let value : ContractRequest := {
    contract, contractGeneration, subject, subjectGeneration, classId, classGeneration, path,
    pathGeneration, policy, policyGeneration, priority, priorityGeneration, observedEpoch,
    requestMs, provenance }
  .lift (validateRequest value)
  pure value

/-! ## Decisions -/

def readIdentifier : Decode Text := .read (Read.str Limits.maxIdentifierLen)

def decodeAssessment : Decode ObligationAssessment := do
  let kind ← .read Read.u8
  let id ← readIdentifier
  let binding ← .read Read.presence
  let relaxable ← .read Read.presence
  let direction ← .read Read.u8
  let aggregate ← .read Read.u8
  let pathLevel ← .read Read.presence
  let requiredValue ← .read Read.u64
  let effectiveLimit ← .read Read.u64
  let composedValue ← decodeOptional Read.u64 "decision obligation value is malformed"
  let relaxationAppliedPpm ← .read Read.u32
  let relaxationReportedOnly ← .read Read.presence
  let status ← .read Read.u8
  .sound .malformed "decision obligation fields are out of range"
  let kind ← .require .malformed "decision obligation fields are out of range"
    (ofRaw ObligationKind.members ObligationKind.value kind)
  let direction ← .require .malformed "decision obligation fields are out of range"
    (ofRaw CompareDirection.members CompareDirection.value direction)
  let aggregate ← .require .malformed "decision obligation fields are out of range"
    (ofRaw AggregateKind.members AggregateKind.value aggregate)
  let status ← .require .malformed "decision obligation fields are out of range"
    (ofRaw ObligationStatus.members ObligationStatus.value status)
  let bindingResource ← decodeOptional (Read.str Limits.maxIdentifierLen)
    "decision obligation resource is malformed"
  let weakestResource ← decodeOptional (Read.str Limits.maxIdentifierLen)
    "decision obligation resource is malformed"
  let headroomPpm ← .read Read.u32
  let detail ← .read (Read.str Limits.maxDetailLen)
  .sound .malformed "decision obligation record is truncated"
  pure {
    kind, id, binding, relaxable, direction, aggregate, pathLevel, requiredValue, effectiveLimit,
    composedValue, relaxationAppliedPpm, relaxationReportedOnly, status, bindingResource,
    weakestResource, headroomPpm, detail }

def decodeResource : Decode ResourceAssessment := do
  let resource ← readIdentifier
  let diversityDomain ← readIdentifier
  let role ← .read Read.u8
  let boundCapabilityGeneration ← .read Read.u64
  let observedCapabilityGeneration ← decodeOptional Read.u64
    "decision resource fields are malformed"
  let observedIncarnation ← decodeOptional Read.u64 "decision resource fields are malformed"
  let status ← .read Read.u8
  let selfDeclaredDegraded ← .read Read.presence
  let reason ← .read (Read.str Limits.maxReasonLen)
  .sound .malformed "decision resource fields are out of range"
  let role ← .require .malformed "decision resource fields are out of range"
    (ofRaw PathRole.members PathRole.value role)
  let status ← .require .malformed "decision resource fields are out of range"
    (ofRaw ComponentStatus.members ComponentStatus.value status)
  pure {
    resource, diversityDomain, role, boundCapabilityGeneration, observedCapabilityGeneration,
    observedIncarnation, status, selfDeclaredDegraded, reason }

def decodeDegradation : Decode DegradationReason := do
  let kind ← .read Read.u8
  let id ← readIdentifier
  let resource ← decodeOptional (Read.str Limits.maxIdentifierLen)
    "decision degradation resource is malformed"
  let relaxationPpm ← .read Read.u32
  let reportedOnly ← .read Read.presence
  let detail ← .read (Read.str Limits.maxReasonLen)
  .sound .malformed "decision degradation fields are out of range"
  let kind ← .require .malformed "decision degradation fields are out of range"
    (ofRaw ObligationKind.members ObligationKind.value kind)
  pure { kind, id, resource, relaxationPpm, reportedOnly, detail }

def decodeAuthority : Decode AuthorityEntry := do
  let dimension ← .read Read.u8
  let id ← readIdentifier
  let generation ← .read Read.u64
  let digestHex ← .read (Read.str 64)
  let epoch ← .read Read.u64
  let source ← .read (Read.str Limits.maxOriginLen)
  .sound .malformed "decision authority entry is malformed"
  let dimension ← .require .malformed "decision authority entry is malformed"
    (ofRaw Dimension.members Dimension.value dimension)
  pure { dimension, id, generation, digestHex, epoch, source }

def decodeBindingObligation : Decode (Option ObligationKind) := do
  let present ← .read Read.presence
  .sound .malformed "decision binding obligation is malformed"
  if present then
    let kind ← decodeEnum ObligationKind.members ObligationKind.value
      "decision binding obligation is malformed"
    pure (some kind)
  else pure none

def decodeTable {α : Type} (maxCount : Nat) (detail : String) (item : Decode α) :
    Decode (List α) := do
  let count ← decodeCount maxCount detail
  .times item count

def atEnd : Decode Bool := fun r => .ok (r.atEnd, r)

def decodeDecision : Decode ContractDecision := do
  let tag ← .read Read.u16
  let version ← .read Read.u16
  .sound .versionMismatch "decision record schema is not supported"
  if tag ≠ tagDecision ∨ version ≠ schemaVersion then
    .refuse .versionMismatch "decision record schema is not supported"
  else
  let contract ← readIdentifier
  let contractGeneration ← .read Read.u64
  let outcome ← decodeEnum Outcome.members Outcome.value "decision outcome is out of range"
  let classId ← readIdentifier
  let classGeneration ← .read Read.u64
  let classDigest ← decodeDigest "decision class digest is malformed"
  let subject ← readIdentifier
  let subjectGeneration ← .read Read.u64
  let path ← readIdentifier
  let pathGeneration ← .read Read.u64
  let pathDigest ← decodeDigest "decision path digest is malformed"
  let policy ← readIdentifier
  let policyGeneration ← .read Read.u64
  let policyDigest ← decodeDigest "decision policy digest is malformed"
  let priority ← readIdentifier
  let priorityGeneration ← .read Read.u64
  let fabricEpoch ← .read Read.u64
  let observedEpoch ← .read Read.u64
  let decidedAtMs ← .read Read.u64
  .sound .malformed "decision header is truncated"
  let obligations ← decodeTable Limits.maxObligations
    "decision obligation table exceeds its budget" decodeAssessment
  let resources ← decodeTable Limits.maxPathComponents
    "decision resource table exceeds its budget" decodeResource
  let degradations ← decodeTable Limits.maxDegradations
    "decision degradation table exceeds its budget" decodeDegradation
  let authority ← decodeTable Limits.maxAuthorityEntries
    "decision authority table exceeds its budget" decodeAuthority
  let bindingObligation ← decodeBindingObligation
  let bindingResource ← decodeOptional (Read.str Limits.maxIdentifierLen)
    "decision binding resource is malformed"
  let unknownComponents ← .read Read.u32
  let violatedObligations ← .read Read.u32
  let unsatisfiedDiversityDomains ← .read Read.u32
  let primaryReason ← .read (Read.str Limits.maxReasonLen)
  let requestDigest ← decodeDigest "decision request digest is malformed"
  let epoch ← .read Read.u64
  let origin ← .read (Read.str Limits.maxOriginLen)
  .sound .malformed "decision record is truncated"
  if ← atEnd then
    pure {
      contract, contractGeneration, outcome, classId, classGeneration, classDigest, subject,
      subjectGeneration, path, pathGeneration, pathDigest, policy, policyGeneration, policyDigest,
      priority, priorityGeneration, fabricEpoch, observedEpoch, decidedAtMs, obligations, resources,
      degradations, authority, bindingObligation, bindingResource, unknownComponents,
      violatedObligations, unsatisfiedDiversityDomains, primaryReason, requestDigest,
      decisionDigest := .zero, provenance := .make origin epoch 1 1 }
  else .refuse .malformed "decision record carries trailing bytes"

end QoSFabric
