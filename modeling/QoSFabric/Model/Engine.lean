import QoSFabric.Model.Compose

/-!
# Evaluation

The phases of `evaluate`, each a function of the inputs and of the findings made so far.
-/

namespace QoSFabric

structure CurrencyVector where
  latestClassGeneration : Option Generation
  latestPolicyGeneration : Option Generation
  latestPathGeneration : Option Generation
  deriving DecidableEq

structure EvaluationInputs where
  request : ContractRequest
  klass : QoSClass
  policy : Policy
  path : Path
  capabilities : List (Option ResourceCapability)
  reservations : List (Option Reservation)
  currency : CurrencyVector
  conflicts : List ConflictMarker
  currentEpoch : FabricEpoch
  nowMs : UInt64
  evaluator : Text
  deriving DecidableEq

/-- The outcome merged so far and the first reason noted. -/
structure Findings where
  outcome : Outcome
  reason : Text
  deriving DecidableEq

namespace Findings

def clean : Findings := ⟨.supported, []⟩

def note (f : Findings) (reason : Text) : Findings :=
  if f.reason.isEmpty then { f with reason := shortText reason } else f

def merge (f : Findings) (outcome : Outcome) : Findings :=
  { f with outcome := f.outcome.dominant outcome }

def find (f : Findings) (condition : Bool) (outcome : Outcome) (reason : Text) : Findings :=
  if condition then (f.note reason).merge outcome else f

def check (f : Findings) (label : String) (result : Result Unit) : Findings :=
  match result with
  | .ok () => f
  | .error error => (f.note (text label ++ error.detail)).merge .rejected

end Findings

/-! ## 1. Structural validation -/

def pinned (requested resolved : Generation) : Bool :=
  requested != 0 && requested != resolved

def intake (inputs : EvaluationInputs) : Findings :=
  Findings.clean
    |>.check "request invalid: " (validateRequest inputs.request)
    |>.check "class invalid: " (validateQoSClass inputs.klass)
    |>.check "policy invalid: " (validatePolicy inputs.policy)
    |>.check "path invalid: " (validatePath inputs.path)
    |>.find (inputs.klass.id != inputs.request.classId) .rejected
      (text "resolved class does not match the requested class identifier")
    |>.find (inputs.policy.id != inputs.request.policy) .rejected
      (text "resolved policy does not match the requested policy identifier")
    |>.find (inputs.path.id != inputs.request.path) .rejected
      (text "resolved path does not match the requested path identifier")
    |>.find (pinned inputs.request.classGeneration inputs.klass.generation) .rejected
      (text "resolved class generation does not match the requested generation")
    |>.find (pinned inputs.request.policyGeneration inputs.policy.generation) .rejected
      (text "resolved policy generation does not match the requested generation")
    |>.find (pinned inputs.request.pathGeneration inputs.path.generation) .rejected
      (text "resolved path generation does not match the requested generation")
    |>.find (inputs.capabilities.length != inputs.path.components.length) .rejected
      (text "capability vector does not cover every path component")
    |>.find (!inputs.reservations.isEmpty &&
        inputs.reservations.length != inputs.path.components.length) .rejected
      (text "reservation vector does not cover every path component")

/-! ## 2. Conflicts -/

def markerApplies (inputs : EvaluationInputs) (marker : ConflictMarker) : Bool :=
  match marker.scope with
  | .class => marker.id == inputs.klass.id
  | .policy => marker.id == inputs.policy.id
  | .path => marker.id == inputs.path.id
  | .capability | .reservation =>
      inputs.path.components.any fun component => marker.id == component.resource
  | .count => false

def markerText (marker : ConflictMarker) : Text :=
  text "equivocated " ++ marker.scope.name ++ text " definition " ++ marker.id ++ text "@" ++
    decimal marker.generation.toNat

def conflicts (inputs : EvaluationInputs) (f : Findings) : Findings :=
  let f := f.find (inputs.policy.deniedClasses.any (· == inputs.klass.id)) .conflict
    (text "policy denies the referenced service class")
  match inputs.conflicts.find? (markerApplies inputs) with
  | none => f
  | some marker => (f.note (markerText marker)).merge .conflict

/-! ## 3. Per-component resolution -/

def unresolved (index : Nat) (component : PathComponent) (reservation : Option Reservation) :
    Resolution where
  index := index
  resource := component.resource
  declaredDomain := component.diversityDomain
  role := component.role
  boundGeneration := component.capabilityGeneration
  status := .unknown
  capability := none
  reservation := reservation
  observedGeneration := none
  observedIncarnation := none
  selfDeclaredDegraded := false
  domainContradiction := false
  reason := []

def invalidation (policy : Policy) (currentEpoch : FabricEpoch) (nowMs : UInt64)
    (component : PathComponent) (capability : ResourceCapability) :
    Option (ComponentStatus × Text) :=
  if capability.resource ≠ component.resource then
    some (.unknown, text "capability record names a different resource")
  else if capability.generation ≠ component.capabilityGeneration then
    some (.stale, text "capability generation differs from the generation the path bound")
  else if epochBehind capability.epoch policy currentEpoch then
    some (.stale, text "capability epoch is behind the fabric epoch")
  else if capability.expiresAtMs ≠ 0 ∧ nowMs > capability.expiresAtMs then
    some (.stale, text "capability declaration has expired")
  else if capability.publishedAtMs > nowMs then
    some (.stale, text "capability declaration is dated in the future")
  else if nowMs - capability.publishedAtMs > policy.capabilityMaxAgeMs then
    some (.stale, text "capability declaration is older than the policy freshness window")
  else if capability.state = .unavailable then
    some (.unavailable, text "resource declared itself unavailable")
  else if capability.state = .unknown then
    some (.unknown, text "resource declared an unknown state")
  else none

def contradictsDomain (component : PathComponent) (capability : ResourceCapability) : Bool :=
  !capability.diversityDomain.isEmpty && capability.diversityDomain != component.diversityDomain

def resolveComponent (policy : Policy) (currentEpoch : FabricEpoch) (nowMs : UInt64)
    (index : Nat) (component : PathComponent) (slot : Option ResourceCapability)
    (reservation : Option Reservation) : Resolution :=
  let base := unresolved index component reservation
  match slot with
  | none => { base with reason := text "no capability evidence is held for this resource" }
  | some capability =>
      let seen := { base with
        capability := some capability
        observedGeneration := some capability.generation
        observedIncarnation := some capability.incarnation }
      match invalidation policy currentEpoch nowMs component capability with
      | some (status, reason) => { seen with status := status, reason := reason }
      | none =>
          let degraded := capability.state == .degraded
          if contradictsDomain component capability then
            { seen with
              selfDeclaredDegraded := degraded
              domainContradiction := true
              status := .violated
              reason := text "path and resource disagree about the failure domain" }
          else
            { seen with
              selfDeclaredDegraded := degraded
              status := if degraded then .degraded else .satisfied }

def resolveAt (inputs : EvaluationInputs) (component : PathComponent) (index : Nat) : Resolution :=
  resolveComponent inputs.policy inputs.currentEpoch inputs.nowMs index component
    (inputs.capabilities.getD index none) (inputs.reservations.getD index none)

def resolve (inputs : EvaluationInputs) : List Resolution :=
  inputs.path.components.zipIdx.map fun (component, index) => resolveAt inputs component index

def contradictions (resolutions : List Resolution) (f : Findings) : Findings :=
  resolutions.foldl (fun f resolution =>
    f.find resolution.domainContradiction .conflict
      (text "failure-domain contradiction for resource " ++ resolution.resource)) f

/-! ## 4. Currency -/

def superseded (latest : Option Generation) (generation : Generation) : Bool :=
  latest.any (· != generation)

def currency (inputs : EvaluationInputs) (f : Findings) : Findings :=
  f.find (superseded inputs.currency.latestClassGeneration inputs.klass.generation) .stale
      (text "class generation has been superseded")
    |>.find (superseded inputs.currency.latestPolicyGeneration inputs.policy.generation) .stale
      (text "policy generation has been superseded")
    |>.find (superseded inputs.currency.latestPathGeneration inputs.path.generation) .stale
      (text "path generation has been superseded")
    |>.find (inputs.request.observedEpoch != 0 &&
        epochBehind inputs.request.observedEpoch inputs.policy inputs.currentEpoch) .stale
      (text "request observed an epoch that is behind the current fabric epoch")

/-! ## 5. Obligation composition -/

def degradationPermitted (klass : QoSClass) (policy : Policy) : Bool :=
  klass.allowDegrade && policy.degradePermitted && klass.violationPolicy != .reject

def relaxationWindow (klass : QoSClass) (policy : Policy) : UInt32 :=
  if degradationPermitted klass policy then
    min klass.degradeMaxRelaxationPpm policy.maxRelaxationPpm
  else 0

def reportOnly (klass : QoSClass) (policy : Policy) : Bool :=
  klass.violationPolicy == .reportOnly && klass.allowDegrade && policy.degradePermitted

def relaxationDelta (required : UInt64) (window : UInt32) : Option UInt64 :=
  (checkedMul required window.toUInt64).map (· / ppm)

def effectiveLimit (direction : CompareDirection) (required delta : UInt64) : UInt64 :=
  match direction with
  | .atLeast => required - min delta required
  | .atMost => required + delta

inductive Qualification where
  | qualified | missingEvidence | disqualified
  deriving DecidableEq, Repr

def qualifiesFor (inputs : EvaluationInputs) (resolution : Resolution) (other : ObligationPlan) :
    Qualification :=
  let klass := inputs.klass
  let policy := inputs.policy
  let value := componentValue other resolution klass policy inputs.currentEpoch inputs.nowMs
  let direction := other.kind.direction
  if !value.present then .missingEvidence
  else if other.kind = .resourceState then .qualified
  else if compliant direction value.value other.required then .qualified
  else if !other.kind.relaxable || !degradationPermitted klass policy then .disqualified
  else match relaxationDelta other.required (relaxationWindow klass policy) with
    | none => .disqualified
    | some delta =>
        if compliant direction value.value (effectiveLimit direction other.required delta) ||
            reportOnly klass policy then .qualified
        else .disqualified

def qualify (inputs : EvaluationInputs) (resolution : Resolution) :
    List ObligationPlan → Qualification
  | [] => .qualified
  | other :: rest =>
      if other.kind = .disjointPaths then qualify inputs resolution rest
      else match qualifiesFor inputs resolution other with
        | .qualified => qualify inputs resolution rest
        | finding => finding

/-- The domains of the components that qualify, and whether evidence is still missing. -/
structure Diversity where
  domains : List Text
  anyUnknown : Bool
  deriving DecidableEq, Repr

def countDomain (inputs : EvaluationInputs) (plan : List ObligationPlan) (d : Diversity)
    (resolution : Resolution) : Diversity :=
  if resolution.status = .unknown then { d with anyUnknown := true }
  else if resolution.status ≠ .satisfied ∧ resolution.status ≠ .degraded then d
  else match qualify inputs resolution plan with
    | .qualified =>
        if d.domains.contains resolution.declaredDomain then d
        else { d with domains := d.domains ++ [resolution.declaredDomain] }
    | .missingEvidence => { d with anyUnknown := true }
    | .disqualified => d

def diversity (inputs : EvaluationInputs) (plan : List ObligationPlan)
    (resolutions : List Resolution) : Diversity :=
  resolutions.foldl (countDomain inputs plan) ⟨[], false⟩

def diversityFloor (required : UInt64) (window : UInt32) : UInt64 :=
  let delta := (checkedMul required window.toUInt64).getD 0 / ppm
  let floorValue := required - min delta (required - 1)
  if floorValue < 1 then 1 else floorValue

def assessDiversity (inputs : EvaluationInputs) (plan : List ObligationPlan)
    (resolutions : List Resolution) (item : ObligationPlan) : ObligationAssessment :=
  let found := diversity inputs plan resolutions
  let count := UInt64.ofNat found.domains.length
  let required := item.required
  let ofRequired := decimal count.toNat ++ text " of " ++ decimal required.toNat
  let a := { item.assessment with composedValue := some count }
  if count ≥ required then
    { a with
      status := .satisfied
      headroomPpm := computeHeadroom .atLeast required count
      detail := shortText (decimal count.toNat ++ text " disjoint domains available") }
  else if found.anyUnknown then
    { a with
      status := .unknown
      detail := text "diversity cannot be concluded while a required component offers no evidence" }
  else if degradationPermitted inputs.klass inputs.policy then
    let floorValue := diversityFloor required (relaxationWindow inputs.klass inputs.policy)
    if count ≥ floorValue then
      let reference := if required = 0 then 1 else required
      { a with
        status := .degraded
        effectiveLimit := floorValue
        relaxationAppliedPpm := min 1000000 ((relativePpm reference (reference - count)).getD 1000000)
        detail := shortText (ofRequired ++
          text " disjoint domains, inside the permitted window") }
    else if reportOnly inputs.klass inputs.policy then
      { a with
        status := .degraded
        relaxationReportedOnly := true
        effectiveLimit := count
        relaxationAppliedPpm := 1000000
        detail := shortText (ofRequired ++
          text " disjoint domains reported under a report-only policy") }
    else
      { a with
        status := .violated
        detail := shortText (ofRequired ++
          text " disjoint domains, outside the permitted window") }
  else
    { a with
      status := .violated
      detail := shortText (ofRequired ++ text " required disjoint domains") }

/-- The component status that keeps an obligation from being composed, with the resource blamed:
the last stale one, else the first unavailable or contradictory one, else the first unknown one. -/
def blocked (resolutions : List Resolution) : Option (ObligationStatus × Resolution) :=
  match resolutions.reverse.find? (·.status == .stale) with
  | some resolution => some (.stale, resolution)
  | none =>
      match resolutions.find? fun r => r.status == .unavailable || r.status == .violated with
      | some resolution => some (.unavailable, resolution)
      | none =>
          (resolutions.find? (·.status == .unknown)).map fun resolution => (.unknown, resolution)

def blame (a : ObligationAssessment) (status : ObligationStatus) (resource : Text)
    (detail : Text) : ObligationAssessment :=
  { a with
    status := status
    bindingResource := some resource
    weakestResource := some resource
    detail := shortText detail }

def scratchValue (inputs : EvaluationInputs) (item : ObligationPlan) (resolution : Resolution) :
    RawValue :=
  match resolution.status with
  | .satisfied | .degraded =>
      componentValue item resolution inputs.klass inputs.policy inputs.currentEpoch inputs.nowMs
  | _ => .absent

def scratch (inputs : EvaluationInputs) (resolutions : List Resolution) (item : ObligationPlan) :
    List RawValue :=
  resolutions.map (scratchValue inputs item)

def resourceAt (resolutions : List Resolution) (index : Nat) : Option Text :=
  resolutions[index]?.map Resolution.resource

def worstState : List RawValue → Nat → UInt64 × Nat → UInt64 × Nat
  | [], _, worst => worst
  | value :: rest, index, worst =>
      worstState rest (index + 1)
        (if value.present && value.value < worst.1 then (value.value, index) else worst)

def assessState (inputs : EvaluationInputs) (resolutions : List Resolution)
    (item : ObligationPlan) : ObligationAssessment :=
  let (worst, worstIndex) :=
    worstState (scratch inputs resolutions item) 0 (stateAvailable, 0)
  let degradedSeen := resolutions.any Resolution.selfDeclaredDegraded
  let resource := resourceAt resolutions worstIndex
  let a := { item.assessment with bindingResource := resource, weakestResource := resource }
  match blocked resolutions with
  | some (status, resolution) => blame a status resolution.resource resolution.reason
  | none =>
      let a := { a with composedValue := some worst }
      if worst ≥ stateAvailable then
        { a with status := .satisfied, headroomPpm := 1000000 }
      else if degradationPermitted inputs.klass inputs.policy && degradedSeen then
        { a with
          status := .degraded
          effectiveLimit := worst
          detail := shortText (resource.getD [] ++ text " declared a degraded capability state") }
      else
        { a with
          status := .violated
          detail := if degradedSeen then
              text "a required resource declared a degraded state with no permitted degradation"
            else text "a required resource did not declare an available state" }

def fixedOverhead (path : Path) (kind : ObligationKind) : UInt64 :=
  match kind with
  | .latency => path.fixedLatencyUs
  | .jitter => path.fixedJitterUs
  | _ => 0

def assessShortfall (inputs : EvaluationInputs) (a : ObligationAssessment) (composed : UInt64) :
    ObligationAssessment :=
  let window := relaxationWindow inputs.klass inputs.policy
  if !a.relaxable then
    { a with
      status := .violated
      detail := text "structural requirement is not met and is never relaxable" }
  else if !degradationPermitted inputs.klass inputs.policy || window == 0 then
    { a with
      status := .violated
      detail := text "no degradation permission covers this obligation" }
  else match relaxationDelta a.requiredValue window with
    | none => { a with status := .violated, detail := text "relaxation window overflowed" }
    | some delta =>
        let effective := QoSFabric.effectiveLimit a.direction a.requiredValue delta
        let shortfall := match a.direction with
          | .atLeast => a.requiredValue - composed
          | .atMost => composed - a.requiredValue
        let applied := (relativePpm a.requiredValue shortfall).getD 1000000
        if compliant a.direction composed effective then
          { a with
            status := .degraded
            effectiveLimit := effective
            relaxationAppliedPpm := applied
            detail := text "requirement met inside the permitted relaxation window" }
        else if reportOnly inputs.klass inputs.policy then
          { a with
            status := .degraded
            relaxationReportedOnly := true
            effectiveLimit := composed
            relaxationAppliedPpm := applied
            detail := text "violation reported under a report-only violation policy" }
        else
          { a with
            status := .violated
            effectiveLimit := effective
            detail := text "shortfall exceeds the permitted relaxation window" }

/-- An assessment, and whether its composition overflowed. -/
structure Assessed where
  assessment : ObligationAssessment
  overflowed : Bool
  deriving DecidableEq, Repr

def assessComposition (inputs : EvaluationInputs) (resolutions : List Resolution)
    (item : ObligationPlan) (composition : Composition) : Assessed :=
  let a := item.assessment
  if composition.overflow then
    ⟨{ a with status := .unknown, detail := text "aggregation overflow" }, true⟩
  else match composition.value with
    | none => ⟨{ a with status := .unknown, detail := shortText composition.detail }, false⟩
    | some composed =>
        let a := { a with
          composedValue := some composed
          bindingResource := resourceAt resolutions composition.bindingIndex
          weakestResource := resourceAt resolutions composition.weakestIndex }
        if compliant a.direction composed a.requiredValue then
          ⟨{ a with
            status := .satisfied
            headroomPpm := computeHeadroom a.direction a.requiredValue composed }, false⟩
        else ⟨assessShortfall inputs a composed, false⟩

def assessOrdinary (inputs : EvaluationInputs) (resolutions : List Resolution)
    (item : ObligationPlan) : Assessed :=
  match blocked resolutions with
  | some (status, resolution) =>
      ⟨blame item.assessment status resolution.resource resolution.reason, false⟩
  | none =>
      let values := scratch inputs resolutions item
      match values.findIdx? (!·.present) with
      | some i =>
          ⟨blame item.assessment .unknown ((resourceAt resolutions i).getD [])
            (values.getD i .absent).detail, false⟩
      | none =>
          assessComposition inputs resolutions item
            (composeValues item.kind.aggregate values (fixedOverhead inputs.path item.kind))

def assess (inputs : EvaluationInputs) (plan : List ObligationPlan)
    (resolutions : List Resolution) (item : ObligationPlan) : Assessed :=
  match item.kind with
  | .disjointPaths => ⟨assessDiversity inputs plan resolutions item, false⟩
  | .resourceState => ⟨assessState inputs resolutions item, false⟩
  | _ => assessOrdinary inputs resolutions item

def overflows (assessed : List Assessed) (f : Findings) : Findings :=
  assessed.foldl (fun f item =>
    f.find item.overflowed .rejected
      (text "end-to-end aggregation overflowed the representable domain")) f

def unsatisfiedDomains (obligations : List ObligationAssessment) : UInt32 :=
  obligations.foldl (fun unsatisfied a =>
    let count := a.composedValue.getD 0
    if a.pathLevel && count < a.requiredValue then (a.requiredValue - count).toUInt32
    else unsatisfied) 0

/-! ## 6. Roll-up -/

def Resolution.assessment (resolution : Resolution) : ResourceAssessment where
  resource := resolution.resource
  diversityDomain := resolution.declaredDomain
  role := resolution.role
  boundCapabilityGeneration := resolution.boundGeneration
  observedCapabilityGeneration := resolution.observedGeneration
  observedIncarnation := resolution.observedIncarnation
  status := resolution.status
  selfDeclaredDegraded := resolution.selfDeclaredDegraded
  reason := shortText resolution.reason

def ObligationStatus.outcome : ObligationStatus → Outcome
  | satisfied | notApplicable => .supported
  | degraded => .supportedDegraded
  | violated | unavailable => .unsupported
  | unknown => .unknown
  | stale => .stale

def rollUp (obligations : List ObligationAssessment) (f : Findings) : Findings :=
  obligations.foldl (fun f a => f.merge a.status.outcome) f

def degradationOf (a : ObligationAssessment) : DegradationReason where
  kind := a.kind
  id := a.id
  resource := a.bindingResource
  relaxationPpm := a.relaxationAppliedPpm
  reportedOnly := a.relaxationReportedOnly
  detail := a.detail

def degradations (obligations : List ObligationAssessment) : List DegradationReason :=
  ((obligations.filter (·.status == .degraded)).map degradationOf).take Limits.maxDegradations

/-! ## 7. Binding obligation -/

def select (obligations : List ObligationAssessment) (status : ObligationStatus) :
    Option ObligationAssessment :=
  obligations.find? (·.status == status)

def selectBest (better : ObligationAssessment → ObligationAssessment → Bool)
    (obligations : List ObligationAssessment) (status : ObligationStatus) :
    Option ObligationAssessment :=
  obligations.foldl (fun best a =>
    if a.status ≠ status then best
    else match best with
      | none => some a
      | some b => if better a b then some a else some b) none

def bindingObligation (outcome : Outcome) (obligations : List ObligationAssessment) :
    Option ObligationAssessment :=
  match outcome with
  | .stale => select obligations .stale
  | .unsupported => (select obligations .unavailable).or (select obligations .violated)
  | .unknown => select obligations .unknown
  | .supportedDegraded =>
      selectBest (fun a b => a.relaxationAppliedPpm > b.relaxationAppliedPpm) obligations .degraded
  | .supported => selectBest (fun a b => a.headroomPpm < b.headroomPpm) obligations .satisfied
  | .conflict | .rejected => none

def explainBinding (binding : Option ObligationAssessment) (reason : Text) : Text :=
  match binding with
  | none => reason
  | some a =>
      if reason.isEmpty then a.id ++ text " is the binding obligation on this path" else reason

/-! ## 8. Authority vector -/

def classAuthority (klass : QoSClass) : AuthorityEntry :=
  ⟨.class, klass.id, klass.generation, klass.digest.hex, klass.publishedEpoch,
    klass.provenance.origin⟩

def policyAuthority (policy : Policy) : AuthorityEntry :=
  ⟨.policy, policy.id, policy.generation, policy.digest.hex, policy.publishedEpoch,
    policy.provenance.origin⟩

def pathAuthority (path : Path) : AuthorityEntry :=
  ⟨.path, path.id, path.generation, path.digest.hex, path.epoch, path.provenance.origin⟩

def epochAuthority (currentEpoch : FabricEpoch) : AuthorityEntry :=
  ⟨.fabricEpoch, text "fabric", currentEpoch, [], currentEpoch, text "registry"⟩

def componentAuthority (resolution : Resolution) : List AuthorityEntry :=
  (resolution.capability.map fun capability =>
      ⟨.capability, resolution.resource, capability.generation, capability.digest.hex,
        capability.epoch, capability.provenance.origin⟩).toList ++
    (resolution.reservation.map fun reservation =>
      ⟨.reservation, resolution.resource, reservation.generation, reservation.digest.hex,
        reservation.epoch, reservation.provenance.origin⟩).toList

def authority (inputs : EvaluationInputs) (resolutions : List Resolution) : List AuthorityEntry :=
  ([classAuthority inputs.klass,
      ⟨.subject, inputs.request.subject, inputs.request.subjectGeneration, [],
        inputs.currentEpoch, inputs.request.provenance.origin⟩,
      pathAuthority inputs.path,
      policyAuthority inputs.policy,
      ⟨.priority, inputs.request.priority, inputs.request.priorityGeneration, [],
        inputs.currentEpoch, []⟩,
      epochAuthority inputs.currentEpoch] ++
    resolutions.flatMap componentAuthority).take Limits.maxAuthorityEntries

/-! ## The decision -/

def draft (inputs : EvaluationInputs) : ContractDecision where
  contract := inputs.request.contract
  contractGeneration := inputs.request.contractGeneration
  outcome := .rejected
  classId := inputs.klass.id
  classGeneration := inputs.klass.generation
  classDigest := inputs.klass.digest
  subject := inputs.request.subject
  subjectGeneration := inputs.request.subjectGeneration
  path := inputs.path.id
  pathGeneration := inputs.path.generation
  pathDigest := inputs.path.digest
  policy := inputs.policy.id
  policyGeneration := inputs.policy.generation
  policyDigest := inputs.policy.digest
  priority := inputs.request.priority
  priorityGeneration := inputs.request.priorityGeneration
  fabricEpoch := inputs.currentEpoch
  observedEpoch := inputs.request.observedEpoch
  decidedAtMs := inputs.nowMs
  obligations := []
  resources := []
  degradations := []
  authority := []
  bindingObligation := none
  bindingResource := none
  unknownComponents := 0
  violatedObligations := 0
  unsatisfiedDiversityDomains := 0
  primaryReason := []
  requestDigest := inputs.request.computeDigest
  decisionDigest := .zero
  provenance := .make
    (if inputs.evaluator.isEmpty then text "qosfabric.engine" else inputs.evaluator)
    inputs.currentEpoch 1 1

def ContractDecision.sealed (decision : ContractDecision) : ContractDecision :=
  { decision with decisionDigest := decision.computeDecisionDigest }

def rejection (inputs : EvaluationInputs) (f : Findings) : ContractDecision :=
  { draft inputs with
    outcome := .rejected
    primaryReason := if f.reason.isEmpty then text "rejected at intake" else f.reason
    authority := [classAuthority inputs.klass, policyAuthority inputs.policy,
      pathAuthority inputs.path, epochAuthority inputs.currentEpoch] }.sealed

def countStatus {α β : Type} [BEq β] (status : α → β) (wanted : β) (items : List α) : UInt32 :=
  UInt32.ofNat (items.countP fun item => status item == wanted)

def assessAll (inputs : EvaluationInputs) : List Assessed :=
  let plan := buildPlan inputs.klass inputs.policy
  plan.map (assess inputs plan (resolve inputs))

def findings (inputs : EvaluationInputs) : Findings :=
  let assessed := assessAll inputs
  intake inputs
    |> conflicts inputs
    |> contradictions (resolve inputs)
    |> currency inputs
    |> overflows assessed
    |> rollUp (assessed.map Assessed.assessment)

def evaluate (inputs : EvaluationInputs) : Result ContractDecision :=
  if (intake inputs).outcome = .rejected then .ok (rejection inputs (intake inputs))
  else
    let resolutions := resolve inputs
    let obligations := (assessAll inputs).map Assessed.assessment
    let f := findings inputs
    let binding := bindingObligation f.outcome obligations
    let reason := explainBinding binding f.reason
    .ok { draft inputs with
      outcome := f.outcome
      obligations := obligations
      resources := resolutions.map Resolution.assessment
      degradations := degradations obligations
      authority := authority inputs resolutions
      bindingObligation := binding.map ObligationAssessment.kind
      bindingResource := binding.bind ObligationAssessment.bindingResource
      unknownComponents := countStatus Resolution.status .unknown resolutions
      violatedObligations := countStatus ObligationAssessment.status .violated obligations
      unsatisfiedDiversityDomains := unsatisfiedDomains obligations
      primaryReason := if reason.isEmpty then
          (if f.outcome.isPositive then text "all required obligations are satisfied"
            else text "no binding finding")
        else shortText reason }.sealed

end QoSFabric
