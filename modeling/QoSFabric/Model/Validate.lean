import QoSFabric.Model.Entities
import Mathlib.Data.List.Sort

/-!
# Validation

Each `validate` is a chain of refusals, tried in the order of the source.
-/

namespace QoSFabric

def refuse (condition : Bool) (code : ErrorCode) (detail : String) : Result Unit :=
  if condition then .error (makeError code detail) else .ok ()

def exceeds {α : Type} [LT α] [DecidableLT α] (value : Option α) (bound : α) : Bool :=
  value.any fun v => bound < v

/-- The byte order of `std::string_view`. -/
def textLe (a b : Text) : Prop := a ≤ b

instance : DecidableRel textLe := fun a b => inferInstanceAs (Decidable (a ≤ b))

def sortTexts (texts : List Text) : List Text :=
  texts.insertionSort textLe

/-- `std::adjacent_find` over the sorted views. -/
def adjacentFind : List Text → Bool
  | a :: b :: rest => a == b || adjacentFind (b :: rest)
  | _ => false

def hasDuplicatePredicates (keys : List Text) : Bool :=
  adjacentFind (sortTexts keys)

def checkKeys (keys : List Text) (detail : String) : Result Unit :=
  refuse (!keys.all (isValidIdentifier · Limits.maxPredicateKeyLen)) .invalidArgument detail

def validateQoSClass (value : QoSClass) : Result Unit := do
  refuse (!isValid value.id) .invalidArgument "class id rejected by canonical alphabet"
  refuse (value.generation == 0) .invalidArgument "class generation must be non-zero"
  refuse (value.label.length > Limits.maxLabelLen) .tooLarge "class label exceeds budget"
  refuse (exceeds value.minRateBps Limits.maxRateBps) .tooLarge
    "min_rate_bps beyond numeric domain"
  refuse (exceeds value.maxRateBps Limits.maxRateBps) .tooLarge
    "max_rate_bps beyond numeric domain"
  refuse (exceeds value.peakRateBps Limits.maxRateBps) .tooLarge
    "peak_rate_bps beyond numeric domain"
  refuse (value.minRateBps.any fun min => value.maxRateBps.any fun max => min > max) .conflict
    "min_rate_bps exceeds max_rate_bps"
  refuse (value.maxRateBps.any fun max => value.peakRateBps.any fun peak => peak < max) .conflict
    "peak_rate_bps below max_rate_bps"
  refuse (value.minRateBps.any fun min => value.peakRateBps.any fun peak => peak < min) .conflict
    "peak_rate_bps below min_rate_bps"
  refuse (exceeds value.maxLatencyUs Limits.maxLatencyUs) .tooLarge
    "max_latency_us beyond numeric domain"
  refuse (exceeds value.maxJitterUs Limits.maxJitterUs) .tooLarge
    "max_jitter_us beyond numeric domain"
  refuse (value.maxJitterUs.any fun jitter => value.maxLatencyUs.any fun latency =>
    jitter > latency) .conflict "max_jitter_us exceeds max_latency_us"
  refuse (exceeds value.maxLossPpm Limits.maxLossPpm) .tooLarge
    "max_loss_ppm beyond numeric domain"
  refuse (exceeds value.burstBytes Limits.maxBurstBytes) .tooLarge
    "burst_bytes beyond numeric domain"
  refuse (exceeds value.burstIntervalUs Limits.maxBurstIntervalUs) .tooLarge
    "burst_interval_us beyond numeric domain"
  refuse (value.burstBytes.isSome != value.burstIntervalUs.isSome) .conflict
    "burst semantics require both burst_bytes and burst_interval_us"
  refuse (exceeds value.minMtuBytes Limits.maxMtuBytes) .tooLarge
    "min_mtu_bytes beyond numeric domain"
  refuse (value.minPriorityRank > Limits.maxPriorityRank) .tooLarge
    "min_priority_rank beyond numeric domain"
  refuse (value.minDisjointPaths == 0 || value.minDisjointPaths > Limits.maxDisjointPaths)
    .invalidArgument "min_disjoint_paths outside [1, 64]"
  refuse (value.requiredPredicates.length > Limits.maxRequiredPredicates) .tooLarge
    "required predicate list exceeds budget"
  checkKeys value.requiredPredicates "required predicate key rejected"
  refuse (hasDuplicatePredicates value.requiredPredicates) .duplicate
    "duplicate required predicate key"
  refuse (value.degradeMaxRelaxationPpm > Limits.maxRelaxationPpm) .tooLarge
    "degrade_max_relaxation_ppm beyond 1000000"
  refuse (!value.allowDegrade && value.degradeMaxRelaxationPpm != 0) .conflict
    "degrade window declared while degradation is not allowed"
  refuse (value.violationPolicy == .reportOnly &&
    (!value.allowDegrade || value.degradeMaxRelaxationPpm == 0)) .conflict
    "report-only violation policy demands a class-declared degrade window"
  refuse (value.requiresReservation && value.minRateBps.isNone) .conflict
    "reservation requirement demands an explicit min_rate_bps"

def validatePolicy (value : Policy) : Result Unit := do
  refuse (!isValid value.id) .invalidArgument "policy id rejected by canonical alphabet"
  refuse (value.generation == 0) .invalidArgument "policy generation must be non-zero"
  refuse (value.label.length > Limits.maxLabelLen) .tooLarge "policy label exceeds budget"
  refuse (value.maxRelaxationPpm > Limits.maxRelaxationPpm) .tooLarge
    "max_relaxation_ppm beyond 1000000"
  refuse (!value.degradePermitted && value.maxRelaxationPpm != 0) .conflict
    "policy declares a relaxation window while degradation is not permitted"
  refuse (value.maxStaleEpochs > Limits.maxStaleEpochs) .tooLarge
    "max_stale_epochs beyond numeric domain"
  refuse (value.capabilityMaxAgeMs > Limits.maxLeaseMs) .tooLarge
    "capability_max_age_ms beyond lease domain"
  refuse (value.maxUnknownComponents.toNat > Limits.maxPathComponents) .tooLarge
    "max_unknown_components exceeds path budget"
  refuse (value.requiredPredicates.length > Limits.maxRequiredPredicates) .tooLarge
    "policy predicate list exceeds budget"
  checkKeys value.requiredPredicates "policy predicate key rejected"
  refuse (hasDuplicatePredicates value.requiredPredicates) .duplicate
    "duplicate policy predicate key"
  refuse (value.deniedClasses.length > Limits.maxClassesRetained) .tooLarge
    "denied class list exceeds budget"
  refuse (!value.deniedClasses.all isValid) .invalidArgument "denied class id rejected"
  refuse (adjacentFind (sortTexts value.deniedClasses)) .duplicate "duplicate denied class id"

def validateComponents : List Text → List PathComponent → Result Unit
  | _, [] => .ok ()
  | seen, component :: rest => do
      refuse (!isValid component.resource) .invalidArgument "path component resource id rejected"
      refuse (component.capabilityGeneration == 0) .invalidArgument
        "path component must bind a non-zero capability generation"
      refuse (component.diversityDomain.isEmpty || !isValid component.diversityDomain)
        .invalidArgument "diversity domain rejected"
      refuse (seen.contains component.resource) .duplicate "duplicate resource in path"
      validateComponents (component.resource :: seen) rest

def validatePath (value : Path) : Result Unit := do
  refuse (!isValid value.id) .invalidArgument "path id rejected by canonical alphabet"
  refuse (value.generation == 0) .invalidArgument "path generation must be non-zero"
  refuse value.components.isEmpty .invalidArgument "path must contain at least one component"
  refuse (value.components.length > Limits.maxPathComponents) .tooLarge
    "path component count exceeds budget"
  validateComponents [] value.components
  refuse (value.fixedLatencyUs > Limits.maxLatencyUs || value.fixedJitterUs > Limits.maxJitterUs)
    .tooLarge "path fixed overhead beyond numeric domain"

def validateCapability (value : ResourceCapability) : Result Unit := do
  refuse (!isValid value.resource) .invalidArgument "resource id rejected by canonical alphabet"
  refuse (value.generation == 0) .invalidArgument "capability generation must be non-zero"
  refuse (!isValid value.publisher) .invalidArgument "publisher id rejected by canonical alphabet"
  refuse (value.incarnation == 0) .invalidArgument "publisher incarnation must be non-zero"
  refuse (value.expiresAtMs < value.publishedAtMs) .conflict
    "capability expiry precedes publication"
  refuse (exceeds value.supportedRateBps Limits.maxRateBps) .tooLarge
    "supported_rate_bps beyond numeric domain"
  refuse (exceeds value.latencyBoundUs Limits.maxLatencyUs) .tooLarge
    "latency_bound_us beyond numeric domain"
  refuse (exceeds value.jitterBoundUs Limits.maxJitterUs) .tooLarge
    "jitter_bound_us beyond numeric domain"
  refuse (exceeds value.lossPpm Limits.maxLossPpm) .tooLarge "loss_ppm beyond numeric domain"
  refuse (exceeds value.maxBurstBytes Limits.maxBurstBytes) .tooLarge
    "max_burst_bytes beyond numeric domain"
  refuse (exceeds value.burstWindowUs Limits.maxBurstIntervalUs) .tooLarge
    "burst_window_us beyond numeric domain"
  refuse (value.maxBurstBytes.isSome != value.burstWindowUs.isSome) .conflict
    "burst capability requires both max_burst_bytes and burst_window_us"
  refuse (exceeds value.mtuBytes Limits.maxMtuBytes) .tooLarge "mtu_bytes beyond numeric domain"
  refuse (value.maxPriorityRank > Limits.maxPriorityRank) .tooLarge
    "max_priority_rank beyond numeric domain"
  refuse (value.predicates.length > Limits.maxCapabilityPredicates) .tooLarge
    "capability predicate list exceeds budget"
  checkKeys value.predicates "capability predicate key rejected"
  refuse (hasDuplicatePredicates value.predicates) .duplicate "duplicate capability predicate key"
  refuse (value.state != .unavailable && value.diversityDomain.isEmpty) .invalidArgument
    "a capable resource must declare its diversity domain"
  refuse (!value.diversityDomain.isEmpty && !isValid value.diversityDomain) .invalidArgument
    "diversity domain rejected"

def validateReservation (value : Reservation) : Result Unit := do
  refuse (!isValid value.resource) .invalidArgument "reservation resource id rejected"
  refuse (value.generation == 0) .invalidArgument "reservation generation must be non-zero"
  refuse (!isValid value.classId) .invalidArgument "reservation class id rejected"
  refuse (value.classGeneration == 0) .invalidArgument
    "reservation class generation must be non-zero"
  refuse (!isValid value.publisher) .invalidArgument "reservation publisher id rejected"
  refuse (value.incarnation == 0) .invalidArgument "reservation publisher incarnation non-zero"
  refuse (value.reservedMinRateBps == 0) .invalidArgument
    "reservation must commit a non-zero rate"
  refuse (value.reservedMinRateBps > Limits.maxRateBps) .tooLarge
    "reserved_min_rate_bps beyond numeric domain"
  refuse (value.reservedBurstBytes > Limits.maxBurstBytes) .tooLarge
    "reserved_burst_bytes beyond numeric domain"

def validateRequest (value : ContractRequest) : Result Unit := do
  refuse (!isValid value.contract) .invalidArgument "contract id rejected by canonical alphabet"
  refuse (!isValid value.subject) .invalidArgument "subject id rejected by canonical alphabet"
  refuse (!isValid value.classId) .invalidArgument "class id rejected by canonical alphabet"
  refuse (!isValid value.path) .invalidArgument "path id rejected by canonical alphabet"
  refuse (!isValid value.policy) .invalidArgument "policy id rejected by canonical alphabet"
  refuse (!isValid value.priority) .invalidArgument "priority class id rejected"
  refuse (value.subjectGeneration == 0) .invalidArgument "subject generation must be non-zero"
  refuse (value.priorityGeneration == 0) .invalidArgument "priority generation must be non-zero"
  refuse (value.contractGeneration == 0) .invalidArgument "contract generation must be non-zero"

end QoSFabric
