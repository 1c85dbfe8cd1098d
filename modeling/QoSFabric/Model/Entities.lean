import QoSFabric.Model.Crypto

/-!
# The domain model

The service semantics and definitions of `model.hpp`. Generations, epochs, incarnations and
sequences are unsigned 64-bit; identifiers are texts, validated where the source validates them.
-/

namespace QoSFabric

abbrev Generation := UInt64
abbrev FabricEpoch := UInt64
abbrev PublisherIncarnation := UInt64
abbrev AttemptId := UInt64
abbrev Sequence := UInt64

structure Provenance where
  origin : Text
  epoch : FabricEpoch
  generation : Generation
  sequence : Sequence
  deriving DecidableEq, Repr

namespace Provenance

def none : Provenance := ⟨[], 0, 0, 0⟩

def make (origin : Text) (epoch : FabricEpoch) (generation : Generation)
    (sequence : Sequence) : Provenance :=
  ⟨origin.take Limits.maxOriginLen, epoch, generation, sequence⟩

end Provenance

/-! ## Ordered service semantics -/

inductive IsolationLevel where
  | none | shared | queueIsolated | resourceIsolated
  deriving DecidableEq, Repr

inductive TreatmentMode where
  | bestEffort | weightedFair | rateLimited | priorityQueue | strictPriorityLowLatency
  deriving DecidableEq, Repr

inductive ViolationPolicy where
  | reject | degradeThenReject | reportOnly
  deriving DecidableEq, Repr

inductive CapabilityState where
  | unknown | unavailable | degraded | available
  deriving DecidableEq, Repr

inductive PathRole where
  | member | primary | protection
  deriving DecidableEq, Repr

inductive ObligationKind where
  | minRate | maxRate | peakRate | latency | jitter | loss | burstBytes | burstInterval | mtu
  | isolation | treatment | priorityRank | reservation | disjointPaths | predicate | resourceState
  deriving DecidableEq, Repr

inductive CompareDirection where
  | atLeast | atMost
  deriving DecidableEq, Repr

inductive AggregateKind where
  | weakestLink | additive | lossCompose | worstCase | allPresent | pathDiversity
  deriving DecidableEq, Repr

def IsolationLevel.rank : IsolationLevel → UInt8
  | .none => 0 | .shared => 1 | .queueIsolated => 2 | .resourceIsolated => 3

def TreatmentMode.rank : TreatmentMode → UInt8
  | .bestEffort => 0 | .weightedFair => 1 | .rateLimited => 2 | .priorityQueue => 3
  | .strictPriorityLowLatency => 4

def ViolationPolicy.value : ViolationPolicy → UInt8
  | .reject => 0 | .degradeThenReject => 1 | .reportOnly => 2

def CapabilityState.value : CapabilityState → UInt8
  | .unknown => 0 | .unavailable => 1 | .degraded => 2 | .available => 3

def PathRole.value : PathRole → UInt8
  | .member => 0 | .primary => 1 | .protection => 2

def CompareDirection.value : CompareDirection → UInt8
  | .atLeast => 0 | .atMost => 1

def AggregateKind.value : AggregateKind → UInt8
  | .weakestLink => 0 | .additive => 1 | .lossCompose => 2 | .worstCase => 3 | .allPresent => 4
  | .pathDiversity => 5

namespace ObligationKind

def value : ObligationKind → UInt8
  | minRate => 0 | maxRate => 1 | peakRate => 2 | latency => 3 | jitter => 4 | loss => 5
  | burstBytes => 6 | burstInterval => 7 | mtu => 8 | isolation => 9 | treatment => 10
  | priorityRank => 11 | reservation => 12 | disjointPaths => 13 | predicate => 14
  | resourceState => 15

/-- `obligation_name`. -/
def name : ObligationKind → Text
  | minRate => text "rate.min_bps"
  | maxRate => text "rate.max_bps"
  | peakRate => text "rate.peak_bps"
  | latency => text "latency.max_us"
  | jitter => text "jitter.max_us"
  | loss => text "loss.max_ppm"
  | burstBytes => text "burst.bytes"
  | burstInterval => text "burst.interval_us"
  | mtu => text "mtu.min_bytes"
  | isolation => text "isolation.level"
  | treatment => text "treatment.mode"
  | priorityRank => text "priority.min_rank"
  | reservation => text "reservation.min_rate_bps"
  | disjointPaths => text "redundancy.disjoint_paths"
  | predicate => text "capability.predicate"
  | resourceState => text "resource.state"

/-- `obligation_direction`. -/
def direction : ObligationKind → CompareDirection
  | latency | jitter | loss | burstInterval => .atMost
  | _ => .atLeast

/-- `obligation_aggregate`. -/
def aggregate : ObligationKind → AggregateKind
  | latency | jitter => .additive
  | loss => .lossCompose
  | burstInterval => .worstCase
  | predicate => .allPresent
  | disjointPaths => .pathDiversity
  | _ => .weakestLink

/-- `obligation_relaxable`: structural obligations are never relaxed. -/
def relaxable : ObligationKind → Bool
  | minRate | maxRate | peakRate | latency | jitter | loss | burstBytes | burstInterval | mtu
  | disjointPaths | resourceState => true
  | isolation | treatment | priorityRank | reservation | predicate => false

end ObligationKind

/-! ## Definitions -/

structure QoSClass where
  id : Text
  generation : Generation
  label : Text
  minRateBps : Option UInt64
  maxRateBps : Option UInt64
  peakRateBps : Option UInt64
  maxLatencyUs : Option UInt64
  maxJitterUs : Option UInt64
  maxLossPpm : Option UInt32
  burstBytes : Option UInt64
  burstIntervalUs : Option UInt64
  minMtuBytes : Option UInt64
  isolation : IsolationLevel
  treatment : TreatmentMode
  minPriorityRank : UInt32
  minDisjointPaths : UInt32
  requiresReservation : Bool
  requiredPredicates : List Text
  allowDegrade : Bool
  degradeMaxRelaxationPpm : UInt32
  violationPolicy : ViolationPolicy
  publishedEpoch : FabricEpoch
  digest : Digest256
  provenance : Provenance
  deriving DecidableEq

structure Policy where
  id : Text
  generation : Generation
  label : Text
  degradePermitted : Bool
  maxRelaxationPpm : UInt32
  maxStaleEpochs : UInt32
  capabilityMaxAgeMs : UInt64
  maxUnknownComponents : UInt32
  requiredPredicates : List Text
  deniedClasses : List Text
  publishedEpoch : FabricEpoch
  digest : Digest256
  provenance : Provenance
  deriving DecidableEq

structure PathComponent where
  resource : Text
  capabilityGeneration : Generation
  diversityDomain : Text
  role : PathRole
  deriving DecidableEq

structure Path where
  id : Text
  generation : Generation
  components : List PathComponent
  fixedLatencyUs : UInt64
  fixedJitterUs : UInt64
  epoch : FabricEpoch
  digest : Digest256
  provenance : Provenance
  deriving DecidableEq

structure ResourceCapability where
  resource : Text
  generation : Generation
  epoch : FabricEpoch
  publisher : Text
  incarnation : PublisherIncarnation
  publishedAtMs : UInt64
  expiresAtMs : UInt64
  state : CapabilityState
  supportedRateBps : Option UInt64
  latencyBoundUs : Option UInt64
  jitterBoundUs : Option UInt64
  lossPpm : Option UInt32
  maxBurstBytes : Option UInt64
  burstWindowUs : Option UInt64
  mtuBytes : Option UInt64
  maxIsolation : IsolationLevel
  maxTreatment : TreatmentMode
  maxPriorityRank : UInt32
  predicates : List Text
  diversityDomain : Text
  digest : Digest256
  provenance : Provenance
  deriving DecidableEq

structure Reservation where
  resource : Text
  generation : Generation
  classId : Text
  classGeneration : Generation
  reservedMinRateBps : UInt64
  reservedBurstBytes : UInt64
  epoch : FabricEpoch
  publisher : Text
  incarnation : PublisherIncarnation
  expiresAtMs : UInt64
  digest : Digest256
  provenance : Provenance
  deriving DecidableEq

structure ContractRequest where
  contract : Text
  contractGeneration : Generation
  subject : Text
  subjectGeneration : Generation
  classId : Text
  classGeneration : Generation
  path : Text
  pathGeneration : Generation
  policy : Text
  policyGeneration : Generation
  priority : Text
  priorityGeneration : Generation
  observedEpoch : FabricEpoch
  requestMs : UInt64
  provenance : Provenance
  deriving DecidableEq

end QoSFabric
