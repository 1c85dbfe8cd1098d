import QoSFabric.Model.Authority
import QoSFabric.Model.Fabric

/-!
# Scenario statements

The statements of `qosfabric_cli.cpp` that publish a class, a policy or a capability: the arguments
on a line, and the record that the registry is asked to publish.
-/

namespace QoSFabric

/-! ## Numbers -/

def isDigit (c : UInt8) : Bool := 48 ≤ c && c ≤ 57

def isSpace (c : UInt8) : Bool := (9 ≤ c && c ≤ 13) || c == 32

/-- `std::strtoull` to the base ten: the digits at the start, behind white space and a sign. -/
def strtoull (t : Text) : UInt64 :=
  match t.dropWhile isSpace with
  | 45 :: rest =>
      let value := (rest.takeWhile isDigit).foldl (fun n c => n * 10 + (c.toNat - 48)) 0
      -- a value out of range is not negated
      if value > maxUInt64.toNat then maxUInt64 else 0 - UInt64.ofNat value
  | 43 :: rest => parseDecimal (rest.takeWhile isDigit)
  | rest => parseDecimal (rest.takeWhile isDigit)

def toU64 (t : Text) (what : String) : Result UInt64 :=
  if t.isEmpty || !t.all isDigit then
    .error (makeError .invalidArgument (what ++ " must be a decimal integer"))
  else .ok (strtoull t)

def toBool (t : Text) (what : String) : Result Bool :=
  if t = text "yes" ∨ t = text "true" ∨ t = text "1" then .ok true
  else if t = text "no" ∨ t = text "false" ∨ t = text "0" then .ok false
  else .error (makeError .invalidArgument (what ++ " must be yes or no"))

/-! ## Names -/

def parseStringId (t : Text) (maxLen : Nat) : Result Text :=
  if isValidIdentifier t maxLen then .ok t
  else .error (makeError .invalidArgument "identifier rejected by canonical alphabet or length")

def IsolationLevel.name : IsolationLevel → Text
  | .none => text "none"
  | .shared => text "shared"
  | .queueIsolated => text "queue-isolated"
  | .resourceIsolated => text "resource-isolated"

def TreatmentMode.name : TreatmentMode → Text
  | .bestEffort => text "best-effort"
  | .weightedFair => text "weighted-fair"
  | .rateLimited => text "rate-limited"
  | .priorityQueue => text "priority-queue"
  | .strictPriorityLowLatency => text "strict-priority-low-latency"

def ViolationPolicy.name : ViolationPolicy → Text
  | .reject => text "reject"
  | .degradeThenReject => text "degrade-then-reject"
  | .reportOnly => text "report-only"

def CapabilityState.name : CapabilityState → Text
  | .unknown => text "unknown"
  | .unavailable => text "unavailable"
  | .degraded => text "degraded"
  | .available => text "available"

/-- `split`: the pieces between separators, empty ones too. -/
def splitText (separator : UInt8) : Text → List Text
  | [] => [[]]
  | c :: rest =>
      if c = separator then [] :: splitText separator rest
      else
        match splitText separator rest with
        | [] => [[c]]
        | piece :: pieces => (c :: piece) :: pieces

/-! ## Arguments -/

/-- The arguments of a statement; of two with one name the later counts. -/
structure Statement where
  positional : List Text
  named : Table Text Text

namespace Statement

def addToken (s : Statement) (token : Text) : Statement :=
  if token.contains 61 then
    { s with named := s.named.insert (token.takeWhile (· ≠ 61)) (token.dropWhile (· ≠ 61)).tail }
  else { s with positional := s.positional ++ [token] }

def ofTokens (tokens : List Text) : Statement := tokens.tail.foldl addToken ⟨[], ∅⟩

/-- `get`. -/
def argument (s : Statement) (key : String) : Text := (s.named.lookup (text key)).getD []

/-- `has`. -/
def has (s : Statement) (key : String) : Bool := (s.named.lookup (text key)).isSome

def positionalAt (s : Statement) (index : Nat) : Text := s.positional.getD index []

/-- `set_u64`. -/
def optionalU64 (s : Statement) (key : String) : Result (Option UInt64) :=
  if s.has key then (toU64 (s.argument key) key).map some else .ok none

def narrowed (s : Statement) (key : String) : Result (Option UInt32) :=
  if s.has key then (toU64 (s.argument key) key).map fun value => some value.toUInt32 else .ok none

def flag (s : Statement) (key : String) (absent : Bool) : Result Bool :=
  if s.has key then toBool (s.argument key) key else .ok absent

def member {α : Type} (s : Statement) (key : String) (members : List α) (name : α → Text)
    (absent : α) (detail : String) : Result α :=
  if s.has key then
    match members.find? fun item => s.argument key == name item with
    | some item => .ok item
    | none => .error (makeError .invalidArgument detail)
  else .ok absent

def optionalId (s : Statement) (key : String) : Result Text :=
  if s.has key then parseStringId (s.argument key) Limits.maxIdentifierLen else .ok []

def identifiers (s : Statement) (key : String) (maxLen : Nat) : Result (List Text) :=
  if s.has key then
    ((splitText 44 (s.argument key)).filter fun piece => !piece.isEmpty).mapM
      fun piece => parseStringId piece maxLen
  else .ok []

/-- A number that is not asked to be one: `std::strtoull` alone. -/
def rawU64 (s : Statement) (key : String) (absent : UInt64) : UInt64 :=
  if s.has key then strtoull (s.argument key) else absent

/-! ## Records -/

def qosClass (s : Statement) : Result QoSClass := do
  refuse (s.positional.length ≠ 2) .invalidArgument "class requires <id> <generation>"
  let id ← parseStringId (s.positionalAt 0) Limits.maxIdentifierLen
  let generation ← toU64 (s.positionalAt 1) "generation"
  let minRateBps ← s.optionalU64 "min_rate"
  let maxRateBps ← s.optionalU64 "max_rate"
  let peakRateBps ← s.optionalU64 "peak_rate"
  let maxLatencyUs ← s.optionalU64 "latency"
  let maxJitterUs ← s.optionalU64 "jitter"
  let burstBytes ← s.optionalU64 "burst"
  let burstIntervalUs ← s.optionalU64 "burst_interval"
  let minMtuBytes ← s.optionalU64 "mtu"
  let maxLossPpm ← s.narrowed "loss"
  let isolation ← s.member "isolation" IsolationLevel.members IsolationLevel.name .none
    "invalid isolation level"
  let treatment ← s.member "treatment" TreatmentMode.members TreatmentMode.name .bestEffort
    "invalid treatment mode"
  let minPriorityRank ← s.narrowed "priority"
  let minDisjointPaths ← s.narrowed "disjoint"
  let requiresReservation ← s.flag "reservation" false
  let requiredPredicates ← s.identifiers "predicates" Limits.maxPredicateKeyLen
  let allowDegrade ← s.flag "degrade" false
  let degradeMaxRelaxationPpm ← s.narrowed "relax_ppm"
  let violationPolicy ← s.member "violation" ViolationPolicy.members ViolationPolicy.name
    .degradeThenReject "invalid violation policy"
  pure {
    id, generation, label := s.argument "label", minRateBps, maxRateBps, peakRateBps, maxLatencyUs,
    maxJitterUs, maxLossPpm, burstBytes, burstIntervalUs, minMtuBytes, isolation, treatment,
    minPriorityRank := minPriorityRank.getD 0, minDisjointPaths := minDisjointPaths.getD 1,
    requiresReservation, requiredPredicates, allowDegrade,
    degradeMaxRelaxationPpm := degradeMaxRelaxationPpm.getD 0, violationPolicy,
    publishedEpoch := 0, digest := .zero, provenance := .none }

def policy (s : Statement) : Result Policy := do
  refuse (s.positional.length ≠ 2) .invalidArgument "policy requires <id> <generation>"
  let id ← parseStringId (s.positionalAt 0) Limits.maxIdentifierLen
  let generation ← toU64 (s.positionalAt 1) "generation"
  let degradePermitted ← s.flag "degrade" false
  let maxRelaxationPpm ← s.narrowed "relax_ppm"
  let maxStaleEpochs ← s.narrowed "stale_epochs"
  let capabilityMaxAgeMs ← s.optionalU64 "max_age_ms"
  let maxUnknownComponents ← s.narrowed "unknown"
  let requiredPredicates ← s.identifiers "predicates" Limits.maxPredicateKeyLen
  let deniedClasses ← s.identifiers "denied" Limits.maxIdentifierLen
  pure {
    id, generation, label := s.argument "label", degradePermitted,
    maxRelaxationPpm := maxRelaxationPpm.getD 0, maxStaleEpochs := maxStaleEpochs.getD 0,
    capabilityMaxAgeMs := capabilityMaxAgeMs.getD 600000,
    maxUnknownComponents := maxUnknownComponents.getD 0, requiredPredicates, deniedClasses,
    publishedEpoch := 0, digest := .zero, provenance := .none }

def capability (s : Statement) (currentEpoch : FabricEpoch) (nowMs : UInt64) :
    Result ResourceCapability := do
  refuse (s.positional.length ≠ 2) .invalidArgument "capability requires <resource> <generation>"
  let resource ← parseStringId (s.positionalAt 0) Limits.maxIdentifierLen
  let generation ← toU64 (s.positionalAt 1) "generation"
  let publisher ← (parseStringId (s.argument "publisher") Limits.maxIdentifierLen).mapError
    fun _ => makeError .invalidArgument "capability requires publisher=<id>"
  let incarnation ← toU64 (s.argument "incarnation") "incarnation"
  let publishedAtMs := s.rawU64 "published" nowMs
  let state ← s.member "state" CapabilityState.members CapabilityState.name .unknown
    "invalid capability state"
  let supportedRateBps ← s.optionalU64 "rate"
  let latencyBoundUs ← s.optionalU64 "latency"
  let jitterBoundUs ← s.optionalU64 "jitter"
  let maxBurstBytes ← s.optionalU64 "burst"
  let burstWindowUs ← s.optionalU64 "burst_window"
  let mtuBytes ← s.optionalU64 "mtu"
  let lossPpm ← s.narrowed "loss"
  let maxIsolation ← s.member "isolation" IsolationLevel.members IsolationLevel.name .none
    "invalid isolation level"
  let maxTreatment ← s.member "treatment" TreatmentMode.members TreatmentMode.name .bestEffort
    "invalid treatment mode"
  let maxPriorityRank ← s.narrowed "priority"
  let diversityDomain ← s.optionalId "domain"
  let predicates ← s.identifiers "predicates" Limits.maxPredicateKeyLen
  pure {
    resource, generation, epoch := s.rawU64 "epoch" currentEpoch, publisher, incarnation,
    publishedAtMs, expiresAtMs := s.rawU64 "expires" (publishedAtMs + 600000), state,
    supportedRateBps, latencyBoundUs, jitterBoundUs, lossPpm, maxBurstBytes, burstWindowUs,
    mtuBytes, maxIsolation, maxTreatment, maxPriorityRank := maxPriorityRank.getD 0, predicates,
    diversityDomain, digest := .zero, provenance := .none }

end Statement

/-! ## Execution -/

/-- The verbs of the statements that publish a record of numbers. -/
inductive ScenarioVerb where
  | «class» | policy | capability
  deriving DecidableEq, Repr

namespace ScenarioVerb

def kind : ScenarioVerb → EntityKind
  | .class => .class
  | policy => .policy
  | capability => .capability

def record (s : Statement) (r : Registry) (nowMs : UInt64) : (verb : ScenarioVerb) →
    Result verb.kind.Carrier
  | .class => s.qosClass
  | policy => s.policy
  | capability => s.capability r.currentEpoch nowMs

def publish (r : Registry) : (verb : ScenarioVerb) → verb.kind.Carrier →
    Files (Result Registry.PublicationResult × Registry)
  | .class, value => r.publishClass value (text "scenario")
  | policy, value => r.publishPolicy value (text "scenario")
  | capability, value => r.publishCapability value

/-- `Scenario::execute`. -/
def execute (r : Registry) (nowMs : UInt64) (verb : ScenarioVerb) (s : Statement) :
    Files (Result Registry.PublicationResult × Registry) :=
  match verb.record s r nowMs with
  | .error e => pure (.error e, r)
  | .ok value => publish (r.setNowMillis nowMs) verb value

end ScenarioVerb

end QoSFabric
