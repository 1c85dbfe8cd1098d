import QoSFabric.Model.Scenario
import QoSFabric.Model.Explain

/-!
# The scenario interpreter

`Scenario` of `qosfabric_cli.cpp`: a file of statements, one on a line behind which a comment may
stand, each of which makes one call of the registry at the time the scenario has set.
-/

namespace QoSFabric

/-! ## Tokens -/

/-- What `tokenize` takes for a blank. -/
def isBlank (c : UInt8) : Bool := c == 32 || c == 9 || c == 13

/-- `tokenize`, with the token it is in. -/
def tokenizeFrom (token : Text) : Text → List Text
  | [] => if token.isEmpty then [] else [token]
  | c :: rest =>
      if isBlank c then
        if token.isEmpty then tokenizeFrom [] rest else token :: tokenizeFrom [] rest
      else tokenizeFrom (token ++ [c]) rest

def tokenize (line : Text) : List Text := tokenizeFrom [] line

def lineTokens (line : Text) : List Text := tokenize (line.takeWhile (· ≠ 35))

/-! ## Statements -/

namespace Statement

def now (s : Statement) : Result Call := do
  refuse (s.positional.length ≠ 1) .invalidArgument "now requires one argument"
  let value ← toU64 (s.positionalAt 0) "now"
  pure (.setNowMillis value)

def publisher (s : Statement) (boot : BootId) : Result Call := do
  refuse (s.positional.length ≠ 2) .invalidArgument "publisher requires <id> <incarnation>"
  let id ← parseStringId (s.positionalAt 0) Limits.maxIdentifierLen
  let incarnation ← toU64 (s.positionalAt 1) "incarnation"
  let ttlMs ← s.optionalU64 "ttl_ms"
  pure (.registerPublisher id incarnation boot (ttlMs.getD 60000) (text "scenario"))

def pathComponent (item : Text) : Result PathComponent :=
  match splitText 58 item with
  | [resource, generation, domain, role] => do
      let resource ← parseStringId resource Limits.maxIdentifierLen
      let capabilityGeneration ← toU64 generation "component generation"
      let diversityDomain ← parseStringId domain Limits.maxIdentifierLen
      match PathRole.members.find? fun candidate => role == candidate.name with
      | some role => pure { resource, capabilityGeneration, diversityDomain, role }
      | none => .error (makeError .invalidArgument "invalid path component role")
  | _ =>
      .error (makeError .invalidArgument "path component must be resource:generation:domain:role")

def path (s : Statement) : Result Path := do
  refuse (s.positional.length ≠ 2) .invalidArgument "path requires <id> <generation>"
  let id ← parseStringId (s.positionalAt 0) Limits.maxIdentifierLen
  let generation ← toU64 (s.positionalAt 1) "generation"
  let fixedLatencyUs ← s.optionalU64 "fixed_latency"
  let fixedJitterUs ← s.optionalU64 "fixed_jitter"
  refuse (!s.has "components") .invalidArgument "path requires components=r:gen:domain:role,..."
  let components ← (splitText 44 (s.argument "components")).mapM pathComponent
  pure {
    id, generation, components, fixedLatencyUs := fixedLatencyUs.getD 0,
    fixedJitterUs := fixedJitterUs.getD 0, epoch := 0, digest := .zero, provenance := .none }

def reference (s : Statement) (key number detail : String) : Result (Text × Generation) :=
  match splitText 58 (s.argument key) with
  | [id, generation] => do
      let id ← parseStringId id Limits.maxIdentifierLen
      let generation ← toU64 generation number
      pure (id, generation)
  | _ => .error (makeError .invalidArgument detail)

def reservation (s : Statement) (currentEpoch : FabricEpoch) (nowMs : UInt64) :
    Result Reservation := do
  refuse (s.positional.length ≠ 2) .invalidArgument "reservation requires <resource> <generation>"
  let resource ← parseStringId (s.positionalAt 0) Limits.maxIdentifierLen
  let generation ← toU64 (s.positionalAt 1) "generation"
  let (classId, classGeneration) ← s.reference "class" "class generation"
    "reservation requires class=<id>:<generation>"
  let reservedMinRateBps ← toU64 (s.argument "rate") "rate"
  let reservedBurstBytes ← s.optionalU64 "burst"
  let publisher ← (parseStringId (s.argument "publisher") Limits.maxIdentifierLen).mapError
    fun _ => makeError .invalidArgument "reservation requires publisher=<id>"
  let incarnation ← toU64 (s.argument "incarnation") "incarnation"
  pure {
    resource, generation, classId, classGeneration, reservedMinRateBps,
    reservedBurstBytes := reservedBurstBytes.getD 0, epoch := s.rawU64 "epoch" currentEpoch,
    publisher, incarnation, expiresAtMs := s.rawU64 "expires" (nowMs + 600000), digest := .zero,
    provenance := .none }

/-- `set_ref`. -/
def subjectOf (s : Statement) (key : String) : Result (Text × Generation) :=
  s.reference key key (key ++ "=<id>:<generation>")

def request (s : Statement) (nowMs : UInt64) : Result ContractRequest := do
  refuse (s.positional.length ≠ 2) .invalidArgument "request requires <contract> <generation>"
  let contract ← parseStringId (s.positionalAt 0) Limits.maxIdentifierLen
  let contractGeneration ← toU64 (s.positionalAt 1) "generation"
  let (subject, subjectGeneration) ← s.subjectOf "subject"
  let (classId, classGeneration) ← s.subjectOf "class"
  let (path, pathGeneration) ← s.subjectOf "path"
  let (policy, policyGeneration) ← s.subjectOf "policy"
  let (priority, priorityGeneration) ← s.subjectOf "priority"
  let observedEpoch ← s.optionalU64 "epoch"
  pure {
    contract, contractGeneration, subject, subjectGeneration, classId, classGeneration, path,
    pathGeneration, policy, policyGeneration, priority, priorityGeneration,
    observedEpoch := observedEpoch.getD 0, requestMs := nowMs, provenance := .none }

def call (s : Statement) (boot : BootId) (currentEpoch : FabricEpoch) (nowMs : UInt64)
    (verb : Text) : Result Call :=
  if verb = text "now" then s.now
  else if verb = text "advance-epoch" then .ok (.advanceEpoch (text "scenario"))
  else if verb = text "compact" then .ok .compact
  else if verb = text "publisher" then s.publisher boot
  else if verb = text "class" then s.qosClass.map (.publishClass · (text "scenario"))
  else if verb = text "policy" then s.policy.map (.publishPolicy · (text "scenario"))
  else if verb = text "path" then s.path.map (.publishPath · (text "scenario"))
  else if verb = text "capability" then (s.capability currentEpoch nowMs).map .publishCapability
  else if verb = text "reservation" then (s.reservation currentEpoch nowMs).map .publishReservation
  else if verb = text "request" then (s.request nowMs).map .evaluate
  else
    .error ⟨.invalidArgument,
      (text "unrecognised scenario verb: " ++ verb).take Limits.maxErrorDetailBytes⟩

end Statement

/-! ## Output -/

namespace Scenario

def publicationLine (name : String) (id : Text) (published : Registry.PublicationResult) : Text :=
  text name ++ text " " ++ atGeneration id published.generation ++ text " digest=" ++
    published.digest.hex

def obligationReport (a : ObligationAssessment) : Text :=
  text "OBLIGATION " ++ a.id ++ text " " ++ a.status.name ++ text " required=" ++
    decimal a.requiredValue.toNat ++ text " composed=" ++
    (match a.composedValue with
      | some value => decimal value.toNat
      | none => text "UNKNOWN") ++
    text " relax=" ++ decimal a.relaxationAppliedPpm.toNat ++ text " headroom=" ++
    decimal a.headroomPpm.toNat

def resourceReport (a : ResourceAssessment) : Text :=
  text "RESOURCE " ++ a.resource ++ text " " ++ a.status.name ++ text " domain=" ++
    a.diversityDomain

def degradationReport (d : DegradationReason) : Text :=
  text "DEGRADATION " ++ d.id ++ text " " ++ decimal d.relaxationPpm.toNat ++ text " " ++
    (if d.reportedOnly then text "reported" else text "applied")

def bindingReport (decision : ContractDecision) : List Text :=
  match decision.bindingObligation with
  | none => []
  | some kind => [text "BINDING " ++ kind.name ++ text " " ++ decision.bindingResource.getD (text "-")]

def decisionReport (request : ContractRequest) (decision : ContractDecision) : List Text :=
  [text "REQUEST " ++ atGeneration request.contract request.contractGeneration,
    text "OUTCOME " ++ decision.outcome.name,
    text "REASON " ++ decision.primaryReason,
    text "DECISION-DIGEST " ++ decision.decisionDigest.hex] ++
  bindingReport decision ++ decision.obligations.map obligationReport ++
  decision.resources.map resourceReport ++ decision.degradations.map degradationReport

def report : Call → Answer → List Text
  | .setNowMillis value, _ => [text "NOW " ++ decimal value.toNat]
  | .advanceEpoch _, .advanced (.ok epoch) => [text "EPOCH " ++ decimal epoch.toNat]
  | .registerPublisher id incarnation _ _ _, .granted (.ok lease) =>
      [text "PUBLISHER " ++ id ++ text " incarnation=" ++ decimal incarnation.toNat ++
        text " lease=" ++ decimal lease.lease.toNat ++ text " epoch=" ++ decimal lease.epoch.toNat]
  | .publishClass value _, .published (.ok done) => [publicationLine "CLASS" value.id done]
  | .publishPolicy value _, .published (.ok done) => [publicationLine "POLICY" value.id done]
  | .publishPath value _, .published (.ok done) => [publicationLine "PATH" value.id done]
  | .publishCapability value, .published (.ok done) =>
      [publicationLine "CAPABILITY" value.resource done]
  | .publishReservation value, .published (.ok done) =>
      [publicationLine "RESERVATION" value.resource done]
  | .evaluate request, .decided (.ok decision) => decisionReport request decision
  | _, _ => []

end Scenario

def Answer.outcome : Answer → Result Unit
  | published result => result.map fun _ => ()
  | granted result => result.map fun _ => ()
  | advanced result => result.map fun _ => ()
  | decided result => result.map fun _ => ()
  | finished result => result

/-! ## Execution -/

/-- What a line finds outside the fabric: the clock, and the identity `BootId::generate` makes. -/
structure Instant where
  clock : UInt64
  boot : BootId

/-- The members of a scenario, and the lines it has printed. -/
structure Scenario where
  registry : Registry
  nowMs : UInt64
  printed : List Text

namespace Scenario

def start (registry : Registry) (clock : UInt64) : Scenario := ⟨registry, clock, []⟩

/-- `now_ms_` and the time of the registry before a call. A compaction is not given the time. -/
def pinned (s : Scenario) : Call → Scenario
  | .compact => s
  | .setNowMillis value => { s with nowMs := value }
  | _ => { s with registry := s.registry.setNowMillis s.nowMs }

/-- `Scenario::execute`. -/
def execute (moment : Instant) (s : Scenario) (verb : Text) (tokens : List Text) :
    Files (Result Unit × Scenario) :=
  match (Statement.ofTokens tokens).call moment.boot s.registry.currentEpoch s.nowMs verb with
  | .error e => pure (.error e, s)
  | .ok call => do
      let s := s.pinned call
      let (answer, registry) ← s.registry.call moment.clock call
      pure (answer.outcome, { s with registry, printed := s.printed ++ report call answer })

def atLine (number : Nat) (e : Error) : Error :=
  ⟨e.code, (text "line " ++ decimal number ++ text ": " ++ e.detail).take Limits.maxErrorDetailBytes⟩

/-- The loop of `Scenario::run` from a line on. -/
def runLines (moments : Nat → Instant) (number : Nat) : List Text → Scenario →
    Files (Result Unit × Scenario)
  | [], s => pure (.ok (), s)
  | line :: lines, s =>
      match lineTokens line with
      | [] => runLines moments (number + 1) lines s
      | verb :: arguments => do
          let (executed, s) ← s.execute (moments number) verb (verb :: arguments)
          match executed with
          | .error e => pure (.error (atLine number e), s)
          | .ok () => runLines moments (number + 1) lines s

/-- `Scenario::run` on what `read_file` returned. -/
def run (moments : Nat → Instant) (file : Result Text) (s : Scenario) :
    Files (Result Unit × Scenario) :=
  match file with
  | .error e => pure (.error e, s)
  | .ok text => runLines moments 1 (splitText 10 text) s

end Scenario

end QoSFabric
