import QoSFabric.Model.Registry

/-!
# Operations of the registry

The public operations of `Registry`, as programs over the files of its store. An operation hands
back the members as it leaves them, also when it fails. A mutation is journalled: its intent is
staged, the members change, and the commit makes it durable; a failed commit takes the change back.
-/

namespace QoSFabric

namespace Registry

def compactLocked (r : Registry) : Files (Result Unit × Registry) :=
  let r := r.prune
  match r.encodeSnapshotState with
  | .error e => pure (.error e, r)
  | .ok bytes => do
      let (result, store) ← r.store.writeSnapshot bytes
      pure (result, { r with store })

/-- `tick`: the cached time follows the system clock unless it is pinned. -/
def tick (r : Registry) (clock : UInt64) : Registry :=
  if r.clockPinned then r else { r with nowMs := clock }

/-! ## Epoch -/

def epochRecord (epoch : FabricEpoch) (reason : Text) : ByteWriter 512 :=
  (ByteWriter.empty.u64 epoch).str (reason.take Limits.maxReasonLen) Limits.maxReasonLen

def advanceEpochLocked (r : Registry) (reason : Text) : Files (Result FabricEpoch × Registry) :=
  match Store.tryIncrement r.durableEpoch with
  | none => pure (.error (makeError .overflow "fabric epoch space is exhausted"), r)
  | some next =>
      match (epochRecord next reason).data with
      | none => pure (.error (makeError .tooLarge "epoch record exceeds its budget"), r)
      | some payload => do
          match ← r.store.append .epochAdvance payload with
          | (.error e, store) => pure (.error e, { r with store })
          | (.ok _, store) =>
              -- an epoch advance invalidates every lease issued in the previous epoch
              pure (.ok next,
                { r with store, durableEpoch := next, currentEpoch := next, leases := ∅ })

/-! ## Journalling -/

def stageWithRetry (r : Registry) (type : RecordType) (payload : Bytes) :
    Files (Result AttemptId × Registry) := do
  match ← r.store.stage type payload with
  | (.ok attempt, store) => pure (.ok attempt, { r with store })
  | (.error e, store) =>
      let r := { r with store }
      if e.code = .capacityExhausted then
        match ← r.compactLocked with
        | (.error e, r) => pure (.error e, r)
        | (.ok (), r) => do
            let (staged, store) ← r.store.stage type payload
            pure (staged, { r with store })
      else pure (.error e, r)

/-- The members of a mutation: what it changes under its attempt, and how a failed commit takes the
change back, given the members before it. -/
structure Mutation where
  type : RecordType
  payload : Bytes
  digest : Digest256
  apply : AttemptId → Registry → Registry
  rollback : Registry → Registry → Registry

def journalled (r : Registry) (m : Mutation) : Files (Result AttemptId × Registry) := do
  match ← r.stageWithRetry m.type m.payload with
  | (.error e, r) => pure (.error e, r)
  | (.ok attempt, r) =>
      let applied := m.apply attempt r
      match ← applied.store.commit attempt m.digest with
      | (.error e, store) => pure (.error e, m.rollback r { applied with store })
      | (.ok (), store) => pure (.ok attempt, { applied with store })

/-! ## Publication -/

structure PublicationResult where
  generation : Generation
  sequence : Sequence
  digest : Digest256
  deriving DecidableEq

/-- What the table makes of a definition under an identifier. -/
inductive Admission where
  | refused (error : Error)
  | held (latest : Generation)
  | equivocated (incumbent : Digest256)
  | accepted
  deriving DecidableEq

def admission (kind : EntityKind) (table : GenerationTable kind) (value : kind.Carrier)
    (digest : Digest256) : Admission :=
  match (table.lookup (kind.entityId value)).bind List.getLast? with
  | none =>
      if Table.size table ≥ kind.maxIdentifiers then
        .refused (makeError .capacityExhausted
          "identifier budget exhausted; retire identifiers or raise the budget")
      else if kind.generation value ≠ 1 then
        .refused (makeError .stale
          "the first published generation of an identifier must be generation 1")
      else .accepted
  | some incumbent =>
      let latest := kind.generation incumbent
      if kind.generation value < latest then
        .refused (makeError .stale "generation is older than the retained generation")
      else if kind.generation value = latest then
        if kind.digest incumbent = digest then .held latest
        else .equivocated (kind.digest incumbent)
      else if Store.tryIncrement latest = some (kind.generation value) then .accepted
      else .refused (makeError .invalidArgument "generation must advance by exactly one")

def equivocationDetail : Text :=
  text "two different definitions were asserted for the same identifier and generation"

def equivocationMarker (r : Registry) (kind : EntityKind) (value : kind.Carrier)
    (incumbent challenger : Digest256) : ConflictMarker where
  scope := kind.scope
  id := kind.entityId value
  generation := kind.generation value
  incumbentDigest := incumbent
  challengerDigest := challenger
  epoch := r.currentEpoch
  detail := equivocationDetail

def conflictRecord (marker : ConflictMarker) : ByteWriter 512 :=
  encodeMarker .empty marker

def conflictMutation (marker : ConflictMarker) (payload : Bytes) : Mutation where
  type := .conflictRecord
  payload := payload
  digest := sha256 marker.detail
  apply _ r := r.holdConflict marker
  rollback _ r := { r with conflicts := r.conflicts.dropLast }

/-- The conflict branch of `publish_entity`: the evidence is durable before the refusal. -/
def recordConflict (r : Registry) (marker : ConflictMarker) :
    Files (Result PublicationResult × Registry) :=
  match (conflictRecord marker).data with
  | none => pure (.error (makeError .tooLarge "conflict record exceeds its budget"), r)
  | some payload => do
      match ← r.journalled (conflictMutation marker payload) with
      | (.error e, r) => pure (.error e, r)
      | (.ok _, r) =>
          pure (.error (makeError .conflict
            "equivocated definition: the identifier and generation already carry different content"),
            r)

def unpublish (kind : EntityKind) (identifier : Text) (before : Registry) (r : Registry) :
    Registry :=
  let list := ((r.tables kind).lookup identifier).getD []
  let created := (((before.tables kind).lookup identifier).getD []).isEmpty
  r.setTable kind
    (if created then (r.tables kind).erase identifier
      else (r.tables kind).insert identifier list.dropLast)

def publicationMutation (kind : EntityKind) (value : kind.Carrier) (payload : Bytes) : Mutation where
  type := kind.recordType
  payload := payload
  digest := kind.digest value
  apply attempt r :=
    r.push kind (kind.withProvenance
      (.make (text "registry") r.currentEpoch (kind.generation value) attempt) value)
  rollback before r := unpublish kind (kind.entityId value) before r

/-- The accepted branch of `publish_entity`. -/
def recordPublication (r : Registry) (kind : EntityKind) (value : kind.Carrier) :
    Files (Result PublicationResult × Registry) :=
  match (kind.encode value (.empty : ByteWriter Limits.maxCanonicalRecordBytes)).data with
  | none =>
      pure (.error (makeError .tooLarge "definition exceeds the canonical record budget"), r)
  | some payload => do
      match ← r.journalled (publicationMutation kind value payload) with
      | (.error e, r) => pure (.error e, r)
      | (.ok attempt, r) =>
          pure (.ok ⟨kind.generation value, attempt, kind.digest value⟩, r)

def publishAdmitted (r : Registry) (kind : EntityKind) (value : kind.Carrier) :
    Files (Result PublicationResult × Registry) :=
  -- the digest addresses the definition only; epoch and provenance are cleared first
  let digest := kind.computeDigest (kind.asserted 0 .zero .none value)
  match admission kind (r.tables kind) value digest with
  | .refused e => pure (.error e, r)
  | .held latest => pure (.ok ⟨latest, 0, digest⟩, r)
  | .equivocated incumbent => r.recordConflict (r.equivocationMarker kind value incumbent digest)
  | .accepted => r.recordPublication kind (kind.asserted r.currentEpoch digest .none value)

def windowFull (r : Registry) (kind : EntityKind) (identifier : Text) : Bool :=
  ((r.tables kind).lookup identifier).any fun list => list.length ≥ r.options.maxGenerationsPerId

def publishEntity (r : Registry) (kind : EntityKind) (value : kind.Carrier) :
    Files (Result PublicationResult × Registry) :=
  match kind.validate value with
  | .error e => pure (.error e, r)
  | .ok () =>
      if kind.generation value = 0 then
        pure (.error (makeError .invalidArgument "generation must be non-zero"), r)
      else if r.windowFull kind (kind.entityId value) then do
        match ← r.compactLocked with
        | (.error e, r) => pure (.error e, r)
        | (.ok (), r) => r.publishAdmitted kind value
      else r.publishAdmitted kind value

/-- The provenance a definition arrives with, before `publish_entity` clears it. -/
def arriving (r : Registry) (kind : EntityKind) (value : kind.Carrier) (origin : Text) :
    kind.Carrier :=
  kind.withProvenance
    (.make (origin.take Limits.maxOriginLen) r.currentEpoch (kind.generation value) 0) value

def publishClass (r : Registry) (value : QoSClass) (origin : Text) :
    Files (Result PublicationResult × Registry) :=
  r.publishEntity .class (r.arriving .class value origin)

def publishPolicy (r : Registry) (value : Policy) (origin : Text) :
    Files (Result PublicationResult × Registry) :=
  r.publishEntity .policy (r.arriving .policy value origin)

def publishPath (r : Registry) (value : Path) (origin : Text) :
    Files (Result PublicationResult × Registry) :=
  r.publishEntity .path (r.arriving .path value origin)

def findLease (r : Registry) (publisher : Text) : Option PublisherLease :=
  (r.leases.lookup publisher).filter fun lease =>
    lease.epoch == r.currentEpoch && r.nowMs < lease.expiresAtMs

def authorize (r : Registry) (publisher : Text) (incarnation : PublisherIncarnation)
    (epoch : FabricEpoch) (unauthorized fenced stale : String) : Result Unit :=
  match r.findLease publisher with
  | none => .error (makeError .unauthorized unauthorized)
  | some lease =>
      if lease.incarnation ≠ incarnation then .error (makeError .fenced fenced)
      else if epoch ≠ lease.epoch ∨ epoch ≠ r.currentEpoch then .error (makeError .stale stale)
      else .ok ()

def publishCapability (r : Registry) (value : ResourceCapability) :
    Files (Result PublicationResult × Registry) :=
  match validateCapability value with
  | .error e => pure (.error e, r)
  | .ok () =>
      match r.authorize value.publisher value.incarnation value.epoch
          "publisher holds no live lease in the current fabric epoch"
          "publisher incarnation does not match the live lease"
          "capability asserts an epoch that is not current" with
      | .error e => pure (.error e, r)
      | .ok () => r.publishEntity .capability (r.arriving .capability value value.publisher)

def publishReservation (r : Registry) (value : Reservation) :
    Files (Result PublicationResult × Registry) :=
  match validateReservation value with
  | .error e => pure (.error e, r)
  | .ok () =>
      match r.authorize value.publisher value.incarnation value.epoch
          "reservation publisher holds no live lease in the current fabric epoch"
          "reservation publisher incarnation is not live"
          "reservation asserts an epoch that is not current" with
      | .error e => pure (.error e, r)
      | .ok () => r.publishEntity .reservation (r.arriving .reservation value value.publisher)

/-! ## Reads -/

def absentGeneration : Error :=
  makeError .notFound "no definition is held for that identifier and generation"

def findEntity (r : Registry) (kind : EntityKind) (identifier : Text) (generation : Generation) :
    Result kind.Carrier :=
  match (r.tables kind).lookup identifier with
  | none => .error absentGeneration
  | some list =>
      match list.find? fun item => kind.generation item == generation with
      | none => .error absentGeneration
      | some item => .ok item

def newest (kind : EntityKind) : kind.Carrier → List kind.Carrier → kind.Carrier
  | best, [] => best
  | best, item :: rest =>
      newest kind (if kind.generation best < kind.generation item then item else best) rest

def findLatest (r : Registry) (kind : EntityKind) (identifier : Text) : Result kind.Carrier :=
  match (r.tables kind).lookup identifier with
  | none | some [] => .error (makeError .notFound "no definition is held for that identifier")
  | some (first :: rest) => .ok (newest kind first rest)

/-- `class_for`, `policy_for` and `path_for`: a zero generation means the newest. -/
def entityFor (r : Registry) (kind : EntityKind) (identifier : Text) (generation : Generation) :
    Result kind.Carrier :=
  if generation = 0 then r.findLatest kind identifier else r.findEntity kind identifier generation

/-! ## Publisher authority -/

def leaseRecord (lease : PublisherLease) (origin : Text) : ByteWriter 512 :=
  ByteWriter.empty.ident lease.publisher
    |>.u64 lease.incarnation
    |>.raw lease.boot.bytes
    |>.u64 lease.grantedAtMs
    |>.u64 lease.expiresAtMs
    |>.str (origin.take Limits.maxOriginLen) Limits.maxOriginLen

def registrationMutation (lease : PublisherLease) (payload : Bytes) : Mutation where
  type := .registerPublisher
  payload := payload
  digest := sha256 lease.publisher
  apply attempt r :=
    { r with
      publisherWatermark := r.publisherWatermark.insert lease.publisher lease.incarnation
      leases := r.leases.insert lease.publisher { lease with lease := attempt } }
  rollback before r :=
    { r with
      leases := r.leases.erase lease.publisher
      publisherWatermark :=
        match before.publisherWatermark.lookup lease.publisher with
        | none => r.publisherWatermark.erase lease.publisher
        | some highest => r.publisherWatermark.insert lease.publisher highest }

def grant (r : Registry) (publisher : Text) (incarnation : PublisherIncarnation) (boot : BootId)
    (ttlMs : UInt64) : Result PublisherLease := do
  refuse (!isValid publisher) .invalidArgument "publisher identifier is not canonical"
  refuse (incarnation == 0) .invalidArgument "publisher incarnation must be non-zero"
  refuse (ttlMs == 0 || ttlMs > Limits.maxLeaseMs) .invalidArgument
    "lease duration is outside the supported range"
  refuse boot.isZero .invalidArgument "publisher boot identity must be non-zero"
  let watermark := r.publisherWatermark.lookup publisher
  refuse (incarnation ≤ watermark.getD 0) .fenced
    "publisher incarnation is not newer than the durable watermark"
  refuse (watermark.isNone && Table.size r.publisherWatermark ≥ Limits.maxPublishersRetained)
    .capacityExhausted "publisher table is at its configured budget"
  match checkedAdd r.nowMs ttlMs with
  | none => .error (makeError .overflow "lease expiry overflowed the representable domain")
  | some expires =>
      .ok {
        publisher, incarnation, boot
        epoch := r.currentEpoch
        lease := 0
        grantedAtMs := r.nowMs
        expiresAtMs := expires }

def registerPublisher (r : Registry) (clock : UInt64) (publisher : Text)
    (incarnation : PublisherIncarnation) (boot : BootId) (ttlMs : UInt64) (origin : Text) :
    Files (Result PublisherLease × Registry) :=
  let r := r.tick clock
  match r.grant publisher incarnation boot ttlMs with
  | .error e => pure (.error e, r)
  | .ok lease =>
      match (leaseRecord lease origin).data with
      | none => pure (.error (makeError .tooLarge "lease record exceeds its budget"), r)
      | some payload => do
          match ← r.journalled (registrationMutation lease payload) with
          | (.error e, r) => pure (.error e, r)
          | (.ok attempt, r) => pure (.ok { lease with lease := attempt }, r)

def revocationRecord (publisher : Text) (incarnation : PublisherIncarnation) : ByteWriter 256 :=
  (ByteWriter.empty.ident publisher).u64 incarnation

def revocationMutation (publisher : Text) (removed : PublisherLease) (payload : Bytes) :
    Mutation where
  type := .revokePublisher
  payload := payload
  digest := sha256 publisher
  apply _ r := { r with leases := r.leases.erase publisher }
  rollback _ r := { r with leases := r.leases.insert publisher removed }

def revokePublisher (r : Registry) (clock : UInt64) (publisher : Text)
    (incarnation : PublisherIncarnation) : Files (Result Unit × Registry) :=
  let r := r.tick clock
  if !isValid publisher || incarnation == 0 then
    pure (.error (makeError .invalidArgument "revocation names an invalid publisher"), r)
  else
    match (r.leases.lookup publisher).filter (·.incarnation == incarnation) with
    | none => pure (.error (makeError .fenced "revocation does not match the live lease"), r)
    | some removed =>
        match (revocationRecord publisher incarnation).data with
        | none => pure (.error (makeError .tooLarge "revocation record exceeds its budget"), r)
        | some payload => do
            match ← r.journalled (revocationMutation publisher removed payload) with
            | (.error e, r) => pure (.error e, r)
            | (.ok _, r) => pure (.ok (), r)

def expireLeases (r : Registry) (clock : UInt64) : Registry :=
  let r := r.tick clock
  { r with
    leases := r.leases.keep fun lease =>
      !(lease.expiresAtMs ≤ r.nowMs || lease.epoch != r.currentEpoch) }

/-! ## Contracts -/

def rejection (r : Registry) (request : ContractRequest) (reason : Text) : ContractDecision :=
  ContractDecision.sealed {
    contract := request.contract
    contractGeneration := request.contractGeneration
    outcome := .rejected
    classId := request.classId
    classGeneration := request.classGeneration
    classDigest := .zero
    subject := request.subject
    subjectGeneration := request.subjectGeneration
    path := request.path
    pathGeneration := request.pathGeneration
    pathDigest := .zero
    policy := request.policy
    policyGeneration := request.policyGeneration
    policyDigest := .zero
    priority := request.priority
    priorityGeneration := request.priorityGeneration
    fabricEpoch := r.currentEpoch
    observedEpoch := request.observedEpoch
    decidedAtMs := r.nowMs
    obligations := []
    resources := []
    degradations := []
    authority := [epochAuthority r.currentEpoch]
    bindingObligation := none
    bindingResource := none
    unknownComponents := 0
    violatedObligations := 0
    unsatisfiedDiversityDomains := 0
    primaryReason := reason.take Limits.maxReasonLen
    requestDigest := request.computeDigest
    decisionDigest := .zero
    provenance := .make (text "registry") r.currentEpoch 1 1 }

def evidenceFor (r : Registry) (kind : EntityKind) (component : PathComponent) :
    Option kind.Carrier :=
  (r.findLatest kind component.resource).toOption

def currencyOf (r : Registry) (kind : EntityKind) (identifier : Text) : Option Generation :=
  (r.entityFor kind identifier 0).toOption.map kind.generation

/-- The input assembly of `Evaluate`. -/
def inputsFor (r : Registry) (request : ContractRequest) (klass : QoSClass) (policy : Policy)
    (path : Path) : EvaluationInputs where
  request := request
  klass := klass
  policy := policy
  path := path
  capabilities := path.components.map (r.evidenceFor .capability)
  reservations := path.components.map (r.evidenceFor .reservation)
  currency := {
    latestClassGeneration := r.currencyOf .class request.classId
    latestPolicyGeneration := r.currencyOf .policy request.policy
    latestPathGeneration := r.currencyOf .path request.path }
  conflicts := r.conflicts
  currentEpoch := r.currentEpoch
  nowMs := r.nowMs
  evaluator := text "registry:" ++ r.store.storeId.take 16

/-- The decision `Evaluate` makes, before it is recorded. -/
def decide (r : Registry) (request : ContractRequest) : Result ContractDecision :=
  match validateRequest request with
  | .error e => .ok (r.rejection request (text "request rejected at intake: " ++ e.detail))
  | .ok () =>
      match r.entityFor .policy request.policy request.policyGeneration with
      | .error _ => .ok (r.rejection request (text "policy definition is absent from the registry"))
      | .ok policy =>
          match r.entityFor .path request.path request.pathGeneration with
          | .error _ => .ok (r.rejection request (text "path definition is absent from the registry"))
          | .ok path =>
              match r.entityFor .class request.classId request.classGeneration with
              | .error _ => .ok (r.rejection request
                  (text "service class definition is absent from the registry"))
              | .ok klass => QoSFabric.evaluate (r.inputsFor request klass policy path)

def forgetDecision (decision : ContractDecision) (before r : Registry) : Registry :=
  let key := keyOf decision.contract decision.contractGeneration
  { r with
    decisions := r.decisions.erase key
    decisionOrder :=
      if (before.decisions.lookup key).isNone then r.decisionOrder.dropLast else r.decisionOrder }

def decisionMutation (decision : ContractDecision) (payload : Bytes) : Mutation where
  type := .recordDecision
  payload := payload
  digest := decision.decisionDigest
  apply _ r := r.holdDecision decision
  rollback := forgetDecision decision

def recordDecision (r : Registry) (decision : ContractDecision) : Files (Result Unit × Registry) :=
  match (encodeDecision decision
      (.empty : ByteWriter Limits.maxCanonicalRecordBytes)).data with
  | none => pure (.error (makeError .tooLarge "decision exceeds the canonical record budget"), r)
  | some payload => do
      match ← r.journalled (decisionMutation decision payload) with
      | (.error e, r) => pure (.error e, r)
      | (.ok _, r) => pure (.ok (), r.pruneDecisions)

def evaluate (r : Registry) (clock : UInt64) (request : ContractRequest) :
    Files (Result ContractDecision × Registry) :=
  let r := r.tick clock
  match r.decide request with
  | .error e => pure (.error e, r)
  | .ok decision => do
      match ← r.recordDecision decision with
      | (.error e, r) => pure (.error e, r)
      | (.ok (), r) => pure (.ok decision, r)

def setNowMillis (r : Registry) (value : UInt64) : Registry :=
  { r with nowMs := value, clockPinned := true }

/-! ## Opening and closing -/

/-- `open_impl` once the store is open: the snapshot, the log, and the epoch an authority takes. -/
def restore (options : RegistryOptions) (store : Store) (clock : UInt64) :
    Files (Result Registry) :=
  match (fresh options store clock).loadSnapshotState store.snapshotBytes with
  | .error e => pure (.error e)
  | .ok r =>
      match r.rebuildFromLog store.replayed with
      | .error e => pure (.error e)
      | .ok r =>
          if !options.claimAuthority then pure (.ok r)
          else do
            match ← r.advanceEpochLocked (text "fabric-authority-restart") with
            | (.error e, _) => pure (.error e)
            | (.ok _, r) => pure (.ok { r with leases := ∅ })

/-- `Registry::Open`, with the boot identity the store would generate. -/
def «open» (options : RegistryOptions) (clock : UInt64) (boot : Bytes) :
    Files (Result Registry) :=
  if options.maxGenerationsPerId = 0 ∨ options.maxGenerationsPerId > 1024 then
    pure (.error (makeError .invalidArgument "generation retention outside the supported range"))
  else do
    match ← Store.open options.store boot with
    | .error e => pure (.error e)
    | .ok store => restore options store clock

def close (r : Registry) : Files (Result Unit × Registry) := do
  let (result, store) ← r.store.close
  pure (result, { r with store })

end Registry

end QoSFabric
