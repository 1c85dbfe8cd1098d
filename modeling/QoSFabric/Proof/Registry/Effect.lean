import QoSFabric.Model.Fabric

namespace QoSFabric

structure Durable where
  payload : Bytes
  history : List LogRecord

namespace Durable

def empty : Durable := ⟨[], []⟩

def snoc (D : Durable) (record : LogRecord) : Durable := ⟨D.payload, D.history ++ [record]⟩

def Front (D₀ D : Durable) : Prop := D₀.payload = D.payload ∧ D₀.history <+: D.history

variable {D D₀ : Durable} {bytes : Bytes} {record : LogRecord}

theorem Front.refl (D : Durable) : D.Front D := ⟨rfl, List.prefix_refl _⟩

theorem Front.trans {D₁ : Durable} (front : D₁.Front D₀) (other : D₀.Front D) : D₁.Front D :=
  ⟨front.1.trans other.1, front.2.trans other.2⟩

theorem Front.eq_of_nil (front : D₀.Front ⟨bytes, []⟩) : D₀ = ⟨bytes, []⟩ := by
  obtain ⟨payload, history⟩ := D₀
  obtain ⟨payload, history⟩ := front
  exact congrArg₂ Durable.mk payload (List.prefix_nil.mp history)

theorem Front.of_snoc (front : D₀.Front (D.snoc record)) : D₀ = D.snoc record ∨ D₀.Front D := by
  obtain ⟨payload, history⟩ := front
  rcases List.prefix_concat_iff.mp history with whole | history
  · exact .inl (congrArg₂ Durable.mk payload whole)
  · exact .inr ⟨payload, history⟩

end Durable

def Registry.withStore (r : Registry) (store : Store) : Registry := { r with store }

inductive Readied (r : Registry) (D : Durable) : Registry → Durable → Prop where
  | same (store : Store) : Readied r D (r.withStore store) D
  | pruned (store : Store) {r' : Registry} {D' : Durable} (ready : Readied r D r' D') :
      Readied r D (r'.prune.withStore store) D'
  | compacted (store : Store) {r' : Registry} {D' : Durable} {bytes : Bytes}
      (ready : Readied r D r' D') (encoded : r'.prune.encodeSnapshotState = .ok bytes) :
      Readied r D (r'.prune.withStore store) ⟨bytes, []⟩

inductive Compacted (r : Registry) : Registry → Durable → Prop where
  | done (store : Store) {bytes : Bytes} (encoded : r.prune.encodeSnapshotState = .ok bytes) :
      Compacted r (r.prune.withStore store) ⟨bytes, []⟩

inductive Journalling (m : Registry.Mutation) (r : Registry) (D : Durable) :
    Result AttemptId → Registry → Durable → Prop where
  | refused (e : Error) {r' : Registry} {D' : Durable} (ready : Readied r D r' D') :
      Journalling m r D (.error e) r' D'
  | undone (e : Error) (attempt : AttemptId) (store : Store) {r' : Registry} {D' : Durable}
      (ready : Readied r D r' D') :
      Journalling m r D (.error e) (m.rollback r' ((m.apply attempt r').withStore store)) D'
  | done (attempt : AttemptId) (sequence : Sequence) (store : Store) {r' : Registry} {D' : Durable}
      (ready : Readied r D r' D') :
      Journalling m r D (.ok attempt) ((m.apply attempt r').withStore store)
        (D'.snoc ⟨m.type, sequence, m.payload⟩)

inductive Roomy (kind : EntityKind) (identifier : Text) (r : Registry) (D : Durable) :
    Registry → Durable → Prop where
  | open (room : r.windowFull kind identifier = false) : Roomy kind identifier r D r D
  | compacted {r' : Registry} {D' : Durable} (full : r.windowFull kind identifier = true)
      (compacted : Compacted r r' D') : Roomy kind identifier r D r' D'

def equivocationError : Error :=
  makeError .conflict
    "equivocated definition: the identifier and generation already carry different content"

def EntityKind.contentDigest (kind : EntityKind) (value : kind.Carrier) : Digest256 :=
  kind.computeDigest (kind.asserted 0 .zero .none value)

inductive Publishing (kind : EntityKind) (value : kind.Carrier) (r : Registry) (D : Durable) :
    Result Registry.PublicationResult → Registry → Durable → Prop where
  | refused (e : Error) {r' : Registry} {D' : Durable} (ready : Readied r D r' D') :
      Publishing kind value r D (.error e) r' D'
  | held {latest : Generation} {r' : Registry} {D' : Durable} (valid : kind.validate value = .ok ())
      (room : Roomy kind (kind.entityId value) r D r' D')
      (admitted : Registry.admission kind (r'.tables kind) value (kind.contentDigest value) =
        .held latest) :
      Publishing kind value r D (.ok ⟨latest, 0, kind.contentDigest value⟩) r' D'
  | equivocated {incumbent : Digest256} {payload : Bytes} {result : Result AttemptId}
      {r₁ r' : Registry} {D₁ D' : Durable} (valid : kind.validate value = .ok ())
      (room : Roomy kind (kind.entityId value) r D r₁ D₁)
      (admitted : Registry.admission kind (r₁.tables kind) value (kind.contentDigest value) =
        .equivocated incumbent)
      (recorded : (Registry.conflictRecord (r₁.equivocationMarker kind value incumbent
        (kind.contentDigest value))).data = some payload)
      (journalled : Journalling (Registry.conflictMutation (r₁.equivocationMarker kind value
        incumbent (kind.contentDigest value)) payload) r₁ D₁ result r' D') :
      Publishing kind value r D (result.bind fun _ => .error equivocationError) r' D'
  | accepted {payload : Bytes} {result : Result AttemptId} {r₁ r' : Registry} {D₁ D' : Durable}
      (valid : kind.validate value = .ok ()) (positive : kind.generation value ≠ 0)
      (room : Roomy kind (kind.entityId value) r D r₁ D₁)
      (admitted : Registry.admission kind (r₁.tables kind) value (kind.contentDigest value) = .accepted)
      (recorded : (kind.encode (kind.asserted r₁.currentEpoch (kind.contentDigest value) .none value)
        (.empty : ByteWriter Limits.maxCanonicalRecordBytes)).data = some payload)
      (journalled : Journalling (Registry.publicationMutation kind
        (kind.asserted r₁.currentEpoch (kind.contentDigest value) .none value) payload) r₁ D₁
        result r' D') :
      Publishing kind value r D
        (result.map fun attempt => ⟨kind.generation value, attempt, kind.contentDigest value⟩) r' D'

inductive Recording (decision : ContractDecision) (r : Registry) (D : Durable) :
    Result Unit → Registry → Durable → Prop where
  | refused (e : Error) : Recording decision r D (.error e) r D
  | failed {payload : Bytes} {e : Error} {r' : Registry} {D' : Durable}
      (recorded : (encodeDecision decision
        (.empty : ByteWriter Limits.maxCanonicalRecordBytes)).data = some payload)
      (journalled : Journalling (Registry.decisionMutation decision payload) r D (.error e) r' D') :
      Recording decision r D (.error e) r' D'
  | done {payload : Bytes} {attempt : AttemptId} {r' : Registry} {D' : Durable}
      (recorded : (encodeDecision decision
        (.empty : ByteWriter Limits.maxCanonicalRecordBytes)).data = some payload)
      (journalled : Journalling (Registry.decisionMutation decision payload) r D (.ok attempt)
        r' D') :
      Recording decision r D (.ok ()) r'.pruneDecisions D'

inductive Advancing (reason : Text) (r : Registry) (D : Durable) :
    Result FabricEpoch → Registry → Durable → Prop where
  | refused (e : Error) (store : Store) : Advancing reason r D (.error e) (r.withStore store) D
  | done {next : FabricEpoch} {payload : Bytes} (sequence : Sequence) (store : Store)
      (increment : Store.tryIncrement r.durableEpoch = some next)
      (recorded : (Registry.epochRecord next reason).data = some payload) :
      Advancing reason r D (.ok next)
        { r with store, durableEpoch := next, currentEpoch := next, leases := ∅ }
        (D.snoc ⟨.epochAdvance, sequence, payload⟩)

inductive Effect (clock : UInt64) (r : Registry) (D : Durable) :
    Call → Answer → Registry → Durable → Prop where
  | publishClass {value : QoSClass} {origin : Text} {result : Result Registry.PublicationResult}
      {r' : Registry} {D' : Durable}
      (publishing : Publishing .class (r.arriving .class value origin) r D result r' D') :
      Effect clock r D (.publishClass value origin) (.published result) r' D'
  | publishPolicy {value : Policy} {origin : Text} {result : Result Registry.PublicationResult}
      {r' : Registry} {D' : Durable}
      (publishing : Publishing .policy (r.arriving .policy value origin) r D result r' D') :
      Effect clock r D (.publishPolicy value origin) (.published result) r' D'
  | publishPath {value : Path} {origin : Text} {result : Result Registry.PublicationResult}
      {r' : Registry} {D' : Durable}
      (publishing : Publishing .path (r.arriving .path value origin) r D result r' D') :
      Effect clock r D (.publishPath value origin) (.published result) r' D'
  | refusedCapability {value : ResourceCapability} (e : Error) :
      Effect clock r D (.publishCapability value) (.published (.error e)) r D
  | publishCapability {value : ResourceCapability} {unauthorized fenced stale : String}
      {result : Result Registry.PublicationResult} {r' : Registry} {D' : Durable}
      (authorized : r.authorize value.publisher value.incarnation value.epoch unauthorized fenced
        stale = .ok ())
      (publishing : Publishing .capability (r.arriving .capability value value.publisher) r D
        result r' D') :
      Effect clock r D (.publishCapability value) (.published result) r' D'
  | refusedReservation {value : Reservation} (e : Error) :
      Effect clock r D (.publishReservation value) (.published (.error e)) r D
  | publishReservation {value : Reservation} {unauthorized fenced stale : String}
      {result : Result Registry.PublicationResult} {r' : Registry} {D' : Durable}
      (authorized : r.authorize value.publisher value.incarnation value.epoch unauthorized fenced
        stale = .ok ())
      (publishing : Publishing .reservation (r.arriving .reservation value value.publisher) r D
        result r' D') :
      Effect clock r D (.publishReservation value) (.published result) r' D'
  | refusedPublisher {publisher : Text} {incarnation : PublisherIncarnation} {boot : BootId}
      {ttlMs : UInt64} {origin : Text} (e : Error) :
      Effect clock r D (.registerPublisher publisher incarnation boot ttlMs origin)
        (.granted (.error e)) (r.tick clock) D
  | registerPublisher {publisher : Text} {incarnation : PublisherIncarnation} {boot : BootId}
      {ttlMs : UInt64} {origin : Text} {lease : PublisherLease} {payload : Bytes}
      {result : Result AttemptId} {r' : Registry} {D' : Durable}
      (granted : (r.tick clock).grant publisher incarnation boot ttlMs = .ok lease)
      (recorded : (Registry.leaseRecord lease origin).data = some payload)
      (journalled : Journalling (Registry.registrationMutation lease payload) (r.tick clock) D
        result r' D') :
      Effect clock r D (.registerPublisher publisher incarnation boot ttlMs origin)
        (.granted (result.map fun attempt => { lease with lease := attempt })) r' D'
  | refusedRevocation {publisher : Text} {incarnation : PublisherIncarnation} (e : Error) :
      Effect clock r D (.revokePublisher publisher incarnation) (.finished (.error e))
        (r.tick clock) D
  | revokePublisher {publisher : Text} {incarnation : PublisherIncarnation}
      {removed : PublisherLease} {payload : Bytes} {result : Result AttemptId} {r' : Registry}
      {D' : Durable} (held : r.leases.lookup publisher = some removed)
      (journalled : Journalling (Registry.revocationMutation publisher removed payload)
        (r.tick clock) D result r' D') :
      Effect clock r D (.revokePublisher publisher incarnation)
        (.finished (result.map fun _ => ())) r' D'
  | expireLeases : Effect clock r D .expireLeases (.finished (.ok ())) (r.expireLeases clock) D
  | advanceEpoch {reason : Text} {result : Result FabricEpoch} {r' : Registry} {D' : Durable}
      (advancing : Advancing reason r D result r' D') :
      Effect clock r D (.advanceEpoch reason) (.advanced result) r' D'
  | evaluate {request : ContractRequest} {decision : ContractDecision} {result : Result Unit}
      {r' : Registry} {D' : Durable} (decided : (r.tick clock).decide request = .ok decision)
      (recording : Recording decision (r.tick clock) D result r' D') :
      Effect clock r D (.evaluate request) (.decided (result.map fun _ => decision)) r' D'
  | undecided {request : ContractRequest} (e : Error) :
      Effect clock r D (.evaluate request) (.decided (.error e)) (r.tick clock) D
  | compacted {r' : Registry} {D' : Durable} (compacted : Compacted r r' D') :
      Effect clock r D .compact (.finished (.ok ())) r' D'
  | uncompacted (e : Error) (store : Store) :
      Effect clock r D .compact (.finished (.error e)) (r.prune.withStore store) D
  | setNowMillis {value : UInt64} :
      Effect clock r D (.setNowMillis value) (.finished (.ok ())) (r.setNowMillis value) D

inductive Decides (r : Registry) (request : ContractRequest) : ContractDecision → Prop where
  | rejected (reason : Text) : Decides r request (r.rejection request reason)
  | evaluated {policy : Policy} {path : Path} {klass : QoSClass} {decision : ContractDecision}
      (valid : validateRequest request = .ok ())
      (policyFor : r.entityFor .policy request.policy request.policyGeneration = .ok policy)
      (pathFor : r.entityFor .path request.path request.pathGeneration = .ok path)
      (classFor : r.entityFor .class request.classId request.classGeneration = .ok klass)
      (evaluated : QoSFabric.evaluate (r.inputsFor request klass policy path) = .ok decision) :
      Decides r request decision

theorem Registry.decides {r : Registry} {request : ContractRequest} {decision : ContractDecision}
    (decided : r.decide request = .ok decision) : Decides r request decision := by
  unfold Registry.decide at decided
  split at decided
  · cases decided
    exact .rejected _
  next valid =>
    split at decided
    · cases decided
      exact .rejected _
    next policy policyFor =>
      split at decided
      · cases decided
        exact .rejected _
      next path pathFor =>
        split at decided
        · cases decided
          exact .rejected _
        next klass classFor => exact .evaluated valid policyFor pathFor classFor decided

theorem evaluate_contract {inputs : EvaluationInputs} {decision : ContractDecision}
    (evaluated : QoSFabric.evaluate inputs = .ok decision) :
    decision.contract = inputs.request.contract ∧
      decision.contractGeneration = inputs.request.contractGeneration := by
  unfold QoSFabric.evaluate at evaluated
  split at evaluated
  · cases evaluated
    exact ⟨rfl, rfl⟩
  · cases evaluated
    exact ⟨rfl, rfl⟩

theorem Decides.contract {r : Registry} {request : ContractRequest} {decision : ContractDecision}
    (decides : Decides r request decision) :
    decision.contract = request.contract ∧
      decision.contractGeneration = request.contractGeneration := by
  cases decides with
  | rejected reason => exact ⟨rfl, rfl⟩
  | evaluated _ _ _ _ evaluated => exact evaluate_contract evaluated

/-- What the members of a registry are loaded to. -/
def Recovers (options : RegistryOptions) (store : Store) (clock : UInt64) (D : Durable)
    (r : Registry) : Prop :=
  ∃ loaded, (Registry.fresh options store clock).loadSnapshotState D.payload = .ok loaded ∧
    loaded.rebuildFromLog D.history = .ok r

/-- The options `Registry::Open` lets through. -/
def RegistryOptions.Accepted (options : RegistryOptions) : Prop :=
  0 < options.maxGenerationsPerId ∧ options.maxGenerationsPerId ≤ 1024

inductive Restored (options : RegistryOptions) (clock : UInt64) (D : Durable) :
    Registry → Durable → Prop where
  | observed {store : Store} {r : Registry} (accepted : options.Accepted)
      (observes : options.claimAuthority = false)
      (recovers : Recovers options store clock D r) : Restored options clock D r D
  | claimed {store : Store} {next : FabricEpoch} {r r' : Registry} {D' : Durable}
      (accepted : options.Accepted) (claims : options.claimAuthority = true)
      (recovers : Recovers options store clock D r)
      (advancing : Advancing (text "fabric-authority-restart") r D (.ok next) r' D') :
      Restored options clock D r' D'

inductive Turn : Option Registry → Durable → Event → Option Registry → Durable → Prop where
  | opened {options : RegistryOptions} {clock : UInt64} {boot : Bytes} {D D' : Durable}
      {r : Registry} (restored : Restored options clock D r D') :
      Turn none D (.opened options clock boot (.ok r.currentEpoch)) (some r) D'
  | refused {options : RegistryOptions} {clock : UInt64} {boot : Bytes} {D : Durable} {e : Error} :
      Turn none D (.opened options clock boot (.error e)) none D
  | cutOpening {options : RegistryOptions} {clock clock' : UInt64} {D D' : Durable} {r : Registry}
      (restored : Restored options clock D r D') : Turn none D (.crashed clock' none) none D'
  | untouched {r : Option Registry} {clock : UInt64} {D : Durable} :
      Turn r D (.crashed clock none) none D
  | called {clock : UInt64} {call : Call} {answer : Answer} {r r' : Registry} {D D' : Durable}
      (effect : Effect clock r D call answer r' D') :
      Turn (some r) D (.called clock call answer) (some r') D'
  | cutCall {clock : UInt64} {call : Call} {answer : Answer} {r r' : Registry} {D D' : Durable}
      (effect : Effect clock r D call answer r' D') :
      Turn (some r) D (.crashed clock (some call)) none D'
  | closed {r : Registry} {D : Durable} : Turn (some r) D .closed none D

theorem Turn.restored {event : Event} {r : Registry} {D D' : Durable}
    (turn : Turn none D event (some r) D') : ∃ options clock boot,
      event = .opened options clock boot (.ok r.currentEpoch) ∧ Restored options clock D r D' := by
  cases turn with
  | opened restored => exact ⟨_, _, _, rfl, restored⟩

theorem Turn.effect {r : Registry} {after : Option Registry} {D D' : Durable} {clock : UInt64}
    {call : Call} {answer : Answer} (turn : Turn (some r) D (.called clock call answer) after D') :
    ∃ r', after = some r' ∧ Effect clock r D call answer r' D' := by
  cases turn with
  | called effect => exact ⟨_, rfl, effect⟩

end QoSFabric
