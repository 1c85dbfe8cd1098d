import QoSFabric.Proof.Registry.Pins
import QoSFabric.Proof.Registry.Progress
import QoSFabric.Proof.Registry.Recordable
import QoSFabric.Proof.Registry.Retention

/-!
# Recorded verdicts

Every request is decided, and a decision of the engine always fits its record. A rejection copies the
identifiers of a malformed request, and the record takes no identifier longer than a definition may
have, so a request with a longer one is answered by an error and nothing is recorded of it.
-/

namespace QoSFabric

open FileSystem Interaction Registry

variable {r r' : Registry} {D : Durable} {kind : EntityKind}

/-! ## The order of the decisions -/

theorem length_evict (order : List Text) (decisions : Table Text ContractDecision) :
    (evict order decisions).1.length ≤ Limits.maxDecisionsRetained := by
  induction order generalizing decisions with
  | nil => exact Nat.zero_le _
  | cons oldest rest ih =>
      unfold evict
      split
      · exact ih _
      next within => exact Nat.not_lt.mp within

def Registry.Queues (r : Registry) : Prop := r.decisionOrder.length ≤ Limits.maxDecisionsRetained

theorem queues_pruneDecisions (r : Registry) : r.pruneDecisions.Queues := length_evict _ _

theorem queues_prune (r : Registry) : r.prune.Queues := by
  unfold Queues prune pruneDecisions
  exact length_evict r.decisionOrder r.decisions

theorem queues_recovered {options : RegistryOptions} {store : Store} {clock : UInt64}
    (recovers : Recovers options store clock D r) : r.Queues := by
  obtain ⟨loaded, load, rebuilt⟩ := recovers
  have recovering : Recovering Queues :=
    { epochs := fun _ _ _ h => h, watermark := fun _ _ _ h => h, push := fun _ _ _ h => h,
      conflicts := fun _ _ h => h, marker := fun _ _ h => h,
      decided := fun r decision _ => queues_pruneDecisions (r.holdDecision decision) }
  apply recovering.rebuilt _ rebuilt
  unfold loadSnapshotState at load
  split at load
  · cases load
    exact Nat.zero_le _
  obtain ⟨decoded, read, rfl⟩ := Decode.map_eq_ok.mp load
  have loading : Loading fun r => r.decisionOrder = [] :=
    ⟨fun _ _ _ h => h, fun _ _ _ h => h, fun _ _ _ h => h, fun _ _ h => h⟩
  have yields := loading.yields_state (J := fun n r => r.decisionOrder.length ≤ n)
    (r := fresh options store clock) ?_ ?_ ?_ rfl
  · obtain ⟨n, small, within⟩ := yields.ok _ _ _ read
    exact Nat.le_trans within small
  · intro r order
    rw [order]
    exact Nat.le_refl _
  · intro n r value within
    rw [List.length_append, List.length_singleton]
    exact Nat.succ_le_succ within
  · intro n r within
    exact Nat.le_succ_of_le within

theorem queues_forgetDecision (decision : ContractDecision) (queues : r.Queues) (store : Store) :
    (forgetDecision decision r ((r.holdDecision decision).withStore store)).Queues := by
  unfold Queues forgetDecision
  dsimp only
  split
  next new =>
    show (if (r.decisions.lookup _).isNone then r.decisionOrder ++ [decision.contract]
      else r.decisionOrder).dropLast.length ≤ _
    rw [if_pos new, List.dropLast_concat]
    exact queues
  next held =>
    show (if (r.decisions.lookup _).isNone then r.decisionOrder ++ [decision.contract]
      else r.decisionOrder).length ≤ _
    rw [if_neg held]
    exact queues

/-! ## Origins -/

def Registry.Constructed (r : Registry) : Prop :=
  ∀ kind id, ∀ value ∈ (r.tables kind).held id, (kind.provenance value).Clipped

theorem Registry.Constructed.congr (constructed : r.Constructed)
    (held : ∀ kind id, (r'.tables kind).held id = (r.tables kind).held id) : r'.Constructed := by
  intro kind id value mem
  rw [held] at mem
  exact constructed kind id value mem

theorem Registry.Constructed.push (constructed : r.Constructed) {value : kind.Carrier}
    (clipped : (kind.provenance value).Clipped) : (r.push kind value).Constructed := by
  intro other id found mem
  by_cases same : other = kind
  · subst same
    rw [held_push] at mem
    split at mem
    · cases List.mem_append.mp mem with
      | inl before => exact constructed other id found before
      | inr last =>
          rw [List.mem_singleton.mp last]
          exact clipped
    · exact constructed other id found mem
  · rw [tables_push_ne value same] at mem
    exact constructed other id found mem

theorem provenance_readBack (value : kind.Carrier) :
    kind.provenance (kind.readBack value) = kind.provenance value := by
  cases kind <;> rfl

theorem clipped_asserted (epoch : FabricEpoch) (digest : Digest256) (value : kind.Carrier) :
    (kind.provenance (kind.asserted epoch digest .none value)).Clipped := by
  cases kind <;> exact Nat.zero_le _

theorem clipped_withProvenance (origin : Text) (epoch : FabricEpoch) (generation : Generation)
    (sequence : Sequence) (value : kind.Carrier) :
    (kind.provenance (kind.withProvenance (.make origin epoch generation sequence) value)).Clipped := by
  cases kind <;> exact List.length_take_le _ _

theorem Registry.Constructed.prune (constructed : r.Constructed) (orderly : r.Orderly) :
    r.prune.Constructed := by
  intro kind id value mem
  rw [held_prune orderly] at mem
  exact constructed kind id value (List.mem_of_mem_drop mem)

theorem Registry.Constructed.loaded (constructed : r.Constructed) (orderly : r.Orderly)
    (options : RegistryOptions) (store : Store) (clock : UInt64) :
    (r.load (.fresh options store clock)).Constructed := by
  intro kind id value mem
  rw [held_load orderly] at mem
  obtain ⟨saved, held, rfl⟩ := List.mem_map.mp mem
  rw [provenance_readBack]
  exact constructed kind id saved held

structure Constructs (r : Registry) (D : Durable) : Prop where
  faithful : Faithful r D
  queues : r.Queues
  constructed : r.Constructed
  recovered : ∀ {options store clock x}, options.Accepted → Recovers options store clock D x →
    x.Constructed

theorem Constructs.change (constructs : Constructs r D) (faithful : Faithful r' D)
    (queues : r'.Queues) (held : ∀ kind id, (r'.tables kind).held id = (r.tables kind).held id) :
    Constructs r' D :=
  ⟨faithful, queues, constructs.constructed.congr held, constructs.recovered⟩

theorem Constructs.aside (constructs : Constructs r D) {record : LogRecord}
    (faithful : Faithful r' (D.snoc record)) (queues : r'.Queues) (tables : r'.tables = r.tables)
    (aside : ∀ kind : EntityKind, record.type ≠ kind.recordType) : Constructs r' (D.snoc record) where
  faithful := faithful
  queues := queues
  constructed := constructs.constructed.congr fun _ _ => by rw [tables]
  recovered accepted recovers := by
    obtain ⟨x, before, applied⟩ := recovers_snoc.mp recovers
    apply (constructs.recovered accepted before).congr
    rw [tables_applyRecord applied aside]
    exact fun _ _ => rfl

theorem invariant_constructs : Invariant (fun _ _ _ => True) Constructs where
  store store constructs := constructs.change (compactable_faithful.store store constructs.faithful)
    constructs.queues fun _ _ => rfl
  pruned constructs :=
    { faithful := constructs.faithful.prune
      queues := queues_prune _
      constructed := constructs.constructed.prune constructs.faithful.sane.orderly
      recovered := constructs.recovered }
  compacted {r D bytes} constructs encoded := by
    have sane := constructs.faithful.sane.prune
    have constructed := constructs.constructed.prune constructs.faithful.sane.orderly
    refine ⟨sane.saved encoded, queues_prune r, constructed, ?_⟩
    intro options store clock x accepted recovers
    rw [recovers_saved encoded recovers]
    exact constructed.loaded sane.orderly options store clock
  clock nowMs clockPinned constructs := constructs.change
    (constructs.faithful.aside _ nowMs clockPinned) constructs.queues fun _ _ => rfl
  equivocated := by
    intro clock r D call kind value r₁ D₁ r' D' incumbent payload _ _ _ _ _ recorded _ constructs
    constructor
    · intro attempt store
      exact constructs.change (constructs.faithful.unconflicted _ _ attempt store) constructs.queues
        fun _ _ => rfl
    · intro _ sequence
      apply constructs.aside (constructs.faithful.conflicted recorded sequence) constructs.queues rfl
      exact fun kind => by cases kind <;> exact nofun
  accepted := by
    intro clock r D call kind value r₁ D₁ r' D' payload before _ asserts readied valid positive
      admitted recorded ready constructs
    have faithful := @Invariant.accepted _ _ invariant_faithful clock r D call kind value r₁ D₁ r' D'
      payload before.faithful trivial asserts readied valid positive admitted recorded ready
      constructs.faithful
    constructor
    · intro attempt store
      apply constructs.change (faithful.undone attempt store) constructs.queues
      have orderly := constructs.faithful.sane.orderly
      exact (@alike_unpublished r' kind orderly _ payload attempt store).held
    · intro attempt sequence
      refine ⟨faithful.done attempt sequence, constructs.queues, ?_, ?_⟩
      · exact constructs.constructed.push (clipped_withProvenance ..)
      · intro options store clock x accepted recovers
        obtain ⟨x, before, applied⟩ := recovers_snoc.mp recovers
        rw [applyRecord_publication recorded applied]
        apply (constructs.recovered accepted before).push
        rw [provenance_readBack]
        exact clipped_asserted ..
  registered := by
    intro r D publisher incarnation boot ttlMs lease origin payload r' D' before granted recorded
      ready constructs
    have faithful := invariant_faithful.registered before.faithful granted recorded ready
      constructs.faithful
    constructor
    · intro attempt store
      exact constructs.change (faithful.undone attempt store) constructs.queues fun _ _ => rfl
    · intro attempt sequence
      apply constructs.aside (faithful.done attempt sequence) constructs.queues rfl
      exact fun kind => by cases kind <;> exact nofun
  revoked := by
    intro r D publisher removed payload r' D' before held ready constructs
    have faithful : Mutates Faithful (revocationMutation publisher removed payload) r' D' :=
      invariant_faithful.revoked before.faithful held ready constructs.faithful
    constructor
    · intro attempt store
      exact constructs.change (faithful.undone attempt store) constructs.queues fun _ _ => rfl
    · intro attempt sequence
      apply constructs.aside (faithful.done attempt sequence) constructs.queues rfl
      exact fun kind => by cases kind <;> exact nofun
  decided := by
    intro clock r D request decision payload r' D' before _ decided recorded ready constructs
    have faithful := invariant_faithful.decided before.faithful trivial decided recorded ready
      constructs.faithful
    constructor
    · intro attempt store
      exact constructs.change (faithful.1 attempt store)
        (queues_forgetDecision decision constructs.queues store) fun _ _ => rfl
    · intro sequence
      apply constructs.aside (faithful.2 sequence) (queues_pruneDecisions _) rfl
      exact fun kind => by cases kind <;> exact nofun
  advanced sequence constructs increment recorded := by
    apply constructs.aside (constructs.faithful.advanced increment recorded sequence)
      constructs.queues rfl
    exact fun kind => by cases kind <;> exact nofun
  expired constructs := constructs.change (constructs.faithful.aside _ _ _) constructs.queues
    fun _ _ => rfl

structure Durable.Constructs (D : Durable) : Prop where
  sane : D.Sane
  recovered : ∀ {options store clock x}, options.Accepted → Recovers options store clock D x →
    x.Constructed

theorem Constructs.durable (constructs : Constructs r D) : D.Constructs :=
  ⟨constructs.faithful.durable, constructs.recovered⟩

theorem Durable.Constructs.restored {options : RegistryOptions} {clock : UInt64} {D' : Durable}
    (constructs : D.Constructs) (restored : Restored options clock D r D') : QoSFabric.Constructs r D' := by
  have recovered {store : Store} {x : Registry} (accepted : options.Accepted)
      (recovers : Recovers options store clock D x) : QoSFabric.Constructs x D :=
    ⟨constructs.sane.faithful accepted recovers, queues_recovered recovers,
      constructs.recovered accepted recovers, constructs.recovered⟩
  cases restored with
  | observed accepted _ recovers => exact recovered accepted recovers
  | claimed accepted _ recovers advancing =>
      exact invariant_constructs.advancing (recovered accepted recovers) advancing

theorem restarts_constructs (meets : Site → Event → Prop) :
    Restarts meets Constructs Durable.Constructs where
  empty := by
    refine ⟨Durable.sane_empty, ?_⟩
    intro options store clock x _ recovers kind id value mem
    rw [recovers_empty recovers] at mem
    change value ∈ GenerationTable.held (∅ : GenerationTable kind) id at mem
    rw [GenerationTable.held_empty] at mem
    cases mem
  durable constructs := constructs.durable
  opened _ _ restored constructs := constructs.restored restored
  cutOpening restored constructs := (constructs.restored restored).durable
  cutCall _ effect constructs := (invariant_constructs.effect constructs trivial effect).durable

theorem Run.constructs {openings : Openings} {events : List Event} {d : Disk FileName}
    (run : Run openings events (.up r d)) : ∃ D, Drives r.store d D ∧ Constructs r D :=
  run.standing invariant_constructs (restarts_constructs _) fun _ => trivial

/-! ## What a registry decides -/

variable {request : ContractRequest} {decision : ContractDecision}

theorem decide_ok (r : Registry) (request : ContractRequest) :
    ∃ decision, r.decide request = .ok decision := by
  unfold Registry.decide
  split
  · exact ⟨_, rfl⟩
  split
  · exact ⟨_, rfl⟩
  split
  · exact ⟨_, rfl⟩
  split
  · exact ⟨_, rfl⟩
  · exact Proof.Engine.evaluate_ok _

theorem decide_malformed {e : Error} (malformed : validateRequest request = .error e)
    (decided : r.decide request = .ok decision) :
    decision = r.rejection request (text "request rejected at intake: " ++ e.detail) := by
  unfold Registry.decide at decided
  rw [malformed] at decided
  exact (Except.ok.inj decided).symm

theorem clipped_entityFor (constructed : r.Constructed) (orderly : r.Orderly) {id : Text}
    {generation : Generation} {value : kind.Carrier}
    (found : r.entityFor kind id generation = .ok value) : (kind.provenance value).Clipped :=
  constructed kind id value (orderly.entityFor_ok found).1

theorem clipped_inputsFor (constructed : r.Constructed) (orderly : r.Orderly)
    (origin : request.provenance.Clipped) {klass : QoSClass} {policy : Policy} {path : Path}
    (policyFor : r.entityFor .policy request.policy request.policyGeneration = .ok policy)
    (pathFor : r.entityFor .path request.path request.pathGeneration = .ok path)
    (classFor : r.entityFor .class request.classId request.classGeneration = .ok klass) :
    (r.inputsFor request klass policy path).Clipped := by
  have evidence {kind : EntityKind} {value : kind.Carrier}
      (mem : some value ∈ path.components.map (r.evidenceFor kind)) :
      (kind.provenance value).Clipped := by
    obtain ⟨component, -, found⟩ := List.mem_map.mp mem
    unfold Registry.evidenceFor at found
    rw [orderly.findLatest] at found
    exact constructed kind _ value (List.mem_of_getLast? found)
  constructor
  case request => exact origin
  case klass => exact clipped_entityFor constructed orderly classFor
  case policy => exact clipped_entityFor constructed orderly policyFor
  case path => exact clipped_entityFor constructed orderly pathFor
  case capabilities => exact fun capability mem => @evidence .capability capability mem
  case reservations => exact fun reservation mem => @evidence .reservation reservation mem

theorem recorded_of_short (constructed : r.Constructed) (orderly : r.Orderly)
    (origin : request.provenance.Clipped) (short : request.Short)
    (decided : r.decide request = .ok decision) :
    ∃ payload, decision.record = some payload ∧ payload.length ≤ Limits.maxCanonicalRecordBytes := by
  cases Registry.decides decided with
  | rejected reason =>
      obtain ⟨payload, recorded, within⟩ := within_rejection short r reason
      exact ⟨payload, recorded, Nat.le_trans within (by decide)⟩
  | evaluated valid policyFor pathFor classFor evaluated =>
      have accepted := Registry.Assembles.accepted orderly
        ⟨_, _, _, valid, policyFor, pathFor, classFor, rfl⟩
      have clipped := clipped_inputsFor constructed orderly origin policyFor pathFor classFor
      exact (short_evaluate accepted clipped evaluated).recorded

theorem yields_readIdentifier :
    Decode.Yields readIdentifier fun value => value.length ≤ Limits.maxIdentifierLen := by
  constructor
  intro reader value reader' eq
  obtain rfl : (Read.str Limits.maxIdentifierLen reader).1 = value :=
    congrArg Prod.fst (Except.ok.inj eq)
  unfold Read.str
  dsimp only
  split
  · exact Nat.zero_le _
  split
  · exact Nat.zero_le _
  next fits =>
    split
    · exact Nat.zero_le _
    next view reader' taken =>
      unfold Read.raw at taken
      split at taken
      · cases taken
      split at taken
      · cases taken
      · cases taken
        exact Nat.le_trans (List.length_take_le _ _) (Nat.not_lt.mp fits)

theorem yields_decision : Decode.Yields decodeDecision fun value =>
    value.contract.length ≤ Limits.maxIdentifierLen ∧
    value.subject.length ≤ Limits.maxIdentifierLen ∧
    value.classId.length ≤ Limits.maxIdentifierLen ∧
    value.path.length ≤ Limits.maxIdentifierLen ∧
    value.policy.length ≤ Limits.maxIdentifierLen ∧
    value.priority.length ≤ Limits.maxIdentifierLen := by
  unfold decodeDecision
  iterate 3
    apply Decode.Yields.after
    intro _
  apply Decode.Yields.ite
  · exact fun _ => .refuse
  intro _
  apply Decode.Yields.bind yields_readIdentifier
  intro contract contractShort
  iterate 2
    apply Decode.Yields.after
    intro _
  apply Decode.Yields.bind yields_readIdentifier
  intro klass classShort
  iterate 2
    apply Decode.Yields.after
    intro _
  apply Decode.Yields.bind yields_readIdentifier
  intro subject subjectShort
  apply Decode.Yields.after
  intro _
  apply Decode.Yields.bind yields_readIdentifier
  intro path pathShort
  iterate 2
    apply Decode.Yields.after
    intro _
  apply Decode.Yields.bind yields_readIdentifier
  intro policy policyShort
  iterate 2
    apply Decode.Yields.after
    intro _
  apply Decode.Yields.bind yields_readIdentifier
  intro priority priorityShort
  iterate 20
    apply Decode.Yields.after
    intro _
  apply Decode.Yields.ite
  · exact fun _ => .pure ⟨contractShort, subjectShort, classShort, pathShort, policyShort, priorityShort⟩
  · exact fun _ => .refuse

theorem short_of_recorded {reason payload : Bytes}
    (recorded : (r.rejection request reason).record = some payload) : request.Short := by
  have decides : Decides r request (r.rejection request reason) := .rejected reason
  have settled := decides.settled
  have short := yields_decision.ok _ _ _ (settled.decode recorded)
  exact ⟨short.1, short.2.1, short.2.2.1, short.2.2.2.1, short.2.2.2.2.1, short.2.2.2.2.2⟩

/-! ## What is retained -/

theorem lookup_evict_last (before : List Text) {decisions : Table Text ContractDecision} {key : Text}
    (held : decisions.lookup key = some decision) :
    (evict (before ++ [decision.contract]) decisions).2.lookup key = some decision := by
  induction before generalizing decisions with
  | nil =>
      have one : [decision.contract].length ≤ Limits.maxDecisionsRetained :=
        show 1 ≤ _ by decide
      rw [List.nil_append, evict_of_le one]
      exact held
  | cons oldest before ih =>
      rw [List.cons_append]
      unfold evict
      split
      · apply ih
        split
        · exact held
        next absent =>
          have other : decision.contract ≠ oldest := by
            rintro rfl
            exact absent (by simp)
          rw [Table.lookup_keep, held, Option.filter_some, if_pos (bne_iff_ne.mpr other)]
      · exact held

theorem lookup_recorded (queues : r.Queues) (decision : ContractDecision) :
    (r.holdDecision decision).pruneDecisions.decisions.lookup
      (keyOf decision.contract decision.contractGeneration) = some decision := by
  have held : (r.decisions.insert (keyOf decision.contract decision.contractGeneration)
      decision).lookup (keyOf decision.contract decision.contractGeneration) = some decision :=
    AList.lookup_insert _
  unfold pruneDecisions holdDecision
  dsimp only
  split
  · exact lookup_evict_last r.decisionOrder held
  · rw [evict_of_le queues]
    exact held

/-! ## Verdicts -/

/-- A store that stages and commits whatever fits a record. -/
def Store.Accepts (s : Store) (d : Disk FileName) : Prop :=
  ∀ (type : RecordType) (payload : Bytes) (digest : Digest256),
    payload.length ≤ Limits.maxCanonicalRecordBytes →
    ∃ attempt s₁ d₁ s₂ d₂, execute (s.stage type payload) d = ((.ok attempt, s₁), d₁) ∧
      execute (s₁.commit attempt digest) d₁ = ((.ok (), s₂), d₂)

def Logged (d : Disk FileName) (decision : ContractDecision) : Prop :=
  ∃ D sequence payload decoded, Keeps d D ∧
    ⟨.recordDecision, sequence, payload⟩ ∈ D.history ∧
    decodeDecision (.ofBytes payload) = .ok (decoded, ⟨some []⟩) ∧ decoded.sealed = decision

/-- A request is answered by a decision, a malformed one by a rejection, and that decision is logged
and retained. -/
def Registry.GivesVerdict (r : Registry) (d : Disk FileName) (clock : UInt64)
    (request : ContractRequest) : Prop :=
  ∃ decision r' d', execute (r.call clock (.evaluate request)) d =
      ((.decided (.ok decision), r'), d') ∧
    (∀ e, validateRequest request = .error e → decision.outcome = .rejected) ∧
    Logged d' decision ∧
    r'.decisions.lookup (keyOf decision.contract decision.contractGeneration) = some decision

variable {openings : Openings} {events : List Event} {d d' : Disk FileName} {clock : UInt64}

theorem Registry.execute_evaluate {payload : Bytes} (accepts : r.store.Accepts d)
    (decided : (r.tick clock).decide request = .ok decision)
    (recorded : decision.record = some payload)
    (within : payload.length ≤ Limits.maxCanonicalRecordBytes) :
    ∃ between store d', execute (r.call clock (.evaluate request)) d =
      ((.decided (.ok decision), (((r.tick clock).withStore between).holdDecision decision
        |>.withStore store).pruneDecisions), d') := by
  obtain ⟨attempt, s₁, d₁, s₂, d₂, staged, committed⟩ :=
    accepts .recordDecision payload decision.decisionDigest within
  rw [← r.store_tick clock] at staged
  have executed := Registry.execute_journalled (steady_decisionMutation decision payload) staged
    committed
  refine ⟨s₁, s₂, d₂, ?_⟩
  unfold Registry.call Registry.evaluate Registry.recordDecision
  dsimp only
  rw [decided]
  dsimp only
  unfold ContractDecision.record at recorded
  rw [recorded]
  dsimp only
  rw [execute_bind, execute_bind, execute_bind, executed]
  rfl

theorem Run.logged (run : Run openings events (.up r d))
    (answered : execute (r.call clock (.evaluate request)) d =
      ((.decided (.ok decision), r'), d')) : Logged d' decision := by
  have step : Step openings (.up r d) (.called clock (.evaluate request) (.decided (.ok decision)))
      (.up r' d') := .called (ends_of_execute answered)
  obtain ⟨D, refines, -⟩ := run.faithful
  obtain ⟨_, _, D', same, effect, drives⟩ := step.effect refines
  cases same
  generalize answer : Answer.decided (.ok decision) = given at effect
  cases effect with
  | evaluate decided recording =>
      cases recording with
      | refused e => cases answer
      | failed recorded journalled => cases answer
      | done recorded journalled =>
          cases answer
          have settled := (Registry.decides decided).settled
          cases journalled with
          | done attempt sequence store ready =>
              exact ⟨_, sequence, _, _, drives.keeps,
                List.mem_append_right _ (List.mem_singleton_self _), settled.decode recorded,
                settled.fixed⟩
  | undecided e => cases answer

theorem Registry.GivesVerdict.of_short (run : Run openings events (.up r d))
    (accepts : r.store.Accepts d) (origin : request.provenance.Clipped) (short : request.Short) :
    r.GivesVerdict d clock request := by
  obtain ⟨D, -, constructs⟩ := run.constructs
  have ticked : Constructs (r.tick clock) D := invariant_constructs.tick constructs
  obtain ⟨decision, decided⟩ := decide_ok (r.tick clock) request
  obtain ⟨payload, recorded, within⟩ := recorded_of_short ticked.constructed
    ticked.faithful.sane.orderly origin short decided
  obtain ⟨between, store, d', answered⟩ := Registry.execute_evaluate accepts decided recorded within
  refine ⟨decision, _, d', answered, ?_, run.logged answered, ?_⟩
  · intro e malformed
    rw [decide_malformed malformed decided]
    rfl
  · have queues : ((r.tick clock).withStore between).Queues := ticked.queues
    exact lookup_recorded queues decision

theorem Registry.GivesVerdict.short (verdict : r.GivesVerdict d clock request) :
    request.Short := by
  obtain ⟨decision, r', d', answered, -, -⟩ := verdict
  cases valid : validateRequest request with
  | ok => exact short_of_validRequest valid
  | error e =>
      have decided : (r.tick clock).decide request =
          .ok ((r.tick clock).rejection request (text "request rejected at intake: " ++ e.detail)) := by
        unfold Registry.decide
        rw [valid]
      cases recorded : ((r.tick clock).rejection request
          (text "request rejected at intake: " ++ e.detail)).record with
      | some payload => exact short_of_recorded recorded
      | none =>
          unfold Registry.call Registry.evaluate Registry.recordDecision at answered
          dsimp only at answered
          rw [decided] at answered
          unfold ContractDecision.record at recorded
          dsimp only at answered
          rw [recorded] at answered
          cases answered

/-- A request is answered by a recorded decision exactly when its identifiers are as short as those of
a definition, whether they are valid or not. -/
theorem verdict_recorded_iff (run : Run openings events (.up r d)) (accepts : r.store.Accepts d)
    (origin : request.provenance.Clipped) (clock : UInt64) :
    r.GivesVerdict d clock request ↔ request.Short :=
  ⟨fun verdict => verdict.short, fun short => .of_short run accepts origin short⟩

/-! ## An identifier too long -/

theorem Affords.accepts {room : Nat}
    (affords : Affords (120 + Limits.maxCanonicalRecordBytes + room) r d) : r.store.Accepts d := by
  intro type payload digest within
  obtain ⟨attempt, s₁, d₁, s₂, d₂, staged, committed, -⟩ :=
    affords.frames type digest within (by decide)
  exact ⟨attempt, s₁, d₁, s₂, d₂, staged, committed⟩

theorem exists_accepting : ∃ events r d, Run .any events (.up r d) ∧
    r.store.Accepts d := by
  obtain ⟨events, r, d, run, -, -, affords⟩ := exists_repeated 0 (by decide)
  have room : (4097 - 0) * 1920 = 120 + Limits.maxCanonicalRecordBytes + 6817544 := rfl
  rw [room] at affords
  exact ⟨events, r, d, run, affords.accepts⟩

def overlongRequest : ContractRequest :=
  { repeatedRequest 1 with contract := List.replicate 97 99 }

theorem verdict_recorded_iff_absent : ∃ events r d,
    Run .any events (.up r d) ∧ r.store.Accepts d ∧
      r.GivesVerdict d 0 (repeatedRequest 1) := by
  obtain ⟨events, r, d, run, accepts⟩ := exists_accepting
  exact ⟨events, r, d, run, accepts,
    (verdict_recorded_iff run accepts (Nat.zero_le _) 0).mpr (short_repeated 1)⟩

/-- It is answered by an error. -/
theorem overlong_unanswered : ¬∀ openings events r d clock request,
    Run openings events (.up r d) → r.store.Accepts d → request.provenance.Clipped →
      r.GivesVerdict d clock request := by
  intro verdicts
  obtain ⟨events, r, d, run, accepts⟩ := exists_accepting
  have verdict := verdicts _ events r d 0 overlongRequest run accepts (Nat.zero_le _)
  have short := verdict.short.contract
  exact absurd short (by decide)

end QoSFabric
