import QoSFabric.Proof.Registry.Refinement

namespace QoSFabric

open Registry

/-- The definition a call publishes, as it arrives. -/
def Registry.asserts (r : Registry) : Call → Option ((kind : EntityKind) × kind.Carrier)
  | .publishClass value origin => some ⟨.class, r.arriving .class value origin⟩
  | .publishPolicy value origin => some ⟨.policy, r.arriving .policy value origin⟩
  | .publishPath value origin => some ⟨.path, r.arriving .path value origin⟩
  | .publishCapability value => some ⟨.capability, r.arriving .capability value value.publisher⟩
  | .publishReservation value => some ⟨.reservation, r.arriving .reservation value value.publisher⟩
  | _ => none

section Invariant

variable {I : Registry → Durable → Prop} {r r' : Registry} {D D' : Durable}

structure Compactable (I : Registry → Durable → Prop) : Prop where
  store : ∀ {r D} store, I r D → I (r.withStore store) D
  pruned : ∀ {r D}, I r D → I r.prune D
  compacted : ∀ {r D bytes}, I r D → r.prune.encodeSnapshotState = .ok bytes →
    I r.prune ⟨bytes, []⟩

theorem Compactable.readied (compactable : Compactable I) (ready : Readied r D r' D')
    (holds : I r D) : I r' D' := by
  induction ready with
  | same store => exact compactable.store store holds
  | pruned store _ ih => exact compactable.store store (compactable.pruned ih)
  | compacted store _ encoded ih => exact compactable.store store (compactable.compacted ih encoded)

structure Mutates (I : Registry → Durable → Prop) (m : Mutation) (r : Registry) (D : Durable) :
    Prop where
  undone : ∀ attempt store, I (m.rollback r ((m.apply attempt r).withStore store)) D
  done : ∀ attempt sequence, I (m.apply attempt r) (D.snoc ⟨m.type, sequence, m.payload⟩)

theorem Compactable.journalling (compactable : Compactable I) {m : Mutation}
    {result : Result AttemptId} (journalling : Journalling m r D result r' D') (holds : I r D)
    (mutates : ∀ r' D', Readied r D r' D' → I r' D' → Mutates I m r' D') : I r' D' := by
  cases journalling with
  | refused e ready => exact compactable.readied ready holds
  | undone e attempt store ready =>
      exact (mutates _ _ ready (compactable.readied ready holds)).undone attempt store
  | done attempt sequence store ready =>
      have done := (mutates _ _ ready (compactable.readied ready holds)).done attempt sequence
      exact compactable.store store done

structure Invariant (meets : UInt64 → Registry → Call → Prop) (I : Registry → Durable → Prop) :
    Prop extends Compactable I where
  clock : ∀ {r D} nowMs clockPinned, I r D → I { r with nowMs, clockPinned } D
  equivocated : ∀ {clock r D call kind value r₁ D₁ r' D' incumbent payload},
    I r D → meets clock r call → r.asserts call = some ⟨kind, value⟩ → Readied r D r₁ D₁ →
    admission kind (r₁.tables kind) value (kind.contentDigest value) = .equivocated incumbent →
    (conflictRecord (r₁.equivocationMarker kind value incumbent
      (kind.contentDigest value))).data = some payload →
    Readied r₁ D₁ r' D' → I r' D' →
    Mutates I (conflictMutation (r₁.equivocationMarker kind value incumbent
      (kind.contentDigest value)) payload) r' D'
  accepted : ∀ {clock r D call kind value r₁ D₁ r' D' payload},
    I r D → meets clock r call → r.asserts call = some ⟨kind, value⟩ → Readied r D r₁ D₁ →
    kind.validate value = .ok () → kind.generation value ≠ 0 →
    admission kind (r₁.tables kind) value (kind.contentDigest value) = .accepted →
    (kind.encode (kind.asserted r₁.currentEpoch (kind.contentDigest value) .none value)
      (.empty : ByteWriter Limits.maxCanonicalRecordBytes)).data = some payload →
    Readied r₁ D₁ r' D' → I r' D' →
    Mutates I (publicationMutation kind
      (kind.asserted r₁.currentEpoch (kind.contentDigest value) .none value) payload) r' D'
  registered : ∀ {r D publisher incarnation boot ttlMs lease origin payload r' D'}, I r D →
    r.grant publisher incarnation boot ttlMs = .ok lease →
    (leaseRecord lease origin).data = some payload → Readied r D r' D' → I r' D' →
    Mutates I (registrationMutation lease payload) r' D'
  revoked : ∀ {r D publisher removed payload r' D'}, I r D →
    r.leases.lookup publisher = some removed → Readied r D r' D' → I r' D' →
    Mutates I (revocationMutation publisher removed payload) r' D'
  decided : ∀ {clock r D request decision payload r' D'}, I r D →
    meets clock r (.evaluate request) → (r.tick clock).decide request = .ok decision →
    (encodeDecision decision
      (.empty : ByteWriter Limits.maxCanonicalRecordBytes)).data = some payload →
    Readied (r.tick clock) D r' D' → I r' D' →
    (∀ attempt store, I (forgetDecision decision r'
      (((decisionMutation decision payload).apply attempt r').withStore store)) D') ∧
    ∀ sequence, I (r'.holdDecision decision).pruneDecisions
      (D'.snoc ⟨.recordDecision, sequence, payload⟩)
  advanced : ∀ {r D next payload reason} sequence, I r D →
    Store.tryIncrement r.durableEpoch = some next →
    (epochRecord next reason).data = some payload →
    I { r with durableEpoch := next, currentEpoch := next, leases := ∅ }
      (D.snoc ⟨.epochAdvance, sequence, payload⟩)
  expired : ∀ {r D}, I r D →
    I { r with leases := r.leases.keep fun lease =>
      !(lease.expiresAtMs ≤ r.nowMs || lease.epoch != r.currentEpoch) } D

variable {meets : UInt64 → Registry → Call → Prop} {clock : UInt64}

theorem Invariant.tick (invariant : Invariant meets I) (holds : I r D) : I (r.tick clock) D := by
  unfold Registry.tick
  split
  · exact holds
  · exact invariant.clock clock r.clockPinned holds

theorem Invariant.publishing (invariant : Invariant meets I) {call : Call} {kind : EntityKind}
    {value : kind.Carrier} {result : Result PublicationResult} (holds : I r D)
    (met : meets clock r call) (asserts : r.asserts call = some ⟨kind, value⟩)
    (publishing : Publishing kind value r D result r' D') : I r' D' := by
  have compactable := invariant.toCompactable
  cases publishing with
  | refused e ready => exact compactable.readied ready holds
  | held _ room _ => exact compactable.readied room.readied holds
  | equivocated _ room admitted recorded journalled =>
      apply compactable.journalling journalled (compactable.readied room.readied holds)
      intro r' D' ready holds'
      exact invariant.equivocated holds met asserts room.readied admitted recorded ready holds'
  | accepted valid positive room admitted recorded journalled =>
      apply compactable.journalling journalled (compactable.readied room.readied holds)
      intro r' D' ready holds'
      exact invariant.accepted holds met asserts room.readied valid positive admitted recorded ready
        holds'

theorem Invariant.recording (invariant : Invariant meets I) {request : ContractRequest}
    {decision : ContractDecision} {result : Result Unit} (holds : I r D)
    (met : meets clock r (.evaluate request))
    (decided : (r.tick clock).decide request = .ok decision)
    (recording : Recording decision (r.tick clock) D result r' D') : I r' D' := by
  have compactable := invariant.toCompactable
  have ticked : I (r.tick clock) D := invariant.tick holds
  cases recording with
  | refused e => exact ticked
  | failed recorded journalled =>
      cases journalled with
      | refused e ready => exact compactable.readied ready ticked
      | undone e attempt store ready =>
          have holds' := compactable.readied ready ticked
          exact (invariant.decided holds met decided recorded ready holds').1 attempt store
  | done recorded journalled =>
      cases journalled with
      | done attempt sequence store ready =>
          have holds' := compactable.readied ready ticked
          exact compactable.store store
            ((invariant.decided holds met decided recorded ready holds').2 sequence)

theorem Invariant.advancing (invariant : Invariant meets I) {reason : Text}
    {result : Result FabricEpoch} (holds : I r D)
    (advancing : Advancing reason r D result r' D') : I r' D' := by
  cases advancing with
  | refused e store => exact invariant.store store holds
  | done sequence store increment recorded =>
      exact invariant.store store (invariant.advanced sequence holds increment recorded)

theorem Invariant.effect (invariant : Invariant meets I) {call : Call} {answer : Answer}
    (holds : I r D) (met : meets clock r call) (effect : Effect clock r D call answer r' D') :
    I r' D' := by
  have compactable := invariant.toCompactable
  cases effect with
  | publishClass publishing => exact invariant.publishing holds met rfl publishing
  | publishPolicy publishing => exact invariant.publishing holds met rfl publishing
  | publishPath publishing => exact invariant.publishing holds met rfl publishing
  | refusedCapability e => exact holds
  | publishCapability _ publishing => exact invariant.publishing holds met rfl publishing
  | refusedReservation e => exact holds
  | publishReservation _ publishing => exact invariant.publishing holds met rfl publishing
  | refusedPublisher e => exact invariant.tick holds
  | registerPublisher granted recorded journalled =>
      have ticked : I (r.tick clock) D := invariant.tick holds
      apply compactable.journalling journalled ticked
      intro r' D' ready holds'
      exact invariant.registered ticked granted recorded ready holds'
  | refusedRevocation e => exact invariant.tick holds
  | revokePublisher held journalled =>
      have ticked : I (r.tick clock) D := invariant.tick holds
      have leases : (r.tick clock).leases = r.leases := by
        unfold Registry.tick
        split <;> rfl
      apply compactable.journalling journalled ticked
      intro r' D' ready holds'
      rw [← leases] at held
      exact invariant.revoked ticked held ready holds'
  | expireLeases => exact invariant.expired (invariant.tick holds)
  | advanceEpoch advancing => exact invariant.advancing holds advancing
  | evaluate decided recording => exact invariant.recording holds met decided recording
  | undecided e => exact invariant.tick holds
  | compacted compacted =>
      cases compacted with
      | done store encoded => exact compactable.store store (compactable.compacted holds encoded)
  | uncompacted e store => exact compactable.store store (compactable.pruned holds)
  | setNowMillis => exact invariant.clock _ true holds

variable {D₀ D₁ : Durable}

theorem Readied.front (ready : Readied r D r' D') (front : D₀.Front D') :
    D₀ = D' ∨ D₀.Front D := by
  induction ready with
  | same => exact .inr front
  | pruned _ _ ih => exact ih front
  | compacted => exact .inl front.eq_of_nil

theorem Journalling.front {m : Mutation} {result : Result AttemptId}
    (journalling : Journalling m r D result r' D') (front : D₀.Front D') :
    D₀ = D' ∨ D₀.Front D ∨ ∃ r₁, Readied r D r₁ D₀ := by
  cases journalling with
  | refused _ ready => exact (ready.front front).imp_right .inl
  | undone _ _ _ ready => exact (ready.front front).imp_right .inl
  | done attempt sequence store ready =>
      rcases front.of_snoc with whole | front
      · exact .inl whole
      · rcases ready.front front with rfl | front
        · exact .inr (.inr ⟨_, ready⟩)
        · exact .inr (.inl front)

theorem Publishing.front {kind : EntityKind} {value : kind.Carrier}
    {result : Result PublicationResult} (publishing : Publishing kind value r D result r' D')
    (front : D₀.Front D') :
    D₀ = D' ∨ D₀.Front D ∨ ∃ result r'', Publishing kind value r D result r'' D₀ := by
  have before {r₁ : Registry} {D₁ : Durable} (ready : Readied r D r₁ D₁) (front : D₀.Front D₁) :
      D₀.Front D ∨ ∃ result r'', Publishing kind value r D result r'' D₀ := by
    rcases ready.front front with rfl | front
    · exact .inr ⟨_, _, .refused (makeError .internal "") ready⟩
    · exact .inl front
  cases publishing with
  | refused _ ready => exact .inr (before ready front)
  | held _ room _ => exact .inr (before room.readied front)
  | equivocated valid room admitted recorded journalled =>
      rcases journalled.front front with whole | front | ⟨r₂, ready⟩
      · exact .inl whole
      · exact .inr (before room.readied front)
      · exact .inr (.inr ⟨_, _, .equivocated valid room admitted recorded
          (.refused (makeError .internal "") ready)⟩)
  | accepted valid positive room admitted recorded journalled =>
      rcases journalled.front front with whole | front | ⟨r₂, ready⟩
      · exact .inl whole
      · exact .inr (before room.readied front)
      · exact .inr (.inr ⟨_, _, .accepted valid positive room admitted recorded
          (.refused (makeError .internal "") ready)⟩)

theorem Effect.front {clock : UInt64} {call : Call} {answer : Answer}
    (effect : Effect clock r D call answer r' D') (front : D₀.Front D') :
    D₀ = D' ∨ D₀.Front D ∨ ∃ answer r'', Effect clock r D call answer r'' D₀ := by
  cases effect with
  | publishClass publishing =>
      exact (publishing.front front).imp_right fun other => other.imp_right
        fun ⟨_, _, publishing⟩ => ⟨_, _, .publishClass publishing⟩
  | publishPolicy publishing =>
      exact (publishing.front front).imp_right fun other => other.imp_right
        fun ⟨_, _, publishing⟩ => ⟨_, _, .publishPolicy publishing⟩
  | publishPath publishing =>
      exact (publishing.front front).imp_right fun other => other.imp_right
        fun ⟨_, _, publishing⟩ => ⟨_, _, .publishPath publishing⟩
  | publishCapability authorized publishing =>
      exact (publishing.front front).imp_right fun other => other.imp_right
        fun ⟨_, _, publishing⟩ => ⟨_, _, .publishCapability authorized publishing⟩
  | publishReservation authorized publishing =>
      exact (publishing.front front).imp_right fun other => other.imp_right
        fun ⟨_, _, publishing⟩ => ⟨_, _, .publishReservation authorized publishing⟩
  | registerPublisher granted recorded journalled =>
      exact (journalled.front front).imp_right fun other => other.imp_right fun ⟨_, ready⟩ =>
        ⟨_, _, .registerPublisher granted recorded (.refused (makeError .internal "") ready)⟩
  | revokePublisher held journalled =>
      rename_i publisher _ removed payload _
      refine (journalled.front front).imp_right fun other => other.imp_right fun ⟨r₁, ready⟩ => ?_
      have refused : Journalling (revocationMutation publisher removed payload) (r.tick clock) D
          (.error (makeError .internal "")) r₁ D₀ := .refused _ ready
      exact ⟨_, _, .revokePublisher held refused⟩
  | advanceEpoch advancing =>
      cases advancing with
      | refused => exact .inr (.inl front)
      | done => exact front.of_snoc.imp_right .inl
  | evaluate decided recording =>
      cases recording with
      | refused => exact .inr (.inl front)
      | failed recorded journalled | done recorded journalled =>
          exact (journalled.front front).imp_right fun other => other.imp_right fun ⟨_, ready⟩ =>
            ⟨_, _, .evaluate decided
              (.failed recorded (.refused (makeError .internal "") ready))⟩
  | compacted compacted =>
      cases compacted with
      | done => exact .inl front.eq_of_nil
  | refusedCapability | refusedReservation | refusedPublisher | refusedRevocation | expireLeases
  | undecided | uncompacted | setNowMillis => exact .inr (.inl front)

theorem Restored.front {options : RegistryOptions} {clock : UInt64}
    (restored : Restored options clock D r D') (front : D₀.Front D') : D₀ = D' ∨ D₀.Front D := by
  cases restored with
  | observed => exact .inr front
  | claimed _ _ _ advancing =>
      cases advancing with
      | done => exact front.of_snoc

theorem Turn.front {event : Event} {members members' : Option Registry}
    (turn : Turn members D event members' D') (front : D₀.Front D') :
    D₀.Front D ∨ ∃ event, Turn members D event none D₀ := by
  cases turn with
  | opened restored | cutOpening restored =>
      rcases restored.front front with rfl | front
      · exact .inr ⟨.crashed 0 none, .cutOpening restored⟩
      · exact .inl front
  | called effect | cutCall effect =>
      rcases effect.front front with rfl | front | ⟨_, _, effect⟩
      · exact .inr ⟨_, .cutCall effect⟩
      · exact .inl front
      · exact .inr ⟨_, .cutCall effect⟩
  | refused | untouched | closed => exact .inl front

def Standing (I : Registry → Durable → Prop) (J : Durable → Prop) :
    Option Registry → Durable → Prop
  | none, D => J D
  | some r, D => I r D

structure Restarts (meets : Site → Event → Prop) (I : Registry → Durable → Prop)
    (J : Durable → Prop) : Prop where
  empty : J .empty
  durable : ∀ {r D}, I r D → J D
  opened : ∀ {d options clock boot r D D'}, Finds options.store d D →
    meets (.down d) (.opened options clock boot (.ok r.currentEpoch)) →
    Restored options clock D r D' → J D → I r D'
  cutOpening : ∀ {options clock r D D'}, Restored options clock D r D' → J D → J D'
  cutCall : ∀ {r d D clock call answer r' D'}, meets (.up r d) (.crashed clock (some call)) →
    Effect clock r D call answer r' D' → I r D → J D'

theorem TurnsWhere.standing {openings : Openings} {J : Durable → Prop} {steps : Site → Event → Prop}
    (invariant : Invariant meets I) (restarts : Restarts steps I J)
    (calls : ∀ {r d clock call answer}, steps (.up r d) (.called clock call answer) →
      meets clock r call)
    {events : List Event} {site : Site} (turns : TurnsWhere openings steps events site D) :
    Standing I J site.members D ∧ ∀ D₀ : Durable, D₀.Front D → J D₀ := by
  induction turns with
  | start => exact ⟨restarts.empty, fun D₀ front => front.eq_of_nil ▸ restarts.empty⟩
  | @next events event site site' D D₀ D' _ sees met turn ih =>
      obtain ⟨standing, fronts⟩ := ih
      cases sees with
      | down _ leaves finds =>
          have lower {D₁ : Durable} (front : D₁.Front D₀) : J D₁ := fronts D₁ (front.trans leaves.front)
          have holds := lower (.refl D₀)
          generalize members : site'.members = after at turn
          cases turn with
          | opened restored =>
              have opened := restarts.opened (finds _ _ _ _ rfl) met restored holds
              refine ⟨opened, fun D₁ front => ?_⟩
              rcases restored.front front with rfl | front
              · exact restarts.durable opened
              · exact lower front
          | refused => exact ⟨holds, fun _ => lower⟩
          | cutOpening restored =>
              have cut := restarts.cutOpening restored holds
              refine ⟨cut, fun D₁ front => ?_⟩
              rcases restored.front front with rfl | front
              · exact cut
              · exact lower front
          | untouched => exact ⟨holds, fun _ => lower⟩
      | up =>
          generalize members : site'.members = after at turn
          cases turn with
          | untouched => exact ⟨restarts.durable standing, fronts⟩
          | closed => exact ⟨restarts.durable standing, fronts⟩
          | called effect =>
              have holds := invariant.effect standing (calls met) effect
              refine ⟨holds, fun D₁ front => ?_⟩
              rcases effect.front front with rfl | front | ⟨_, _, effect⟩
              · exact restarts.durable holds
              · exact fronts D₁ front
              · exact restarts.durable (invariant.effect standing (calls met) effect)
          | cutCall effect =>
              have cut := restarts.cutCall met effect standing
              refine ⟨cut, fun D₁ front => ?_⟩
              rcases effect.front front with rfl | front | ⟨_, _, effect⟩
              · exact cut
              · exact fronts D₁ front
              · exact restarts.cutCall met effect standing

theorem RunWhere.standing {openings : Openings} {J : Durable → Prop} {steps : Site → Event → Prop}
    (invariant : Invariant meets I) (restarts : Restarts steps I J)
    (calls : ∀ {r d clock call answer}, steps (.up r d) (.called clock call answer) →
      meets clock r call)
    {events : List Event} {site : Site} (run : RunWhere openings steps events site) :
    ∃ D, site.Refines D ∧ Standing I J site.members D := by
  obtain ⟨D, refines, turns⟩ := run.turns
  exact ⟨D, refines, (turns.standing invariant restarts calls).1⟩

end Invariant

end QoSFabric
