import QoSFabric.Proof.Registry.Durability
import QoSFabric.Proof.Registry.Progress

/-!
# Publisher fencing

The watermark of a publisher never falls: it is recovered as it was in memory, and a registration
that is taken back restores it. A registration goes past the watermark, so the incarnations granted
to one publisher rise over a whole run.
-/

namespace QoSFabric

open Registry

variable {openings : Openings} {r r' : Registry} {D D' : Durable} {clock : UInt64} {publisher : Text}
  {incarnation : PublisherIncarnation}

def Registry.Fenced (r : Registry) : Prop :=
  ∀ publisher lease, r.leases.lookup publisher = some lease →
    r.publisherWatermark.lookup publisher = some lease.incarnation ∧ lease.epoch = r.currentEpoch

theorem Registry.Fenced.erase (fenced : r.Fenced) (publisher : Text) :
    { r with leases := r.leases.erase publisher }.Fenced := by
  intro other lease held
  have held : (r.leases.erase publisher).lookup other = some lease := held
  by_cases eq : other = publisher
  · subst eq
    rw [AList.lookup_erase] at held
    cases held
  · rw [AList.lookup_erase_ne eq] at held
    exact fenced other lease held

theorem compactable_leases (leases : Table Text PublisherLease) :
    Compactable fun r _ => r.leases = leases ∧ r.Fenced where
  store _ h := h
  pruned h := h
  compacted h _ := h

theorem fenced_registered (fenced : r.Fenced) {lease : PublisherLease} (granting : Granting r lease)
    (payload : Bytes) (attempt : AttemptId) :
    ((registrationMutation lease payload).apply attempt r).Fenced := by
  intro other held found
  have found : (r.leases.insert lease.publisher { lease with lease := attempt }).lookup other =
    some held := found
  show (r.publisherWatermark.insert lease.publisher lease.incarnation).lookup other = _ ∧ _
  by_cases eq : other = lease.publisher
  · subst eq
    rw [AList.lookup_insert] at found ⊢
    obtain rfl := Option.some.inj found
    exact ⟨rfl, granting.epoch⟩
  · rw [AList.lookup_insert_ne eq] at found ⊢
    exact fenced other held found

theorem fenced_unregistered (fenced : r.Fenced) (lease : PublisherLease) (payload : Bytes)
    (attempt : AttemptId) (store : Store) :
    ((registrationMutation lease payload).rollback r
      (((registrationMutation lease payload).apply attempt r).withStore store)).Fenced := by
  intro other held found
  have found : ((r.leases.insert lease.publisher { lease with lease := attempt }).erase
    lease.publisher).lookup other = some held := found
  rw [watermark_unregistered]
  by_cases eq : other = lease.publisher
  · subst eq
    rw [AList.lookup_erase] at found
    cases found
  · rw [AList.lookup_erase_ne eq, AList.lookup_insert_ne eq] at found
    exact fenced other held found

theorem invariant_fenced : Invariant (fun _ _ _ => True) fun r _ => r.Fenced where
  store _ fenced := fenced
  pruned fenced := fenced
  compacted fenced _ := fenced
  clock _ _ fenced := fenced
  equivocated _ _ _ _ _ _ _ fenced := ⟨fun _ _ => fenced, fun _ _ => fenced⟩
  accepted _ _ _ _ _ _ _ _ _ fenced := ⟨fun _ _ => fenced, fun _ _ => fenced⟩
  registered := by
    intro r D publisher incarnation boot ttlMs lease origin payload r' D' _ granted _ ready fenced
    have granting := (compactable_granting lease).readied ready (granting_of_grant granted)
    exact ⟨fun attempt store => fenced_unregistered fenced lease payload attempt store,
      fun attempt _ => fenced_registered fenced granting payload attempt⟩
  revoked := by
    intro r D publisher removed payload r' D' before held ready fenced
    constructor
    · intro attempt store other lease found
      have found : ((r'.leases.erase publisher).insert publisher removed).lookup other =
        some lease := found
      -- the lease is put back as it was held
      have same : r'.leases.lookup publisher = some removed := by
        rw [((compactable_leases r.leases).readied ready ⟨rfl, before⟩).1]
        exact held
      by_cases eq : other = publisher
      · subst eq
        rw [AList.lookup_insert] at found
        exact fenced other lease (same.trans found)
      · rw [AList.lookup_insert_ne eq, AList.lookup_erase_ne eq] at found
        exact fenced other lease found
    · intro _ _
      exact fenced.erase publisher
  decided _ _ _ _ _ fenced := ⟨fun _ _ => fenced, fun _ => fenced⟩
  advanced _ _ _ _ := by
    intro publisher lease held
    rw [AList.lookup_empty] at held
    cases held
  expired := by
    intro r D fenced publisher lease held
    have held : (r.leases.keep _).lookup publisher = some lease := held
    rw [Table.lookup_keep, Option.filter_eq_some_iff] at held
    exact fenced publisher lease held.1

theorem Restored.leases {options : RegistryOptions} (restored : Restored options clock D r D') :
    r.leases = ∅ := by
  cases restored with
  | observed _ _ recovers =>
      obtain ⟨loaded, load, rebuilt⟩ := recovers
      exact (unread_of_recovered load rebuilt).leases
  | claimed _ _ _ advancing =>
      cases advancing with
      | done => rfl

theorem restarts_fenced (meets : Site → Event → Prop) :
    Restarts meets (fun r _ => r.Fenced) fun _ => True where
  empty := trivial
  durable _ := trivial
  opened _ _ restored _ := by
    intro publisher lease held
    rw [restored.leases, AList.lookup_empty] at held
    cases held
  cutOpening _ _ := trivial
  cutCall _ _ _ := trivial

def Registry.Reached (r : Registry) (publisher : Text) (incarnation : PublisherIncarnation) : Prop :=
  ∃ highest, r.publisherWatermark.lookup publisher = some highest ∧ incarnation ≤ highest

theorem Registry.Reached.congr (reached : r.Reached publisher incarnation)
    (same : r'.publisherWatermark.lookup publisher = r.publisherWatermark.lookup publisher) :
    r'.Reached publisher incarnation := by
  obtain ⟨highest, held, le⟩ := reached
  exact ⟨highest, same.trans held, le⟩

theorem reached_registered (reached : r.Reached publisher incarnation) {lease : PublisherLease}
    (granting : Granting r lease) (payload : Bytes) (attempt : AttemptId) :
    ((registrationMutation lease payload).apply attempt r).Reached publisher incarnation := by
  obtain ⟨highest, held, le⟩ := reached
  show ∃ highest, (r.publisherWatermark.insert _ _).lookup publisher = some highest ∧ _
  by_cases eq : publisher = lease.publisher
  · subst eq
    refine ⟨lease.incarnation, AList.lookup_insert _, ?_⟩
    exact UInt64.le_of_lt (UInt64.lt_of_le_of_lt le (granting.newer highest held))
  · exact ⟨highest, (AList.lookup_insert_ne eq).trans held, le⟩

theorem invariant_reached (publisher : Text) (incarnation : PublisherIncarnation) :
    Invariant (fun _ _ _ => True) fun r _ => r.Reached publisher incarnation where
  store _ reached := reached
  pruned reached := reached
  compacted reached _ := reached
  clock _ _ reached := reached
  equivocated _ _ _ _ _ _ _ reached := ⟨fun _ _ => reached, fun _ _ => reached⟩
  accepted _ _ _ _ _ _ _ _ _ reached := ⟨fun _ _ => reached, fun _ _ => reached⟩
  registered := by
    intro r D _ _ boot ttlMs lease origin payload r' D' _ granted _ ready reached
    have granting := (compactable_granting lease).readied ready (granting_of_grant granted)
    constructor
    · intro attempt store
      exact reached.congr (watermark_unregistered r' lease payload attempt store publisher)
    · intro attempt _
      exact reached_registered reached granting payload attempt
  revoked _ _ _ reached := ⟨fun _ _ => reached, fun _ _ => reached⟩
  decided _ _ _ _ _ reached := ⟨fun _ _ => reached, fun _ => reached⟩
  advanced _ reached _ _ := reached
  expired reached := reached

def Event.grant (publisher : Text) : Event → Option PublisherIncarnation
  | .called _ (.registerPublisher registered incarnation _ _ _) (.granted (.ok _)) =>
      if registered = publisher then some incarnation else none
  | _ => none

/-- The incarnations given to a publisher, in the order of a run. -/
def grants (publisher : Text) (events : List Event) : List PublisherIncarnation :=
  events.filterMap (Event.grant publisher)

theorem grants_concat (publisher : Text) (events : List Event) (event : Event) :
    grants publisher (events ++ [event]) =
      grants publisher events ++ (event.grant publisher).toList := by
  unfold grants
  rw [List.filterMap_append, List.filterMap_cons]
  cases event.grant publisher <;> rfl

theorem Effect.registered {boot : BootId} {ttlMs : UInt64} {origin : Text} {lease : PublisherLease}
    (effect : Effect clock r D (.registerPublisher publisher incarnation boot ttlMs origin)
      (.granted (.ok lease)) r' D') :
    ∃ granted payload attempt, (r.tick clock).grant publisher incarnation boot ttlMs = .ok granted ∧
      Journalling (registrationMutation granted payload) (r.tick clock) D (.ok attempt) r' D' := by
  generalize eq : Answer.granted (.ok lease) = answer at effect
  cases effect with
  | refusedPublisher e => cases eq
  | registerPublisher granted recorded journalled =>
      rename_i granted' payload result
      cases result with
      | error e => cases eq
      | ok attempt => exact ⟨_, _, attempt, granted, journalled⟩

theorem grant_names {boot : BootId} {ttlMs : UInt64} {lease : PublisherLease}
    (granted : r.grant publisher incarnation boot ttlMs = .ok lease) :
    lease.publisher = publisher ∧ lease.incarnation = incarnation := by
  unfold grant at granted
  simp only [Proof.Engine.refuse_bind_eq_ok] at granted
  obtain ⟨-, -, -, -, -, -, granted⟩ := granted
  split at granted
  · cases granted
  · cases granted
    exact ⟨rfl, rfl⟩

theorem Effect.granted {call : Call} {answer : Answer}
    (effect : Effect clock r D call answer r' D')
    (grant : (Event.called clock call answer).grant publisher = some incarnation) :
    r'.Reached publisher incarnation ∧
      ∀ older, r.Reached publisher older → older < incarnation := by
  unfold Event.grant at grant
  split at grant
  case h_2 => cases grant
  next registered given boot ttlMs origin lease eq =>
    cases eq
    split at grant
    case isFalse => cases grant
    next same =>
      obtain rfl := Option.some.inj grant
      subst same
      obtain ⟨granted, payload, attempt, granting, journalled⟩ := effect.registered
      obtain ⟨names, numbers⟩ := grant_names granting
      have before := granting_of_grant granting
      constructor
      · cases journalled with
        | done _ sequence store ready =>
            refine ⟨granted.incarnation, ?_, numbers ▸ UInt64.le_refl _⟩
            rw [← names]
            exact AList.lookup_insert _
      · rintro older ⟨highest, held, le⟩
        have watermark : (r.tick clock).publisherWatermark = r.publisherWatermark := by
          unfold tick
          split <;> rfl
        have newer := before.newer highest
        rw [names, watermark, numbers] at newer
        exact UInt64.lt_of_le_of_lt le (newer held)

def Reaches (publisher : Text) (events : List Event) (r : Registry) : Prop :=
  ∀ incarnation ∈ grants publisher events, r.Reached publisher incarnation

theorem Reaches.ungranted {events : List Event} {event : Event} (reaches : Reaches publisher events r)
    (none : event.grant publisher = none) : Reaches publisher (events ++ [event]) r := by
  intro incarnation mem
  rw [grants_concat, none, Option.toList_none, List.append_nil] at mem
  exact reaches incarnation mem

theorem carrying_reaches (members : Option Registry) (events : List Event) (event : Event) :
    Carrying members event (Reaches publisher events) (Reaches publisher (events ++ [event])) where
  idle idle r reaches := by
    apply reaches.ungranted
    cases event with
    | called => exact idle.elim
    | _ => rfl
  claimed {r r' D D'} opens _ advancing reaches := by
    have kept : Reaches publisher events r' := fun incarnation mem =>
      (invariant_reached publisher incarnation).advancing (reaches incarnation mem) advancing
    apply kept.ungranted
    rcases opens with ⟨_, _, _, -, rfl⟩ | ⟨_, rfl⟩ <;> rfl
  effect {clock r D call answer r' D'} _ belongs _ effect reaches := by
    have kept : Reaches publisher events r' := fun incarnation mem =>
      (invariant_reached publisher incarnation).effect (reaches incarnation mem) trivial effect
    cases given : event.grant publisher with
    | none => exact kept.ungranted given
    | some incarnation =>
        rcases belongs with rfl | rfl
        case inr => cases given
        intro older mem
        rw [grants_concat, given, Option.toList_some, List.mem_append, List.mem_singleton] at mem
        cases mem with
        | inl old => exact kept older old
        | inr is => exact is ▸ (effect.granted given).1
  recovered _ _ _ recalls reaches incarnation mem :=
    (reaches incarnation mem).congr (recalls.watermark publisher)

theorem Turns.reaches {events : List Event} {site : Site} (turns : Turns .reading events site D)
    (publisher : Text) : Carries (Reaches publisher events) site.members D :=
  TurnsWhere.carries (fun _ _ _ _ _ mem => (List.not_mem_nil mem).elim) turns
    fun events event members => carrying_reaches members events event

theorem Turn.granted {events : List Event} {event : Event} {members members' : Option Registry}
    (turn : Turn members D event members' D') (reaches : Carries (Reaches publisher events) members D)
    (given : event.grant publisher = some incarnation) :
    ∀ older ∈ grants publisher events, older < incarnation := by
  cases turn with
  | called effect =>
      intro older mem
      exact (effect.granted given).2 older (reaches older mem)
  | _ => cases given

theorem Turns.grants_rise {events : List Event} {site : Site} (turns : Turns .reading events site D)
    (publisher : Text) : (grants publisher events).Pairwise (· < ·) := by
  induction turns with
  | start => exact .nil
  | next turns sees _ turn ih =>
      obtain rfl := sees.eq
      rw [grants_concat, List.pairwise_append]
      refine ⟨ih, ?_, ?_⟩
      · cases Event.grant publisher _ <;> simp
      · intro older mem incarnation is
        exact turn.granted (Turns.reaches turns publisher) (Option.mem_toList.mp is) older mem

/-- The incarnations given to a publisher rise, and every lease carries the watermark of its
publisher and the epoch. -/
theorem publisher_fencing {events : List Event} {site : Site} (run : Run .reading events site) :
    (∀ publisher, (grants publisher events).Pairwise (· < ·)) ∧
      ∀ r d, site = .up r d → ∀ publisher lease, r.leases.lookup publisher = some lease →
        r.publisherWatermark.lookup publisher = some lease.incarnation ∧
          lease.epoch = r.currentEpoch := by
  obtain ⟨D, -, turns⟩ := run.turns
  refine ⟨Turns.grants_rise turns, ?_⟩
  rintro r d rfl
  exact (turns.standing invariant_fenced (restarts_fenced _) fun _ => trivial).1

def returning : List Action :=
  [.open .default 0 (List.replicate 16 7),
    .call 0 (.registerPublisher (text "p1") 1 ⟨List.replicate 16 1, BootId.size_ones⟩ 10 []),
    .call 0 .compact, .crash, .open .default 0 (List.replicate 16 8),
    .call 0 (.registerPublisher (text "p1") 2 ⟨List.replicate 16 1, BootId.size_ones⟩ 10 [])]

def returns : Bool :=
  match (Site.down FileSystem.Disk.empty).rehearse returning with
  | some (events, .up r _) => grants (text "p1") events == [1, 2] &&
      (r.leases.lookup (text "p1")).isSome
  | _ => false

set_option maxRecDepth 1000 in
theorem publisher_fencing_returning : ∃ events r d, Run .reading events (.up r d) ∧
    grants (text "p1") events = [1, 2] ∧ (r.leases.lookup (text "p1")).isSome ∧
    (grants (text "p1") events).Pairwise (· < ·) := by
  have returns : returns = true := by decide +kernel
  unfold QoSFabric.returns at returns
  split at returns
  case h_2 => cases returns
  next events r d rehearsed =>
    rw [Bool.and_eq_true, beq_iff_eq] at returns
    have run := reading_of_rehearse rfl rehearsed
    exact ⟨events, r, d, run, returns.1, returns.2, (publisher_fencing run).1 (text "p1")⟩

def shortsighted : RegistryOptions := { RegistryOptions.default with maxRecordBytes := 64 }

def regressing : List Action :=
  [.open .default 0 (List.replicate 16 7),
    .call 0 (.registerPublisher (text "p1") 5 ⟨List.replicate 16 1, BootId.size_ones⟩ 10 []),
    .crash, .open shortsighted 0 (List.replicate 16 8), .crash,
    .open .default 0 (List.replicate 16 9),
    .call 0 (.registerPublisher (text "p1") 3 ⟨List.replicate 16 1, BootId.size_ones⟩ 10 [])]

def regresses : Bool :=
  match (Site.down FileSystem.Disk.empty).rehearse regressing with
  | some (events, .up _ _) => grants (text "p1") events == [5, 3]
  | _ => false

set_option maxRecDepth 1000 in
theorem grant_regresses : ¬∀ openings events site, Run openings events site →
    (∀ publisher, (grants publisher events).Pairwise (· < ·)) ∧
      ∀ r d, site = .up r d → ∀ publisher lease, r.leases.lookup publisher = some lease →
        r.publisherWatermark.lookup publisher = some lease.incarnation ∧
          lease.epoch = r.currentEpoch := by
  intro fenced
  have regresses : regresses = true := by decide +kernel
  unfold QoSFabric.regresses at regresses
  split at regresses
  case h_2 => cases regresses
  next events r d rehearsed =>
    have rises := (fenced _ events _ (run_of_rehearse rehearsed)).1 (text "p1")
    rw [beq_iff_eq.mp regresses] at rises
    exact absurd rises (by decide)

end QoSFabric
