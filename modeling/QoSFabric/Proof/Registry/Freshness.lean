import QoSFabric.Proof.Registry.Epochs
import QoSFabric.Proof.Registry.Fencing
import QoSFabric.Proof.Registry.Leases
import QoSFabric.Proof.Registry.Supersession

/-!
# Freshness

A capability carries the epoch it was accepted in, on whichever path of recovery it has come back.
Evidence of the current epoch has therefore been published in it, under a lease granted in it, and
under a policy without stale epochs no other evidence supports a decision.
-/

namespace QoSFabric

open FileSystem Registry Proof.Engine

variable {openings : Openings} {r r' : Registry} {d : Disk FileName} {D D' : Durable} {clock : UInt64}
  {events : List Event}

theorem Readied.leases (ready : Readied r D r' D') : r'.leases = r.leases := by
  induction ready with
  | same => rfl
  | pruned _ _ ih => exact ih
  | compacted _ _ _ ih => exact ih

theorem Journalling.leases {m : Mutation} {result : Result AttemptId}
    (journalling : Journalling m r D result r' D')
    (applied : ∀ attempt r, (m.apply attempt r).leases = r.leases)
    (undone : ∀ before r, (m.rollback before r).leases = r.leases) : r'.leases = r.leases := by
  cases journalling with
  | refused e ready => exact ready.leases
  | undone e attempt store ready =>
      exact (undone _ _).trans ((applied attempt _).trans ready.leases)
  | done attempt sequence store ready => exact (applied attempt _).trans ready.leases

theorem Publishing.leases {kind : EntityKind} {value : kind.Carrier}
    {result : Result PublicationResult} (publishing : Publishing kind value r D result r' D') :
    r'.leases = r.leases := by
  cases publishing with
  | refused e ready => exact ready.leases
  | held _ room _ => exact room.readied.leases
  | equivocated _ room _ _ journalled =>
      exact (journalled.leases (fun _ _ => rfl) fun _ _ => rfl).trans room.readied.leases
  | accepted _ _ room _ _ journalled =>
      exact (journalled.leases (fun _ _ => rfl) fun _ _ => rfl).trans room.readied.leases

def Call.Grants (call : Call) (answer : Answer) (lease : PublisherLease) : Prop :=
  ∃ boot ttlMs origin,
    call = .registerPublisher lease.publisher lease.incarnation boot ttlMs origin ∧
      answer = .granted (.ok lease)

def Event.Upholds (publisher : Text) : Event → Prop
  | .called _ (.registerPublisher registered _ _ _ _) (.granted (.ok _)) => registered ≠ publisher
  | .called _ (.revokePublisher revoked _) (.finished (.ok _)) => revoked ≠ publisher
  | .called _ (.advanceEpoch _) (.advanced (.ok _)) => False
  | .called .. => True
  | .opened .. | .closed | .crashed .. => False

theorem leases_tick (r : Registry) (clock : UInt64) : (r.tick clock).leases = r.leases := by
  unfold Registry.tick
  split <;> rfl

theorem Effect.leases {call : Call} {answer : Answer} (effect : Effect clock r D call answer r' D')
    {publisher : Text} {lease : PublisherLease} (held : r'.leases.lookup publisher = some lease) :
    r.leases.lookup publisher = some lease ∧ (Event.called clock call answer).Upholds publisher ∨
      lease.publisher = publisher ∧ call.Grants answer lease := by
  have ticked := leases_tick r clock
  cases effect with
  | publishClass publishing => exact .inl ⟨publishing.leases ▸ held, trivial⟩
  | publishPolicy publishing => exact .inl ⟨publishing.leases ▸ held, trivial⟩
  | publishPath publishing => exact .inl ⟨publishing.leases ▸ held, trivial⟩
  | refusedCapability e => exact .inl ⟨held, trivial⟩
  | publishCapability _ publishing => exact .inl ⟨publishing.leases ▸ held, trivial⟩
  | refusedReservation e => exact .inl ⟨held, trivial⟩
  | publishReservation _ publishing => exact .inl ⟨publishing.leases ▸ held, trivial⟩
  | refusedPublisher e => exact .inl ⟨ticked ▸ held, trivial⟩
  | registerPublisher granted recorded journalled =>
      obtain ⟨names, numbers⟩ := grant_names granted
      cases journalled with
      | refused e ready => exact .inl ⟨ticked ▸ ready.leases ▸ held, trivial⟩
      | undone e attempt store ready =>
          rename_i registered incarnation boot ttlMs origin lease' payload r'
          have held : ((r'.leases.insert lease'.publisher _).erase lease'.publisher).lookup
            publisher = some lease := held
          by_cases eq : publisher = lease'.publisher
          · subst eq
            rw [AList.lookup_erase] at held
            cases held
          · rw [AList.lookup_erase_ne eq, AList.lookup_insert_ne eq, ready.leases, ticked] at held
            exact .inl ⟨held, trivial⟩
      | done attempt sequence store ready =>
          rename_i registered incarnation boot ttlMs origin lease' payload r' D'
          have held : (r'.leases.insert lease'.publisher { lease' with lease := attempt }).lookup
            publisher = some lease := held
          by_cases eq : publisher = lease'.publisher
          · subst eq
            rw [AList.lookup_insert] at held
            obtain rfl := Option.some.inj held
            exact .inr ⟨rfl, boot, ttlMs, origin, by rw [← names, ← numbers], rfl⟩
          · rw [AList.lookup_insert_ne eq, ready.leases, ticked] at held
            have other : registered ≠ publisher := fun same => eq (same.symm.trans names.symm)
            exact .inl ⟨held, other⟩
  | refusedRevocation e => exact .inl ⟨ticked ▸ held, trivial⟩
  | revokePublisher removed journalled =>
      rename_i revoked incarnation lease' payload result
      cases journalled with
      | refused e ready => exact .inl ⟨ticked ▸ ready.leases ▸ held, trivial⟩
      | undone e attempt store ready =>
          rename_i r'
          have held : ((r'.leases.erase revoked).insert revoked lease').lookup publisher =
            some lease := held
          by_cases eq : publisher = revoked
          · subst eq
            rw [AList.lookup_insert] at held
            exact .inl ⟨removed.trans held, trivial⟩
          · rw [AList.lookup_insert_ne eq, AList.lookup_erase_ne eq, ready.leases, ticked] at held
            exact .inl ⟨held, trivial⟩
      | done attempt sequence store ready =>
          rename_i r' D'
          have held : (r'.leases.erase revoked).lookup publisher = some lease := held
          by_cases eq : publisher = revoked
          · subst eq
            rw [AList.lookup_erase] at held
            cases held
          · rw [AList.lookup_erase_ne eq, ready.leases, ticked] at held
            have other : revoked ≠ publisher := fun same => eq same.symm
            exact .inl ⟨held, other⟩
  | expireLeases =>
      have held : ((r.tick clock).leases.keep _).lookup publisher = some lease := held
      rw [Table.lookup_keep, Option.filter_eq_some_iff, ticked] at held
      exact .inl ⟨held.1, trivial⟩
  | advanceEpoch advancing =>
      cases advancing with
      | refused e store => exact .inl ⟨held, trivial⟩
      | done sequence store increment recorded =>
          have held : (∅ : Table Text PublisherLease).lookup publisher = some lease := held
          rw [AList.lookup_empty] at held
          cases held
  | evaluate decided recording =>
      cases recording with
      | refused e => exact .inl ⟨ticked ▸ held, trivial⟩
      | failed recorded journalled =>
          have same := journalled.leases (fun _ _ => rfl) fun _ _ => rfl
          exact .inl ⟨ticked ▸ same ▸ held, trivial⟩
      | done recorded journalled =>
          have same := journalled.leases (fun _ _ => rfl) fun _ _ => rfl
          have held : (Registry.leases _).lookup publisher = some lease := held
          exact .inl ⟨ticked ▸ same ▸ held, trivial⟩
  | undecided e => exact .inl ⟨ticked ▸ held, trivial⟩
  | compacted compacted =>
      cases compacted with
      | done store encoded => exact .inl ⟨held, trivial⟩
  | uncompacted e store => exact .inl ⟨held, trivial⟩
  | setNowMillis => exact .inl ⟨held, trivial⟩

def Granted (events : List Event) (lease : PublisherLease) : Prop :=
  ∃ clock call answer, call.Grants answer lease ∧ Event.called clock call answer ∈ events

theorem Granted.concat {lease : PublisherLease} (granted : Granted events lease) (event : Event) :
    Granted (events ++ [event]) lease := by
  obtain ⟨clock, call, answer, grants, mem⟩ := granted
  exact ⟨clock, call, answer, grants, List.mem_append_left _ mem⟩

theorem Turns.granted {site : Site} (turns : Turns openings events site D)
    (up : site.members = some r) {publisher : Text} {lease : PublisherLease}
    (held : r.leases.lookup publisher = some lease) : Granted events lease := by
  induction turns generalizing r with
  | start => cases up
  | @next events event site site' _ _ _ _ _ _ turn ih =>
      generalize before : site.members = members at turn ih
      generalize site'.members = members' at turn up
      cases turn with
      | opened restored =>
          obtain rfl := Option.some.inj up
          rw [restored.leases, AList.lookup_empty] at held
          cases held
      | called effect =>
          obtain rfl := Option.some.inj up
          cases effect.leases held with
          | inl before => exact (ih rfl before.1).concat _
          | inr grants =>
              exact ⟨_, _, _, grants.2, List.mem_append_right _ List.mem_cons_self⟩
      | _ => cases up

inductive Event.Publishes (value : ResourceCapability) : Event → Prop where
  | answered (clock : UInt64) (result : PublicationResult) :
      Publishes value (.called clock (.publishCapability value) (.published (.ok result)))
  | cut (clock : UInt64) : Publishes value (.crashed clock (some (.publishCapability value)))

/-- A capability that has been accepted in an epoch, from a publisher with a lease that was granted
in that epoch. -/
inductive AcceptedIn (openings : Openings) (events : List Event) (epoch : FabricEpoch)
    (capability : ResourceCapability) : Prop where
  | intro {before after : List Event} {event : Event} {r : Registry} {d : Disk FileName}
      {site : Site} {value : ResourceCapability} {lease : PublisherLease}
      (whole : events = before ++ event :: after) (run : Run openings before (.up r d))
      (step : Step openings (.up r d) event site) (publishes : event.Publishes value)
      (current : r.currentEpoch = epoch) (held : r.leases.lookup value.publisher = some lease)
      (incarnation : lease.incarnation = value.incarnation) (lived : r.nowMs < lease.expiresAtMs)
      (granted : Granted before lease) (leased : lease.epoch = epoch)
      (same : EntityKind.lasting .capability capability =
        EntityKind.lasting .capability (EntityKind.asserted epoch
          (EntityKind.contentDigest .capability value) .none .capability value)) :
      AcceptedIn openings events epoch capability

theorem AcceptedIn.concat {epoch : FabricEpoch} {capability : ResourceCapability}
    (accepted : AcceptedIn openings events epoch capability) (event : Event) :
    AcceptedIn openings (events ++ [event]) epoch capability := by
  cases accepted with
  | @intro before after published _ _ _ _ _ whole run step publishes current held incarnation lived
      granted leased same =>
      have whole' : events ++ [event] = before ++ published :: (after ++ [event]) := by
        rw [whole, List.append_assoc, List.cons_append]
      exact .intro whole' run step publishes current held incarnation lived granted leased same

theorem AcceptedIn.alike {epoch : FabricEpoch} {capability other : ResourceCapability}
    (accepted : AcceptedIn openings events epoch capability)
    (alike : EntityKind.lasting .capability capability = EntityKind.lasting .capability other) :
    AcceptedIn openings events epoch other := by
  cases accepted with
  | intro whole run step publishes current held incarnation lived granted leased same =>
      exact .intro whole run step publishes current held incarnation lived granted leased
        (alike.symm.trans same)

structure Evidenced (openings : Openings) (events : List Event) (r : Registry) : Prop where
  epoch : ∀ id capability, r.latest .capability id = some capability →
    capability.epoch ≤ r.currentEpoch
  accepted : ∀ id capability, r.latest .capability id = some capability →
    capability.epoch = r.currentEpoch → AcceptedIn openings events r.currentEpoch capability

theorem epoch_of_lasting {capability other : ResourceCapability}
    (alike : EntityKind.lasting .capability capability = EntityKind.lasting .capability other) :
    capability.epoch = other.epoch := by
  have epochs := congrArg (EntityKind.epoch .capability) alike
  exact epochs

namespace Evidenced

theorem kept (evidenced : Evidenced openings events r) (event : Event)
    (latest : ∀ id, r'.latest .capability id = r.latest .capability id)
    (epoch : r'.currentEpoch = r.currentEpoch) : Evidenced openings (events ++ [event]) r' where
  epoch id capability held := by
    rw [epoch]
    rw [latest] at held
    exact evidenced.epoch id capability held
  accepted id capability held current := by
    rw [epoch] at current ⊢
    rw [latest] at held
    exact (evidenced.accepted id capability held current).concat event

theorem added (evidenced : Evidenced openings events r) (event : Event) {resource : Text}
    {capability : ResourceCapability} (newest : r'.latest .capability resource = some capability)
    (others : ∀ id, id ≠ resource → r'.latest .capability id = r.latest .capability id)
    (epoch : r'.currentEpoch = r.currentEpoch) (current : capability.epoch = r.currentEpoch)
    (accepted : AcceptedIn openings (events ++ [event]) r.currentEpoch capability) :
    Evidenced openings (events ++ [event]) r' := by
  constructor
  · intro id other held
    rw [epoch]
    by_cases is : id = resource
    · rw [is, newest] at held
      obtain rfl := Option.some.inj held
      exact current ▸ UInt64.le_refl _
    · rw [others id is] at held
      exact evidenced.epoch id other held
  · intro id other held current
    rw [epoch] at current ⊢
    by_cases is : id = resource
    · rw [is, newest] at held
      obtain rfl := Option.some.inj held
      exact accepted
    · rw [others id is] at held
      exact (evidenced.accepted id other held current).concat event

theorem later (evidenced : Evidenced openings events r) (events' : List Event)
    (latest : ∀ id, r'.latest .capability id = r.latest .capability id)
    (newer : r.currentEpoch < r'.currentEpoch) : Evidenced openings events' r' where
  epoch id capability held := by
    rw [latest] at held
    exact UInt64.le_of_lt (UInt64.lt_of_le_of_lt (evidenced.epoch id capability held) newer)
  accepted id capability held current := by
    rw [latest] at held
    have lt := UInt64.lt_of_le_of_lt (evidenced.epoch id capability held) newer
    rw [current] at lt
    exact (UInt64.lt_irrefl _ lt).elim

theorem recalled {x : Registry} (evidenced : Evidenced openings events r) (recalls : Recalls r x)
    (orderly : r.Orderly) (orderly' : x.Orderly) : Evidenced openings events x := by
  have epochs : x.currentEpoch = r.currentEpoch := by
    rw [orderly'.epochs, recalls.durableEpoch, orderly.epochs]
  constructor
  · intro id capability held
    obtain ⟨original, held', alike⟩ := recalls.newest held
    rw [epochs, ← epoch_of_lasting alike]
    exact evidenced.epoch id original held'
  · intro id capability held current
    obtain ⟨original, held', alike⟩ := recalls.newest held
    rw [epochs, ← epoch_of_lasting alike] at current
    rw [epochs]
    exact (evidenced.accepted id original held' current).alike alike

end Evidenced

theorem Evidenced.effect {call : Call} {answer : Answer} {event : Event} {site : Site}
    (evidenced : Evidenced openings events r) (run : Run openings events (.up r d))
    (step : Step openings (.up r d) event site)
    (belongs : event = .called clock call answer ∨ event = .crashed clock (some call))
    (faithful : Faithful r D) (effect : Effect clock r D call answer r' D') :
    Evidenced openings (events ++ [event]) r' := by
  cases asserts : r.asserts call with
  | none =>
      have latest := effect.latest faithful asserts
      have faithful' := invariant_faithful.effect faithful trivial effect
      have le := (invariant_epoch r.durableEpoch).effect (UInt64.le_refl _) trivial effect
      rw [← faithful.sane.orderly.epochs, ← faithful'.sane.orderly.epochs] at le
      by_cases same : r'.currentEpoch = r.currentEpoch
      · exact evidenced.kept event (latest .capability) same
      · apply evidenced.later _ (latest .capability)
        exact UInt64.lt_of_le_of_ne le (Ne.symm same)
  | some published =>
      obtain ⟨kind, value⟩ := published
      obtain ⟨result, answered, publishes⟩ := effect.publishes faithful asserts
      cases publishes with
      | refused e abides => exact evidenced.kept event (abides.latest .capability) abides.currentEpoch
      | held abides => exact evidenced.kept event (abides.latest .capability) abides.currentEpoch
      | added valid next epoch newest others =>
          by_cases of : kind = .capability
          · subst of
            cases call with
            | publishCapability capability =>
                cases asserts
                subst answered
                obtain ⟨lease, held, incarnation, current, lived⟩ := effect.authorized rfl
                refine evidenced.added event newest (fun id ne => others .capability id (.inr ne))
                  epoch rfl ?_
                obtain ⟨_, -, turns⟩ := run.turns
                refine @AcceptedIn.intro _ _ _ _ _ [] _ _ _ _ _ _ rfl run step ?_ rfl held incarnation lived
                  (Turns.granted turns rfl held) current (lasting_withProvenance ..)
                cases belongs with
                | inl called => exact called ▸ .answered clock _
                | inr crashed => exact crashed ▸ .cut clock
            | _ => cases asserts
          · exact evidenced.kept event (fun id => others .capability id (.inl (Ne.symm of))) epoch

theorem evidenced_fresh (options : RegistryOptions) (store : Store) (clock : UInt64) :
    Evidenced openings [] (fresh options store clock) := by
  have none (id : Text) : (fresh options store clock).latest .capability id = none := rfl
  constructor
  · intro id capability held
    rw [none] at held
    cases held
  · intro id capability held
    rw [none] at held
    cases held

theorem carrying_evidenced {event : Event} {site site' : Site} (run : Run openings events site)
    (step : Step openings site event site') :
    Carrying site.members event (Evidenced openings events)
      (Evidenced openings (events ++ [event])) where
  idle _ r evidenced := evidenced.kept event (fun _ => rfl) rfl
  claimed {r r' D D'} _ faithful advancing evidenced := by
    obtain ⟨lt, -, -⟩ := advancing.lt
    rw [← faithful.sane.orderly.epochs] at lt
    generalize r'.currentEpoch = next at advancing lt
    cases advancing with
    | done => exact evidenced.later _ (fun _ => rfl) lt
  effect members belongs faithful effect evidenced := by
    cases site with
    | down d => cases members
    | up r d =>
        obtain rfl := Option.some.inj members
        exact Evidenced.effect evidenced run step belongs faithful effect
  recovered _ sane sane' recalls evidenced := evidenced.recalled recalls sane.orderly sane'.orderly

/-- The epochs an authority has taken rise, and what supports a decision under a policy without stale
epochs has been accepted in the epoch of the decision. -/
theorem evidence_fresh {site : Site} (run : Run .reading events site) :
    (epochs events).Pairwise (· < ·) ∧ ∀ r d clock request decision site', site = .up r d →
      Step .reading site (.called clock (.evaluate request) (.decided (.ok decision))) site' →
      decision.outcome.isPositive = true →
      ∃ inputs, (r.tick clock).Assembles request inputs ∧ evaluate inputs = .ok decision ∧
        (inputs.policy.maxStaleEpochs = 0 → ∀ (index : Nat) (component : PathComponent),
          inputs.path.components[index]? = some component →
          ∃ capability, inputs.capabilities[index]? = some (some capability) ∧
            AcceptedIn .reading events r.currentEpoch capability) := by
  constructor
  · obtain ⟨D, -, turns⟩ := run.turns
    exact Turns.epochs_rise turns
  rintro r d clock request decision site' rfl step positive
  obtain ⟨D, refines, standing, carries⟩ := run.carries (K := Evidenced .reading)
    (fun options store clock _ => evidenced_fresh options store clock)
    fun _ _ _ _ run step => carrying_evidenced run step
  have faithful : Faithful r D := standing
  have evidenced : Evidenced .reading events r := carries
  obtain ⟨r', d', D', -, effect, -⟩ := step.effect refines
  cases Registry.decides effect.decided with
  | rejected reason => cases positive
  | @evaluated policy path klass _ valid policyFor pathFor classFor evaluated =>
      refine ⟨_, ⟨_, _, _, valid, policyFor, pathFor, classFor, rfl⟩, evaluated, ?_⟩
      intro strict index component found
      obtain ⟨capability, slot, live⟩ := (clear_of_positive evaluated positive).live found
      refine ⟨capability, slot, ?_⟩
      have slot : (path.components.map ((r.tick clock).evidenceFor .capability))[index]? =
        some (some capability) := slot
      have found : path.components[index]? = some component := found
      have ticked := Abides.tick r clock
      -- what is used of a resource is its newest capability
      have latest : r.latest .capability component.resource = some capability := by
        rw [List.getElem?_map, found, Option.map_some, Option.some.injEq] at slot
        rw [← ticked.latest, ← (faithful.ticked clock).sane.orderly.findLatest]
        exact slot
      apply evidenced.accepted _ _ latest
      apply UInt64.le_antisymm (evidenced.epoch _ _ latest)
      have epoch := live.epoch
      rw [strict] at epoch
      rw [UInt64.le_iff_toNat_le, ← ticked.currentEpoch]
      exact epoch

def attesting : List Action :=
  [.open .default 0 (List.replicate 16 7), .crash, .open .default 0 (List.replicate 16 8),
    .call 0 (.registerPublisher (text "p1") 1 ⟨List.replicate 16 1, BootId.size_ones⟩ 10 []),
    .call 0 (.publishCapability { leasedCapability with epoch := 2 }),
    .call 0 (.publishClass plainClass []), .call 0 (.publishPolicy plainPolicy []),
    .call 0 (.publishPath plainPath [])]

def attestedRequest : ContractRequest := { plainRequest with observedEpoch := 2 }

def attestsSupported : Bool :=
  match (Site.down Disk.empty).rehearse attesting with
  | some (events, .up r _) =>
      epochs events == [1, 2] && decide (r.store.Spacious 400120) &&
        match (r.tick 0).decide attestedRequest with
        | .ok decision => decision.outcome.isPositive && decide decision.Short
        | _ => false
  | _ => false

set_option maxRecDepth 1000 in
theorem evidence_fresh_supported : ∃ events r d decision site,
    Run .reading events (.up r d) ∧ epochs events = [1, 2] ∧
    Step .reading (.up r d)
      (.called 0 (.evaluate attestedRequest) (.decided (.ok decision))) site ∧
    decision.outcome.isPositive = true ∧
    ∃ inputs, (r.tick 0).Assembles attestedRequest inputs ∧ evaluate inputs = .ok decision ∧
      (inputs.policy.maxStaleEpochs = 0 → ∀ (index : Nat) (component : PathComponent),
        inputs.path.components[index]? = some component →
        ∃ capability, inputs.capabilities[index]? = some (some capability) ∧
          AcceptedIn .reading events r.currentEpoch capability) := by
  have supported : attestsSupported = true := by decide +kernel
  unfold attestsSupported at supported
  split at supported
  case h_2 => cases supported
  next events r d rehearsed =>
    simp only [Bool.and_eq_true, beq_iff_eq, decide_eq_true_eq] at supported
    obtain ⟨⟨given, spacious⟩, supported⟩ := supported
    have run := reading_of_rehearse rfl rehearsed
    split at supported
    case h_2 => cases supported
    next decision decided =>
      rw [Bool.and_eq_true, decide_eq_true_eq] at supported
      obtain ⟨positive, short⟩ := supported
      obtain ⟨between, store, d', ends, -⟩ := (run.affords (120 + 400000 + 0) spacious).evaluate
        decided (within_decision short) (by decide)
      exact ⟨events, r, d, decision, _, run, given, .called ends, positive,
        (evidence_fresh run).2 r d 0 attestedRequest decision _ rfl (.called ends) positive⟩

def recurring : List Action :=
  [.open .default 0 (List.replicate 16 7), .call 0 (.advanceEpoch (List.replicate 66 97)), .crash,
    .open shortsighted 0 (List.replicate 16 8)]

def recurs : Bool :=
  match (Site.down Disk.empty).rehearse recurring with
  | some (events, .up _ _) => epochs events == [1, 2, 2]
  | _ => false

set_option maxRecDepth 1000 in
theorem epoch_recurs : ¬∀ openings events site, Run openings events site →
    (epochs events).Pairwise (· < ·) ∧ ∀ r d clock request decision site', site = .up r d →
      Step openings site (.called clock (.evaluate request) (.decided (.ok decision))) site' →
      decision.outcome.isPositive = true →
      ∃ inputs, (r.tick clock).Assembles request inputs ∧ evaluate inputs = .ok decision ∧
        (inputs.policy.maxStaleEpochs = 0 → ∀ (index : Nat) (component : PathComponent),
          inputs.path.components[index]? = some component →
          ∃ capability, inputs.capabilities[index]? = some (some capability) ∧
            AcceptedIn openings events r.currentEpoch capability) := by
  intro fresh
  have recurs : recurs = true := by decide +kernel
  unfold QoSFabric.recurs at recurs
  split at recurs
  case h_2 => cases recurs
  next events r d rehearsed =>
    have rises := (fresh _ events _ (run_of_rehearse rehearsed)).1
    rw [beq_iff_eq.mp recurs] at rises
    exact absurd rises (by decide)

end QoSFabric
