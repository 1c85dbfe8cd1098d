import QoSFabric.Proof.Registry.Invariant
import QoSFabric.Proof.Registry.Progress
import QoSFabric.Proof.Engine.Evidence

/-!
# Publisher leases

A lease is compared with the time the registry has cached, which a publication does not refresh.
-/

namespace QoSFabric

open FileSystem Registry

variable {openings : Openings} {r r' : Registry} {D D' : Durable} {clock : UInt64}

/-- The publisher and the incarnation a call needs a lease of. -/
def Call.authority : Call → Option (Text × PublisherIncarnation)
  | .publishCapability value => some (value.publisher, value.incarnation)
  | .publishReservation value => some (value.publisher, value.incarnation)
  | _ => none

/-- A lease of a publisher at an incarnation in the current epoch that has not expired at a time. -/
def Registry.Authorizes (r : Registry) (clock : UInt64) (publisher : Text)
    (incarnation : PublisherIncarnation) : Prop :=
  ∃ lease, r.leases.lookup publisher = some lease ∧ lease.incarnation = incarnation ∧
    lease.epoch = r.currentEpoch ∧ clock < lease.expiresAtMs

/-- The lease of a publisher has not expired between the cached time and a time. -/
def Registry.Unexpired (r : Registry) (clock : UInt64) (publisher : Text) : Prop :=
  ∀ lease, r.leases.lookup publisher = some lease → r.nowMs < lease.expiresAtMs →
    clock < lease.expiresAtMs

theorem authorizes_of_authorize {publisher : Text} {incarnation : PublisherIncarnation}
    {epoch : FabricEpoch} {unauthorized fenced stale : String}
    (authorized : r.authorize publisher incarnation epoch unauthorized fenced stale = .ok ()) :
    r.Authorizes r.nowMs publisher incarnation := by
  unfold Registry.authorize findLease at authorized
  split at authorized
  · cases authorized
  next lease found =>
    split at authorized
    · cases authorized
    next incarnation =>
      obtain ⟨held, live⟩ := Option.filter_eq_some_iff.mp found
      rw [Bool.and_eq_true, beq_iff_eq, decide_eq_true_eq] at live
      exact ⟨lease, held, not_not.mp incarnation, live.1, live.2⟩

theorem Effect.authorized {call : Call} {result : PublicationResult} {publisher : Text}
    {incarnation : PublisherIncarnation} (authority : call.authority = some (publisher, incarnation))
    (effect : Effect clock r D call (.published (.ok result)) r' D') :
    r.Authorizes r.nowMs publisher incarnation := by
  cases call with
  | publishCapability value =>
      cases authority
      generalize answer : Answer.published (.ok result) = outcome at effect
      cases effect with
      | refusedCapability e => cases answer
      | publishCapability authorized _ => exact authorizes_of_authorize authorized
  | publishReservation value =>
      cases authority
      generalize answer : Answer.published (.ok result) = outcome at effect
      cases effect with
      | refusedReservation e => cases answer
      | publishReservation authorized _ => exact authorizes_of_authorize authorized
  | _ => cases authority

/-- A publication that succeeds happens before its lease expires exactly when the lease has not
expired since the registry last looked at the clock. -/
theorem publication_authorized_iff {events : List Event} {site : Site} {d : Disk FileName}
    {call : Call} {result : PublicationResult} {publisher : Text}
    {incarnation : PublisherIncarnation} (run : Run openings events (.up r d))
    (step : Step openings (.up r d) (.called clock call (.published (.ok result))) site)
    (authority : call.authority = some (publisher, incarnation)) :
    r.Authorizes clock publisher incarnation ↔ r.Unexpired clock publisher := by
  obtain ⟨D, drives⟩ := RunWhere.drives run
  obtain ⟨r', d', D', -, effect, -⟩ := step.effect drives
  obtain ⟨lease, held, incarnations, epoch, live⟩ := effect.authorized authority
  constructor
  · rintro ⟨other, held', -, -, live'⟩ lease' held'' _
    obtain rfl := Option.some.inj (held'.symm.trans held'')
    exact live'
  · intro unexpired
    exact ⟨lease, held, incarnations, epoch, unexpired lease held live⟩

def Event.clocks : Event → List UInt64
  | .opened _ clock _ _ | .called clock _ _ | .crashed clock _ => [clock]
  | .closed => []

/-- Whether an event pins the clock. -/
def Event.pins : Event → Bool
  | .called _ (.setNowMillis _) _ | .crashed _ (some (.setNowMillis _)) => true
  | _ => false

def leased : List Action :=
  [.open .default 0 (List.replicate 16 7),
    .call 0 (.registerPublisher (text "p1") 1 ⟨List.replicate 16 1, BootId.size_ones⟩ 10 [])]

/-- A capability of the first epoch. -/
def leasedCapability : ResourceCapability := { Proof.Engine.plainCapability with epoch := 1 }

def publishesAt (clock : UInt64) : Bool :=
  match (Site.down Disk.empty).rehearse leased with
  | some (events, .up r d) =>
      events.flatMap Event.clocks == [0, 0] && !events.any Event.pins &&
        (r.leases.lookup (text "p1")).any (fun lease =>
          lease.expiresAtMs == 10 && lease.incarnation == 1 && lease.epoch == r.currentEpoch) &&
        match (execute (r.call clock (.publishCapability leasedCapability)) d).1.1 with
        | .published (.ok _) => true
        | _ => false
  | _ => false

theorem step_of_publishesAt {clock : UInt64} (publishes : publishesAt clock = true) :
    ∃ events r d result site, Run .any events (.up r d) ∧
      events.flatMap Event.clocks = [0, 0] ∧ (∀ event ∈ events, event.pins = false) ∧
      (∃ lease, r.leases.lookup (text "p1") = some lease ∧ lease.expiresAtMs = 10 ∧
        lease.incarnation = 1 ∧ lease.epoch = r.currentEpoch) ∧
      Step .any (.up r d)
        (.called clock (.publishCapability leasedCapability) (.published (.ok result))) site := by
  unfold publishesAt at publishes
  split at publishes
  case h_2 => cases publishes
  next events r d rehearsed =>
    simp only [Bool.and_eq_true, beq_iff_eq] at publishes
    obtain ⟨⟨⟨clocks, pins⟩, lease⟩, published⟩ := publishes
    cases executed : execute (r.call clock (.publishCapability leasedCapability)) d with
    | mk outcome d' =>
        obtain ⟨answer, r'⟩ := outcome
        rw [executed] at published
        dsimp only at published
        split at published
        case h_2 => cases published
        next result =>
          refine ⟨events, r, d, result, .up r' d', run_of_rehearse rehearsed, clocks, ?_, ?_,
            .called (ends_of_execute executed)⟩
          · simpa using pins
          · cases held : r.leases.lookup (text "p1") with
            | none =>
                rw [held] at lease
                cases lease
            | some lease' =>
                rw [held] at lease
                simp only [Option.any_some, Bool.and_eq_true, beq_iff_eq] at lease
                exact ⟨lease', rfl, lease.1.1, lease.1.2, lease.2⟩

/-- The clock is past the expiry of the lease, and the publication succeeds. -/
theorem publication_after_expiry : ¬∀ openings events r d clock call result site publisher incarnation,
    Run openings events (.up r d) →
    (events.flatMap Event.clocks ++ [clock]).Pairwise (· ≤ ·) →
    (∀ event ∈ events, event.pins = false) →
    Step openings (.up r d) (.called clock call (.published (.ok result))) site →
    call.authority = some (publisher, incarnation) → r.Authorizes clock publisher incarnation := by
  intro authorizes
  have publishes : publishesAt 20 = true := by decide +kernel
  obtain ⟨events, r, d, result, site, run, clocks, pins, ⟨lease, held, expires, -, -⟩, step⟩ :=
    step_of_publishesAt publishes
  have rising : (events.flatMap Event.clocks ++ [20]).Pairwise (· ≤ ·) := by
    rw [clocks]
    decide
  obtain ⟨lease', held', -, -, live⟩ := authorizes _ events r d 20 _ result site _ _ run rising pins
    step rfl
  obtain rfl := Option.some.inj (held.symm.trans held')
  rw [expires] at live
  exact absurd live (by decide)

/-- Within the lease the publication is authorized. -/
theorem publication_within_lease : ∃ events r d result site,
    Run .any events (.up r d) ∧
    Step .any (.up r d)
      (.called 5 (.publishCapability leasedCapability) (.published (.ok result))) site ∧
    (r.Authorizes 5 (text "p1") 1 ↔ r.Unexpired 5 (text "p1")) ∧ r.Authorizes 5 (text "p1") 1 := by
  have publishes : publishesAt 5 = true := by decide +kernel
  obtain ⟨events, r, d, result, site, run, -, -, ⟨lease, held, expires, incarnation, epoch⟩, step⟩ :=
    step_of_publishesAt publishes
  refine ⟨events, r, d, result, site, run, step, publication_authorized_iff run step rfl, lease, held,
    incarnation, epoch, ?_⟩
  rw [expires]
  decide

end QoSFabric
