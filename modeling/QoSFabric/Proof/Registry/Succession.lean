import QoSFabric.Proof.Registry.Fencing
import QoSFabric.Proof.Registry.Freshness
import QoSFabric.Proof.Registry.Leases

/-!
# Succession of publishers

A publisher holds a lease only while the last grant to it stands: once an incarnation has been
granted, nothing that an earlier one publishes is accepted any more, across restarts and crashes.
-/

namespace QoSFabric

open FileSystem Registry

variable {openings : Openings} {r r' : Registry} {D D' : Durable} {clock : UInt64} {publisher : Text}
  {incarnation : PublisherIncarnation} {events : List Event}

/-- A publisher has been granted an incarnation, and the grant stands. -/
inductive Tenure (publisher : Text) (incarnation : PublisherIncarnation) (events : List Event) :
    Prop where
  | intro {before after : List Event} {clock ttlMs : UInt64} {boot : BootId} {origin : Text}
      {lease : PublisherLease}
      (whole : events = before ++
        .called clock (.registerPublisher publisher incarnation boot ttlMs origin)
          (.granted (.ok lease)) :: after)
      (upheld : ∀ event ∈ after, event.Upholds publisher)

theorem Tenure.upheld {event : Event} (tenure : Tenure publisher incarnation events)
    (upholds : event.Upholds publisher) : Tenure publisher incarnation (events ++ [event]) := by
  obtain ⟨rfl, upheld⟩ := tenure
  refine ⟨List.append_assoc .., ?_⟩
  intro other mem
  rcases List.mem_append.mp mem with old | last
  · exact upheld other old
  · exact List.mem_singleton.mp last ▸ upholds

def Registry.Leased (r : Registry) (publisher : Text) (events : List Event) : Prop :=
  ∀ lease, r.leases.lookup publisher = some lease → Tenure publisher lease.incarnation events

theorem Effect.leased {call : Call} {answer : Answer}
    (effect : Effect clock r D call answer r' D') (leased : r.Leased publisher events) :
    r'.Leased publisher (events ++ [.called clock call answer]) := by
  intro lease held
  rcases effect.leases held with ⟨before, upholds⟩ | ⟨rfl, boot, ttlMs, origin, rfl, rfl⟩
  · exact (leased lease before).upheld upholds
  · exact ⟨rfl, fun _ mem => (List.not_mem_nil mem).elim⟩

def Held (publisher : Text) (events : List Event) (members : Option Registry) : Prop :=
  ∀ r, members = some r → r.Leased publisher events

theorem Turn.held {event : Event} {members members' : Option Registry}
    (turn : Turn members D event members' D') (holds : Held publisher events members) :
    Held publisher (events ++ [event]) members' := by
  intro r up
  cases turn with
  | opened restored =>
      obtain rfl := Option.some.inj up
      intro lease held
      rw [restored.leases, AList.lookup_empty] at held
      cases held
  | called effect =>
      obtain rfl := Option.some.inj up
      exact effect.leased (holds _ rfl)
  | _ => cases up

theorem Turns.held {site : Site} (turns : Turns openings events site D) (publisher : Text) :
    Held publisher events site.members := by
  induction turns with
  | start => exact fun _ up => nomatch up
  | next _ _ _ turn ih => exact turn.held ih

theorem Run.leased {d : Disk FileName} (run : Run openings events (.up r d)) (publisher : Text) :
    r.Leased publisher events := by
  obtain ⟨D, -, turns⟩ := run.turns
  exact Turns.held turns publisher r rfl

/-- What a publisher publishes is accepted only under the incarnation that was granted to it last,
while that grant stands. -/
theorem publication_tenure {site : Site} {d : Disk FileName} {call : Call}
    {result : PublicationResult} (run : Run .reading events (.up r d))
    (step : Step .reading (.up r d) (.called clock call (.published (.ok result))) site)
    (authority : call.authority = some (publisher, incarnation)) :
    Tenure publisher incarnation events ∧
      ∀ given ∈ grants publisher events, given ≤ incarnation := by
  obtain ⟨D, refines, fenced⟩ := run.standing invariant_fenced (restarts_fenced _)
    fun _ => trivial
  obtain ⟨_, _, D', -, effect, -⟩ := step.effect refines
  obtain ⟨lease, held, rfl, -, -⟩ := effect.authorized authority
  refine ⟨run.leased publisher lease held, ?_⟩
  intro given mem
  obtain ⟨D₁, -, turns⟩ := run.turns
  obtain ⟨highest, reached, le⟩ := Turns.reaches turns publisher given mem
  have watermark := (fenced publisher lease held).1
  rwa [Option.some.inj (reached.symm.trans watermark)] at le

/-- What the publisher that came back publishes. -/
def secondCapability : ResourceCapability := { leasedCapability with incarnation := 2, epoch := 2 }

def publishesSecond : Bool :=
  match (Site.down Disk.empty).rehearse returning with
  | some (events, .up r d) => grants (text "p1") events == [1, 2] &&
      match (execute (r.call 5 (.publishCapability secondCapability)) d).1.1 with
      | .published (.ok _) => true
      | _ => false
  | _ => false

set_option maxRecDepth 1000 in
theorem publication_tenure_returned : ∃ events r d result site,
    Run .reading events (.up r d) ∧ grants (text "p1") events = [1, 2] ∧
    Step .reading (.up r d)
      (.called 5 (.publishCapability secondCapability) (.published (.ok result))) site ∧
    Tenure (text "p1") 2 events ∧ ∀ given ∈ grants (text "p1") events, given ≤ 2 := by
  have publishes : publishesSecond = true := by decide +kernel
  unfold publishesSecond at publishes
  split at publishes
  case h_2 => cases publishes
  next events r d rehearsed =>
    rw [Bool.and_eq_true, beq_iff_eq] at publishes
    obtain ⟨granted, published⟩ := publishes
    have run := reading_of_rehearse rfl rehearsed
    cases executed : execute (r.call 5 (.publishCapability secondCapability)) d with
    | mk outcome d' =>
        obtain ⟨answer, r'⟩ := outcome
        rw [executed] at published
        dsimp only at published
        split at published
        case h_2 => cases published
        next result =>
          have step : Step .reading (.up r d)
              (.called 5 (.publishCapability secondCapability) (.published (.ok result)))
              (.up r' d') := .called (ends_of_execute executed)
          exact ⟨events, r, d, result, _, run, granted, step, publication_tenure run step rfl⟩

end QoSFabric
