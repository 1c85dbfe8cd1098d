import QoSFabric.Proof.Registry.Publication

namespace QoSFabric

open Registry

variable {r r' : Registry} {D D' : Durable} {clock : UInt64}

/-- The epoch an authority has opened with, or advanced to. -/
def Event.epoch : Event → Option FabricEpoch
  | .opened options _ _ (.ok epoch) => if options.claimAuthority then some epoch else none
  | .called _ (.advanceEpoch _) (.advanced (.ok epoch)) => some epoch
  | _ => none

def epochs (events : List Event) : List FabricEpoch := events.filterMap Event.epoch

theorem epochs_concat (events : List Event) (event : Event) :
    epochs (events ++ [event]) = epochs events ++ event.epoch.toList := by
  unfold epochs
  rw [List.filterMap_append, List.filterMap_cons]
  cases event.epoch <;> rfl

theorem invariant_epoch (epoch : FabricEpoch) :
    Invariant (fun _ _ _ => True) fun r _ => epoch ≤ r.durableEpoch where
  store _ le := le
  pruned le := le
  compacted le _ := le
  clock _ _ le := le
  equivocated _ _ _ _ _ _ _ le := ⟨fun _ _ => le, fun _ _ => le⟩
  accepted _ _ _ _ _ _ _ _ _ le := ⟨fun _ _ => le, fun _ _ => le⟩
  registered _ _ _ _ le := ⟨fun _ _ => le, fun _ _ => le⟩
  revoked _ _ _ le := ⟨fun _ _ => le, fun _ _ => le⟩
  decided _ _ _ _ _ le := ⟨fun _ _ => le, fun _ => le⟩
  advanced := by
    intro r D next payload reason sequence le increment recorded
    have grown := Store.tryIncrement_eq_some.mp increment
    have le := UInt64.le_iff_toNat_le.mp le
    show epoch ≤ next
    rw [UInt64.le_iff_toNat_le]
    omega
  expired le := le

theorem Advancing.lt {reason : Text} {next : FabricEpoch}
    (advancing : Advancing reason r D (.ok next) r' D') :
    r.durableEpoch < next ∧ r'.durableEpoch = next ∧ r'.currentEpoch = next := by
  cases advancing with
  | done sequence store increment recorded =>
      have grown := Store.tryIncrement_eq_some.mp increment
      refine ⟨?_, rfl, rfl⟩
      rw [UInt64.lt_iff_toNat_lt]
      omega

def Ages (events : List Event) (r : Registry) : Prop :=
  ∀ epoch ∈ epochs events, epoch ≤ r.durableEpoch

theorem Ages.ungiven {events : List Event} {event : Event} (ages : Ages events r)
    (none : event.epoch = none) : Ages (events ++ [event]) r := by
  intro epoch mem
  rw [epochs_concat, none, Option.toList_none, List.append_nil] at mem
  exact ages epoch mem

theorem Ages.given {events : List Event} {event : Event} {next : FabricEpoch} (ages : Ages events r)
    (given : event.epoch = some next) (reached : next = r.durableEpoch) :
    Ages (events ++ [event]) r := by
  intro epoch mem
  rw [epochs_concat, given, Option.toList_some, List.mem_append, List.mem_singleton] at mem
  cases mem with
  | inl old => exact ages epoch old
  | inr is => exact is ▸ reached ▸ UInt64.le_refl _

theorem epoch_opened {options : RegistryOptions} {boot : Bytes} {epoch : FabricEpoch} :
    (Event.opened options clock boot (.ok epoch)).epoch =
      if options.claimAuthority then some epoch else none := rfl

theorem Effect.epoch {call : Call} {answer : Answer} {next : FabricEpoch}
    (effect : Effect clock r D call answer r' D')
    (given : (Event.called clock call answer).epoch = some next) :
    r.durableEpoch < next ∧ r'.durableEpoch = next := by
  unfold Event.epoch at given
  split at given
  case h_1 eq => cases eq
  case h_3 => cases given
  next reason advanced eq =>
    cases eq
    obtain rfl := Option.some.inj given
    cases effect with
    | advanceEpoch advancing =>
        obtain ⟨lt, durable, -⟩ := advancing.lt
        exact ⟨lt, durable⟩

theorem carrying_ages (members : Option Registry) (events : List Event) (event : Event) :
    Carrying members event (Ages events) (Ages (events ++ [event])) where
  idle idle r ages := by
    apply ages.ungiven
    cases event with
    | opened options clock boot result =>
        cases result with
        | error e => rfl
        | ok epoch =>
            have observes : options.claimAuthority = false := idle
            rw [epoch_opened, observes]
            rfl
    | called => exact idle.elim
    | _ => rfl
  claimed {r r' D D'} opens faithful advancing ages := by
    obtain ⟨lt, durable, -⟩ := advancing.lt
    have kept : Ages events r' := fun epoch mem =>
      durable ▸ UInt64.le_of_lt (UInt64.lt_of_le_of_lt (ages epoch mem) lt)
    rcases opens with ⟨options, clock, boot, claims, rfl⟩ | ⟨clock, rfl⟩
    · apply kept.given _ durable.symm
      rw [epoch_opened, claims, if_pos rfl]
    · exact kept.ungiven rfl
  effect {clock r D call answer r' D'} _ belongs _ effect ages := by
    have kept : Ages events r' := fun epoch mem =>
      (invariant_epoch epoch).effect (ages epoch mem) trivial effect
    cases given : event.epoch with
    | none => exact kept.ungiven given
    | some next =>
        rcases belongs with rfl | rfl
        case inr => cases given
        exact kept.given given (effect.epoch given).2.symm
  recovered _ _ _ recalls ages epoch mem := recalls.durableEpoch ▸ ages epoch mem

theorem Turns.ages {events : List Event} {site : Site} (turns : Turns .reading events site D) :
    Carries (Ages events) site.members D :=
  TurnsWhere.carries (fun _ _ _ _ _ mem => (List.not_mem_nil mem).elim) turns
    fun events event members => carrying_ages members events event

theorem Turn.advanced {events : List Event} {event : Event} {members members' : Option Registry}
    {next : FabricEpoch} (turn : Turn members D event members' D')
    (ages : Carries (Ages events) members D) (given : event.epoch = some next) :
    ∀ epoch ∈ epochs events, epoch < next := by
  intro epoch mem
  cases turn with
  | opened restored =>
      rename_i options clock boot r
      rw [epoch_opened] at given
      cases restored with
      | observed accepted observes recovers =>
          rw [observes] at given
          cases given
      | claimed accepted claims recovers advancing =>
          rw [claims, if_pos rfl] at given
          obtain rfl := Option.some.inj given
          obtain ⟨lt, -, current⟩ := advancing.lt
          rw [current]
          exact UInt64.lt_of_le_of_lt (ages _ _ _ _ accepted recovers epoch mem) lt
  | called effect => exact UInt64.lt_of_le_of_lt (ages epoch mem) (effect.epoch given).1
  | _ => cases given

theorem Turns.epochs_rise {events : List Event} {site : Site}
    (turns : Turns .reading events site D) : (epochs events).Pairwise (· < ·) := by
  induction turns with
  | start => exact .nil
  | next turns sees _ turn ih =>
      obtain rfl := sees.eq
      rw [epochs_concat, List.pairwise_append]
      refine ⟨ih, ?_, ?_⟩
      · cases Event.epoch _ <;> simp
      · intro epoch mem next is
        exact turn.advanced (Turns.ages turns) (Option.mem_toList.mp is) epoch mem

end QoSFabric
