import QoSFabric.Model.Serve
import QoSFabric.Proof.Registry.Reassertion

/-!
# Generations chosen by the server

A publication whose sender asks the server for a generation is numbered in order exactly when what
the server looks up is the newest generation. A capability is looked up by its resource alone. A
reservation is looked up by the generation that its sender wrote, so its number is right only when
the sender knew the newest generation.
-/

namespace QoSFabric

open Registry

variable {r : Registry} {kind : EntityKind}

def Registry.Admission.Unfaulted : Admission → Prop
  | .accepted | .held _ => True
  | .refused error => error.code = .capacityExhausted
  | .equivocated _ => False

/-- A definition that carries the generation after the newest one, and is not refused for it. -/
structure InOrder (r : Registry) (kind : EntityKind) (value : kind.Carrier) : Prop where
  first : r.latest kind (kind.entityId value) = none → kind.generation value = 1
  next : ∀ latest, r.latest kind (kind.entityId value) = some latest →
    kind.generation latest ≠ maxUInt64 →
      (kind.generation value).toNat = (kind.generation latest).toNat + 1
  /-- The last generation does not wrap around. -/
  unwrapped : ∀ latest, r.latest kind (kind.entityId value) = some latest →
    kind.generation latest ≤ kind.generation value
  /-- The question is put to the table, or to the table a compaction leaves. -/
  unrefused : ∀ table, table = r.tables kind ∨ table = r.prune.tables kind →
    (admission kind table value (kind.contentDigest value)).Unfaulted

theorem unfaulted_of_first {table : GenerationTable kind} {value : kind.Carrier}
    {digest : Digest256} (none : (table.held (kind.entityId value)).getLast? = none)
    (first : kind.generation value = 1) : (admission kind table value digest).Unfaulted := by
  unfold admission
  rw [getLast?_held, none]
  dsimp only
  split
  · rfl
  · rw [if_neg (not_not.mpr first)]
    trivial

theorem unfaulted_of_next {table : GenerationTable kind} {value latest : kind.Carrier}
    {digest : Digest256} (some : (table.held (kind.entityId value)).getLast? = some latest)
    (next : Store.tryIncrement (kind.generation latest) = .some (kind.generation value)) :
    (admission kind table value digest).Unfaulted := by
  have grown := Store.tryIncrement_eq_some.mp next
  have later : ¬kind.generation value < kind.generation latest := by
    rw [UInt64.lt_iff_toNat_lt]
    omega
  have other : kind.generation value ≠ kind.generation latest := by
    intro same
    rw [same] at grown
    omega
  unfold admission
  rw [getLast?_held, some]
  dsimp only
  rw [if_neg later, if_neg other, if_pos next]
  trivial

theorem unfaulted_again_iff {table : GenerationTable kind} {value latest : kind.Carrier}
    {digest : Digest256} (some : (table.held (kind.entityId value)).getLast? = some latest)
    (again : kind.generation value = kind.generation latest) :
    (admission kind table value digest).Unfaulted ↔ kind.digest latest = digest := by
  have later : ¬kind.generation value < kind.generation latest := by
    rw [again]
    exact UInt64.lt_irrefl _
  unfold admission
  rw [getLast?_held, some]
  dsimp only
  rw [if_neg later, if_pos again]
  split
  next same => exact iff_of_true trivial same
  next other => exact iff_of_false id other

theorem getLast?_compacted (orderly : r.Orderly) {id : Text} {table : GenerationTable kind}
    (asked : table = r.tables kind ∨ table = r.prune.tables kind) :
    (table.held id).getLast? = r.latest kind id := by
  rcases asked with rfl | rfl
  · rfl
  · exact latest_prune orderly kind id

def Succeeds (latest : Option kind.Carrier) (value : kind.Carrier) : Prop :=
  match latest with
  | none => kind.generation value = 1
  | some latest =>
      if kind.generation latest = maxUInt64 then
        kind.generation value = maxUInt64 ∧ kind.digest latest = kind.contentDigest value
      else (kind.generation value).toNat = (kind.generation latest).toNat + 1

theorem continues_last_iff {latest value : kind.Carrier} (top : kind.generation latest = maxUInt64) :
    Succeeds (some latest) value ↔
      kind.generation value = maxUInt64 ∧ kind.digest latest = kind.contentDigest value := by
  unfold Succeeds
  dsimp only
  rw [if_pos top]

theorem continues_next_iff {latest value : kind.Carrier}
    (room : kind.generation latest ≠ maxUInt64) :
    Succeeds (some latest) value ↔
      (kind.generation value).toNat = (kind.generation latest).toNat + 1 := by
  unfold Succeeds
  dsimp only
  rw [if_neg room]

theorem InOrder.succeeds {value : kind.Carrier} (inOrder : InOrder r kind value) :
    Succeeds (r.latest kind (kind.entityId value)) value := by
  cases last : r.latest kind (kind.entityId value) with
  | none => exact inOrder.first last
  | some latest =>
      unfold Succeeds
      dsimp only
      split
      next top =>
        have above := inOrder.unwrapped latest last
        rw [top] at above
        have same := UInt64.le_antisymm (le_maxUInt64 _) above
        exact ⟨same, (unfaulted_again_iff last (same.trans top.symm)).mp
          (inOrder.unrefused _ (.inl rfl))⟩
      next room => exact inOrder.next latest last room

theorem Succeeds.inOrder {value : kind.Carrier} (orderly : r.Orderly)
    (succeeds : Succeeds (r.latest kind (kind.entityId value)) value) : InOrder r kind value := by
  cases last : r.latest kind (kind.entityId value) with
  | none =>
      rw [last] at succeeds
      have first : kind.generation value = 1 := succeeds
      refine ⟨fun _ => first, fun latest found => ?_, fun latest found => ?_, ?_⟩
      · rw [last] at found
        cases found
      · rw [last] at found
        cases found
      · intro table asked
        exact unfaulted_of_first ((getLast?_compacted orderly asked).trans last) first
  | some latest =>
      rw [last] at succeeds
      unfold Succeeds at succeeds
      dsimp only at succeeds
      have never : r.latest kind (kind.entityId value) ≠ none := by rw [last]; exact nofun
      split at succeeds
      next top =>
        obtain ⟨same, digest⟩ := succeeds
        refine ⟨fun none => absurd none never, fun other found room => ?_, fun other found => ?_, ?_⟩
        · rw [last] at found
          cases found
          exact absurd top room
        · rw [same]
          exact le_maxUInt64 _
        · intro table asked
          exact (unfaulted_again_iff ((getLast?_compacted orderly asked).trans last)
            (same.trans top.symm)).mpr digest
      next room =>
        refine ⟨fun none => absurd none never, fun other found _ => ?_, fun other found => ?_, ?_⟩
        · rw [last] at found
          cases found
          exact succeeds
        · rw [last] at found
          cases found
          rw [UInt64.le_iff_toNat_le]
          omega
        · intro table asked
          exact unfaulted_of_next ((getLast?_compacted orderly asked).trans last)
            (Store.tryIncrement_eq_some.mpr succeeds)

theorem inOrder_iff (orderly : r.Orderly) (value : kind.Carrier) :
    InOrder r kind value ↔ Succeeds (r.latest kind (kind.entityId value)) value :=
  ⟨InOrder.succeeds, Succeeds.inOrder orderly⟩

/-- The condition under which the number that the server chooses is in order. Behind the last
generation there is none to choose, and only a repetition is let through. -/
def Registry.Tracks (r : Registry) : Submission → Prop
  | .capability value =>
      match r.latest .capability value.resource with
      | none => True
      | some latest =>
          latest.generation = maxUInt64 →
            latest.digest = EntityKind.contentDigest .capability
              ({ value with generation := maxUInt64 } : ResourceCapability)
  | .reservation value =>
      match r.latest .reservation value.resource with
      | none => True
      | some latest =>
          if latest.generation = maxUInt64 then
            (value.generation = maxUInt64 ∨ value.generation = maxUInt64 - 1 ∧
              ∃ held ∈ (r.tables .reservation).held value.resource,
                held.generation = maxUInt64 - 1) ∧
            latest.digest = EntityKind.contentDigest .reservation
              ({ value with generation := maxUInt64 } : Reservation)
          else value.generation = latest.generation

theorem nextGeneration_some (ack : PublishAckMessage) {latest : Generation}
    (room : latest ≠ maxUInt64) : (nextGeneration ack (some latest)).1.toNat = latest.toNat + 1 := by
  have next : Store.tryIncrement latest = some (latest + 1) := by
    rw [Store.tryIncrement, if_neg room]
  unfold nextGeneration
  simp only [next]
  exact Store.tryIncrement_eq_some.mp next

theorem nextGeneration_last (ack : PublishAckMessage) :
    (nextGeneration ack (some maxUInt64)).1 = maxUInt64 := rfl

theorem found_capability (orderly : r.Orderly) (value : ResourceCapability) :
    r.found (.capability value) =
      (r.latest .capability value.resource).map ResourceCapability.generation := by
  unfold found
  dsimp only
  rw [orderly.findLatest]

theorem Registry.findEntity_toOption (r : Registry) (kind : EntityKind) (id : Text)
    (generation : Generation) : (r.findEntity kind id generation).toOption =
      ((r.tables kind).held id).find? fun item => kind.generation item == generation := by
  unfold findEntity GenerationTable.held
  cases (r.tables kind).lookup id with
  | none => rfl
  | some list =>
      dsimp only [Option.getD_some]
      cases list.find? fun item => kind.generation item == generation <;> rfl

theorem found_reservation_of_held {value : Reservation}
    (held : ∃ held ∈ (r.tables .reservation).held value.resource,
      held.generation = value.generation) :
    r.found (.reservation value) = some value.generation := by
  unfold found
  dsimp only
  rw [r.findEntity_toOption]
  cases finds : ((r.tables .reservation).held value.resource).find? fun item =>
      EntityKind.generation .reservation item == value.generation with
  | none =>
      obtain ⟨item, mem, same⟩ := held
      exact absurd (beq_iff_eq.mpr same) (List.find?_eq_none.mp finds item mem)
  | some item =>
      have same := List.find?_some finds
      exact congrArg some (beq_iff_eq.mp same)

theorem found_reservation_of_not_held {value : Reservation}
    (absent : ¬∃ held ∈ (r.tables .reservation).held value.resource,
      held.generation = value.generation) :
    r.found (.reservation value) = none := by
  unfold found
  dsimp only
  rw [r.findEntity_toOption, Option.map_eq_none_iff, List.find?_eq_none]
  intro item mem same
  exact absent ⟨item, mem, beq_iff_eq.mp same⟩

theorem capability_inOrder_iff (orderly : r.Orderly) (ack : PublishAckMessage)
    (value : ResourceCapability) :
    InOrder r .capability ({ value with
        generation := (nextGeneration ack (r.found (.capability value))).1 } : ResourceCapability) ↔
      r.Tracks (.capability value) := by
  rw [inOrder_iff orderly, found_capability orderly]
  show Succeeds (r.latest .capability value.resource) _ ↔ _
  unfold Tracks
  dsimp only
  cases last : r.latest .capability value.resource with
  | none =>
      refine iff_of_true ?_ trivial
      show (1 : Generation) = 1
      rfl
  | some latest =>
      rw [Option.map_some]
      dsimp only
      by_cases top : EntityKind.generation .capability latest = maxUInt64
      · rw [continues_last_iff top, show latest.generation = maxUInt64 from top, nextGeneration_last]
        constructor
        · rintro ⟨-, digest⟩ _
          exact digest
        · exact fun tracks => ⟨rfl, tracks rfl⟩
      · rw [continues_next_iff top]
        exact iff_of_true (nextGeneration_some ack top) fun never => absurd never top

theorem Registry.Orderly.le_latest (orderly : r.Orderly) {id : Text} {held latest : kind.Carrier}
    (mem : held ∈ (r.tables kind).held id) (last : r.latest kind id = some latest) :
    kind.generation held ≤ kind.generation latest := by
  obtain ⟨older, list⟩ := List.getLast?_eq_some_iff.mp last
  have ascending := (orderly.tables kind).ascending id
  rw [list] at ascending mem
  rcases List.mem_append.mp mem with before | same
  · exact UInt64.le_of_lt ((List.pairwise_append.mp ascending).2.2 held before latest (by simp))
  · rw [List.mem_singleton.mp same]
    exact UInt64.le_refl _

theorem Registry.Orderly.latest_positive (orderly : r.Orderly) {id : Text} {latest : kind.Carrier}
    (last : r.latest kind id = some latest) : kind.generation latest ≠ 0 :=
  positive_of_valid ((orderly.tables kind).admitted id latest (List.mem_of_getLast? last)).valid

theorem reservation_next_iff (orderly : r.Orderly) (ack : PublishAckMessage)
    {value latest : Reservation} (last : r.latest .reservation value.resource = some latest)
    (room : latest.generation ≠ maxUInt64) :
    (nextGeneration ack (r.found (.reservation value))).1.toNat = latest.generation.toNat + 1 ↔
      value.generation = latest.generation := by
  by_cases held : ∃ held ∈ (r.tables .reservation).held value.resource,
      held.generation = value.generation
  · have below : value.generation ≤ latest.generation := by
      obtain ⟨item, mem, same⟩ := held
      rw [← same]
      exact orderly.le_latest mem last
    have roomy : value.generation ≠ maxUInt64 := by
      intro top
      rw [top] at below
      exact room (UInt64.le_antisymm (le_maxUInt64 _) below)
    rw [found_reservation_of_held held, nextGeneration_some ack roomy, Nat.add_right_cancel_iff,
      UInt64.toNat_inj]
  · -- The generation the sender wrote is not held: the server starts again at the first.
    rw [found_reservation_of_not_held held]
    have positive := orderly.latest_positive last
    refine iff_of_false (fun first => positive ?_) fun same => held ?_
    · apply UInt64.toNat_inj.mp
      have one : (1 : UInt64).toNat = latest.generation.toNat + 1 := first
      have unit : (1 : UInt64).toNat = 1 := rfl
      show latest.generation.toNat = 0
      omega
    · exact ⟨latest, List.mem_of_getLast? last, same.symm⟩

theorem reservation_last_iff (ack : PublishAckMessage) {value latest : Reservation}
    (last : r.latest .reservation value.resource = some latest)
    (top : latest.generation = maxUInt64) :
    (nextGeneration ack (r.found (.reservation value))).1 = maxUInt64 ↔
      value.generation = maxUInt64 ∨ value.generation = maxUInt64 - 1 ∧
        ∃ held ∈ (r.tables .reservation).held value.resource,
          held.generation = maxUInt64 - 1 := by
  have newest : latest ∈ (r.tables .reservation).held value.resource := List.mem_of_getLast? last
  by_cases held : ∃ held ∈ (r.tables .reservation).held value.resource,
      held.generation = value.generation
  · rw [found_reservation_of_held held]
    by_cases same : value.generation = maxUInt64
    · rw [same, nextGeneration_last]
      exact iff_of_true rfl (.inl rfl)
    · have next := nextGeneration_some ack same
      constructor
      · intro chosen
        rw [chosen] at next
        have before : value.generation = maxUInt64 - 1 := by
          apply UInt64.toNat_inj.mp
          have numbers : maxUInt64.toNat = (maxUInt64 - 1).toNat + 1 := rfl
          omega
        obtain ⟨item, mem, number⟩ := held
        exact .inr ⟨before, item, mem, number.trans before⟩
      · rintro (never | ⟨before, -⟩)
        · exact absurd never same
        · apply UInt64.toNat_inj.mp
          rw [next, before]
          rfl
  · rw [found_reservation_of_not_held held]
    refine iff_of_false (show (1 : Generation) ≠ maxUInt64 by decide) ?_
    rintro (same | ⟨same, item, mem, number⟩)
    · exact held ⟨latest, newest, top.trans same.symm⟩
    · exact held ⟨item, mem, number.trans same.symm⟩

theorem reservation_inOrder_iff (orderly : r.Orderly) (ack : PublishAckMessage)
    (value : Reservation) :
    InOrder r .reservation ({ value with
        generation := (nextGeneration ack (r.found (.reservation value))).1 } : Reservation) ↔
      r.Tracks (.reservation value) := by
  rw [inOrder_iff orderly]
  show Succeeds (r.latest .reservation value.resource) _ ↔ _
  unfold Tracks
  dsimp only
  cases last : r.latest .reservation value.resource with
  | none =>
      have absent : ¬∃ held ∈ (r.tables .reservation).held value.resource,
          held.generation = value.generation := by
        rintro ⟨held, mem, -⟩
        rw [List.getLast?_eq_none_iff.mp last] at mem
        cases mem
      rw [found_reservation_of_not_held absent]
      refine iff_of_true ?_ trivial
      show (1 : Generation) = 1
      rfl
  | some latest =>
      dsimp only
      by_cases top : EntityKind.generation .reservation latest = maxUInt64
      · have top : latest.generation = maxUInt64 := top
        rw [continues_last_iff ‹_›, if_pos top, ← reservation_last_iff ack last top]
        refine and_congr_right fun chosen => ?_
        have chosen : (nextGeneration ack (r.found (.reservation value))).1 = maxUInt64 := chosen
        rw [chosen]
        rfl
      · have room : latest.generation ≠ maxUInt64 := top
        rw [continues_next_iff top, if_neg room]
        exact reservation_next_iff orderly ack last room

theorem call_submission (r : Registry) (clock : UInt64) (s : Submission) :
    r.call clock s.call =
      (r.publishSubmission s >>= fun published => pure (.published published.1, published.2)) := by
  cases s <;> rfl

/-- In every registry of a run, the generation chosen for a record is in order exactly when what the
server looked up is the newest one. -/
theorem assigned_inOrder_iff {openings : Openings} {events : List Event} {d : FileSystem.Disk FileName}
    (run : Run openings events (.up r d)) {flags : UInt8} (flagged : flags &&& 0x01 ≠ 0)
    (s : Submission) :
    InOrder r (r.assign flags .start s).1.kind (r.assign flags .start s).1.value ↔ r.Tracks s := by
  obtain ⟨D, -, faithful⟩ := run.faithful
  have orderly : r.Orderly := Faithful.sane faithful |>.orderly
  have assigned : (r.assign flags .start s).1 =
      s.numbered (nextGeneration .start (r.found s)).1 := by
    unfold assign
    rw [if_pos flagged]
  rw [assigned]
  cases s with
  | capability value => exact capability_inOrder_iff orderly .start value
  | reservation value => exact reservation_inOrder_iff orderly .start value

/-- A reservation with the placeholder of the first generation. -/
def placeholder : Reservation where
  resource := text "r1"
  generation := 1
  classId := text "gold"
  classGeneration := 1
  reservedMinRateBps := 100
  reservedBurstBytes := 0
  epoch := 1
  publisher := text "p1"
  incarnation := 1
  expiresAtMs := 0
  digest := .zero
  provenance := .none

def reserving : List Action :=
  leased ++ [.call 0 (.publishReservation placeholder),
    .call 0 (.publishReservation { placeholder with generation := 2 })]

def choosesAgain : Bool :=
  match (Site.down FileSystem.Disk.empty).rehearse reserving with
  | some (_, .up r _) =>
      (r.latest .reservation (text "r1")).map Reservation.generation == some 2 &&
        (nextGeneration .start (r.found (.reservation placeholder))).1 == 2
  | _ => false

theorem exists_choosesAgain : ∃ events r d latest, Run .any events (.up r d) ∧
    r.latest .reservation (text "r1") = some latest ∧ Reservation.generation latest = 2 ∧
    (nextGeneration .start (r.found (.reservation placeholder))).1 = 2 := by
  have again : choosesAgain = true := by decide +kernel
  unfold choosesAgain at again
  split at again
  case h_2 => cases again
  next events r d rehearsed =>
    simp only [Bool.and_eq_true, beq_iff_eq, Option.map_eq_some_iff] at again
    obtain ⟨⟨latest, last, second⟩, chosen⟩ := again
    exact ⟨events, r, d, latest, run_of_rehearse rehearsed, last, second, chosen⟩

theorem generation_chosen_again : ¬∀ openings events r d (flags : UInt8) s,
    Run openings events (.up r d) → flags &&& 0x01 ≠ 0 →
    InOrder r (r.assign flags .start s).1.kind (r.assign flags .start s).1.value := by
  intro orderly
  obtain ⟨events, r, d, latest, run, last, second, chosen⟩ := exists_choosesAgain
  have inOrder := orderly _ events r d 1 (.reservation placeholder) run (by decide)
  have room : latest.generation ≠ maxUInt64 := by
    rw [second]
    decide
  have third : (nextGeneration .start (r.found (.reservation placeholder))).1.toNat =
      latest.generation.toNat + 1 := inOrder.next latest last room
  rw [chosen, second] at third
  exact absurd third (by decide)

/-- A publisher that writes the newest generation is given the one after it. -/
theorem assigned_inOrder_iff_second : ∃ events r d, Run .any events (.up r d) ∧
    InOrder r (r.assign 1 .start (.reservation { placeholder with generation := 2 })).1.kind
      (r.assign 1 .start (.reservation { placeholder with generation := 2 })).1.value := by
  obtain ⟨events, r, d, latest, run, last, second, -⟩ := exists_choosesAgain
  have flagged : (1 : UInt8) &&& 0x01 ≠ 0 := by decide
  refine ⟨events, r, d, run, (assigned_inOrder_iff run flagged _).mpr ?_⟩
  unfold Tracks
  dsimp only
  rw [show r.latest .reservation placeholder.resource = some latest from last]
  dsimp only
  have room : latest.generation ≠ maxUInt64 := by
    rw [second]
    decide
  rw [if_neg room, second]

end QoSFabric
