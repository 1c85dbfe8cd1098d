import QoSFabric.Proof.Registry.Durability
import QoSFabric.Proof.Registry.Progress

/-!
# Refused mutations

An operation whose intent cannot be staged leaves the members alone. One whose commit fails takes its
mutation back. A publication and a revocation are taken back exactly; a conflict marker, a lease and
a decision are removed, and what they had displaced is not put back.
-/

namespace QoSFabric

open FileSystem Interaction Registry

variable {r r' r₁ : Registry} {D : Durable} {clock : UInt64} {kind : EntityKind} {call : Call}

/-! ## The mutation of a call -/

/-- What an operation journals. -/
inductive Work where
  | publication (kind : EntityKind) (value : kind.Carrier) (payload : Bytes)
  | equivocation (marker : ConflictMarker) (payload : Bytes)
  | registration (lease : PublisherLease) (payload : Bytes)
  | revocation (publisher : Text) (removed : PublisherLease) (payload : Bytes)
  | decision (made : ContractDecision) (payload : Bytes)

namespace Work

def mutation : Work → Mutation
  | publication kind value payload => publicationMutation kind value payload
  | equivocation marker payload => conflictMutation marker payload
  | registration lease payload => registrationMutation lease payload
  | revocation publisher removed payload => revocationMutation publisher removed payload
  | decision made payload => decisionMutation made payload

/-- Whether applying a mutation makes members lose something they held: the oldest marker, the lease
of the publisher, or the decision of the contract at its generation. -/
def Displaces (r : Registry) : Work → Prop
  | publication .. | revocation .. => False
  | equivocation .. => maxStoredConflicts ≤ r.conflicts.length
  | registration lease _ => (r.leases.lookup lease.publisher).isSome
  | decision made _ =>
      (r.decisions.lookup (keyOf made.contract made.contractGeneration)).isSome

end Work

def Registry.clears (r : Registry) : Call → Result Unit
  | .publishCapability value => do
      validateCapability value
      r.authorize value.publisher value.incarnation value.epoch
        "publisher holds no live lease in the current fabric epoch"
        "publisher incarnation does not match the live lease"
        "capability asserts an epoch that is not current"
  | .publishReservation value => do
      validateReservation value
      r.authorize value.publisher value.incarnation value.epoch
        "reservation publisher holds no live lease in the current fabric epoch"
        "reservation publisher incarnation is not live"
        "reservation asserts an epoch that is not current"
  | _ => .ok ()

/-- What a call journals, and the members it does that on, when no window has to be compacted. -/
inductive Undertakes (clock : UInt64) (r : Registry) : Call → Work → Registry → Prop where
  | publication {call : Call} {kind : EntityKind} {value : kind.Carrier} {payload : Bytes}
      (asserts : r.asserts call = some ⟨kind, value⟩) (clears : r.clears call = .ok ())
      (valid : kind.validate value = .ok ()) (positive : kind.generation value ≠ 0)
      (room : r.windowFull kind (kind.entityId value) = false)
      (admitted : admission kind (r.tables kind) value (kind.contentDigest value) = .accepted)
      (recorded : (kind.encode (kind.asserted r.currentEpoch (kind.contentDigest value) .none value)
        (.empty : ByteWriter Limits.maxCanonicalRecordBytes)).data = some payload) :
      Undertakes clock r call (.publication kind
        (kind.asserted r.currentEpoch (kind.contentDigest value) .none value) payload) r
  | equivocation {call : Call} {kind : EntityKind} {value : kind.Carrier} {incumbent : Digest256}
      {payload : Bytes}
      (asserts : r.asserts call = some ⟨kind, value⟩) (clears : r.clears call = .ok ())
      (valid : kind.validate value = .ok ()) (positive : kind.generation value ≠ 0)
      (room : r.windowFull kind (kind.entityId value) = false)
      (admitted : admission kind (r.tables kind) value (kind.contentDigest value) =
        .equivocated incumbent)
      (recorded : (conflictRecord (r.equivocationMarker kind value incumbent
        (kind.contentDigest value))).data = some payload) :
      Undertakes clock r call (.equivocation (r.equivocationMarker kind value incumbent
        (kind.contentDigest value)) payload) r
  | registration {publisher : Text} {incarnation : PublisherIncarnation} {boot : BootId}
      {ttlMs : UInt64} {origin : Text} {lease : PublisherLease} {payload : Bytes}
      (granted : (r.tick clock).grant publisher incarnation boot ttlMs = .ok lease)
      (recorded : (leaseRecord lease origin).data = some payload) :
      Undertakes clock r (.registerPublisher publisher incarnation boot ttlMs origin)
        (.registration lease payload) (r.tick clock)
  | revocation {publisher : Text} {incarnation : PublisherIncarnation} {removed : PublisherLease}
      {payload : Bytes} (named : (!isValid publisher || incarnation == 0) = false)
      (held : ((r.tick clock).leases.lookup publisher).filter (·.incarnation == incarnation) =
        some removed)
      (recorded : (revocationRecord publisher incarnation).data = some payload) :
      Undertakes clock r (.revokePublisher publisher incarnation)
        (.revocation publisher removed payload) (r.tick clock)
  | decision {request : ContractRequest} {decision : ContractDecision} {payload : Bytes}
      (decided : (r.tick clock).decide request = .ok decision)
      (recorded : (encodeDecision decision
        (.empty : ByteWriter Limits.maxCanonicalRecordBytes)).data = some payload) :
      Undertakes clock r (.evaluate request) (.decision decision payload) (r.tick clock)

/-! ## The course of a call -/

def Courses (p : Files (Answer × Registry)) (r : Registry) (m : Mutation) : Prop :=
  ∃ finish : Result AttemptId → Registry → Answer × Registry,
    (∀ e r, (finish (.error e) r).2 = r) ∧
      p = r.journalled m >>= fun outcome => pure (finish outcome.1 outcome.2)

theorem call_of_clears {value : kind.Carrier} (asserts : r.asserts call = some ⟨kind, value⟩)
    (clears : r.clears call = .ok ()) :
    r.call clock call = r.publishEntity kind value >>= fun outcome =>
      pure (.published outcome.1, outcome.2) := by
  cases call with
  | publishClass => cases asserts; rfl
  | publishPolicy => cases asserts; rfl
  | publishPath => cases asserts; rfl
  | publishCapability value =>
      cases asserts
      have same : r.publishCapability value =
          r.publishEntity .capability (r.arriving .capability value value.publisher) := by
        unfold Registry.clears at clears
        dsimp only at clears
        unfold publishCapability
        cases valid : validateCapability value with
        | error e =>
            rw [valid] at clears
            cases clears
        | ok =>
            rw [valid] at clears
            dsimp only
            rw [show r.authorize value.publisher value.incarnation value.epoch _ _ _ = .ok ()
              from clears]
      show r.publishCapability value >>= _ = _
      rw [same]
  | publishReservation value =>
      cases asserts
      have same : r.publishReservation value =
          r.publishEntity .reservation (r.arriving .reservation value value.publisher) := by
        unfold Registry.clears at clears
        dsimp only at clears
        unfold publishReservation
        cases valid : validateReservation value with
        | error e =>
            rw [valid] at clears
            cases clears
        | ok =>
            rw [valid] at clears
            dsimp only
            rw [show r.authorize value.publisher value.incarnation value.epoch _ _ _ = .ok ()
              from clears]
      show r.publishReservation value >>= _ = _
      rw [same]
  | _ => cases asserts

theorem call_of_not_clears {value : (kind : EntityKind) × kind.Carrier} {e : Error}
    (asserts : r.asserts call = some value) (fails : r.clears call = .error e) :
    r.call clock call = pure (.published (.error e), r) := by
  cases call with
  | publishClass | publishPolicy | publishPath => cases fails
  | publishCapability value =>
      have refused : r.publishCapability value = pure (.error e, r) := by
        unfold Registry.clears at fails
        dsimp only at fails
        unfold publishCapability
        cases valid : validateCapability value with
        | error failure =>
            rw [valid] at fails
            cases fails
            rfl
        | ok =>
            rw [valid] at fails
            dsimp only
            rw [show r.authorize value.publisher value.incarnation value.epoch _ _ _ = .error e
              from fails]
      show r.publishCapability value >>= _ = _
      rw [refused]
      rfl
  | publishReservation value =>
      have refused : r.publishReservation value = pure (.error e, r) := by
        unfold Registry.clears at fails
        dsimp only at fails
        unfold publishReservation
        cases valid : validateReservation value with
        | error failure =>
            rw [valid] at fails
            cases fails
            rfl
        | ok =>
            rw [valid] at fails
            dsimp only
            rw [show r.authorize value.publisher value.incarnation value.epoch _ _ _ = .error e
              from fails]
      show r.publishReservation value >>= _ = _
      rw [refused]
      rfl
  | _ => cases asserts

theorem Undertakes.courses {work : Work} (undertakes : Undertakes clock r call work r₁) :
    Courses (r.call clock call) r₁ work.mutation := by
  cases undertakes with
  | @publication _ kind value payload asserts clears valid positive room admitted recorded =>
      refine ⟨fun result r => (.published (result.map fun attempt =>
        ⟨kind.generation value, attempt, kind.contentDigest value⟩), r), fun _ _ => rfl, ?_⟩
      have admits : r.publishEntity kind value = r.recordPublication kind
          (kind.asserted r.currentEpoch (kind.contentDigest value) .none value) := by
        unfold publishEntity publishAdmitted
        rw [← EntityKind.contentDigest, valid]
        dsimp only
        rw [if_neg positive, room, admitted]
        rfl
      rw [call_of_clears asserts clears, admits]
      unfold recordPublication
      rw [recorded]
      dsimp only
      rw [Program.bind_assoc]
      refine congrArg (r.journalled _ >>= ·) (funext fun outcome => ?_)
      rcases outcome with ⟨_ | attempt, r'⟩
      · rfl
      · dsimp only
        rw [EntityKind.generation_asserted, EntityKind.digest_asserted]
        rfl
  | @equivocation _ kind value incumbent payload asserts clears valid positive room admitted
      recorded =>
      refine ⟨fun result r => (.published (result.bind fun _ => .error equivocationError), r),
        fun _ _ => rfl, ?_⟩
      have equivocates : r.publishEntity kind value = r.recordConflict
          (r.equivocationMarker kind value incumbent (kind.contentDigest value)) := by
        unfold publishEntity publishAdmitted
        rw [← EntityKind.contentDigest, valid]
        dsimp only
        rw [if_neg positive, room, admitted]
        rfl
      rw [call_of_clears asserts clears, equivocates]
      unfold recordConflict
      rw [recorded]
      dsimp only
      rw [Program.bind_assoc]
      refine congrArg (r.journalled _ >>= ·) (funext fun outcome => ?_)
      rcases outcome with ⟨_ | attempt, r'⟩ <;> rfl
  | @registration publisher incarnation boot ttlMs origin lease payload granted recorded =>
      refine ⟨fun result r => (.granted (result.map fun attempt =>
        { lease with lease := attempt }), r), fun _ _ => rfl, ?_⟩
      show r.registerPublisher clock publisher incarnation boot ttlMs origin >>= _ = _
      unfold registerPublisher
      dsimp only
      rw [granted]
      dsimp only
      rw [recorded]
      dsimp only
      rw [Program.bind_assoc]
      refine congrArg ((r.tick clock).journalled _ >>= ·) (funext fun outcome => ?_)
      rcases outcome with ⟨_ | attempt, r'⟩ <;> rfl
  | @revocation publisher incarnation removed payload named held recorded =>
      refine ⟨fun result r => (.finished (result.map fun _ => ()), r), fun _ _ => rfl, ?_⟩
      show r.revokePublisher clock publisher incarnation >>= _ = _
      unfold revokePublisher
      dsimp only
      rw [named, held]
      dsimp only
      rw [recorded]
      dsimp only
      rw [if_neg Bool.false_ne_true, Program.bind_assoc]
      refine congrArg ((r.tick clock).journalled _ >>= ·) (funext fun outcome => ?_)
      rcases outcome with ⟨_ | attempt, r'⟩ <;> rfl
  | @decision request made payload decided recorded =>
      refine ⟨fun result r => (.decided (result.map fun _ => made),
        result.toOption.elim r fun _ => r.pruneDecisions), fun _ _ => rfl, ?_⟩
      show r.evaluate clock request >>= _ = _
      unfold Registry.evaluate recordDecision
      dsimp only
      rw [decided]
      dsimp only
      rw [recorded]
      dsimp only
      rw [Program.bind_assoc, Program.bind_assoc]
      refine congrArg ((r.tick clock).journalled _ >>= ·) (funext fun outcome => ?_)
      rcases outcome with ⟨_ | attempt, r'⟩ <;> rfl

/-! ## Refusals -/

section World

variable {State : Type} (files : State → (q : Request FileName) → Reply q × State)

/-- The intent cannot be staged, and not for want of room in the log: there is no compaction. -/
def StageFails (r : Registry) (m : Mutation) (d : State) : Prop :=
  ∃ e, ((r.store.stage m.type m.payload).run files d).1.1 = .error e ∧ e.code ≠ .capacityExhausted

/-- The intent is staged at once, and the commit fails. -/
def CommitFails (r : Registry) (m : Mutation) (d : State) : Prop :=
  ∃ attempt, ((r.store.stage m.type m.payload).run files d).1.1 = .ok attempt ∧
    ∃ e, ((((r.store.stage m.type m.payload).run files d).1.2.commit attempt m.digest).run files
      ((r.store.stage m.type m.payload).run files d).2).1.1 = .error e

variable {files} {d : State}

theorem StageFails.journalled {m : Mutation} (fails : StageFails files r m d) :
    ∃ e store, ((r.journalled m).run files d).1 = (.error e, r.withStore store) := by
  obtain ⟨e, failed, kept⟩ := fails
  unfold Registry.journalled stageWithRetry
  cases staged : (r.store.stage m.type m.payload).run files d with
  | mk outcome d' =>
      obtain ⟨result, store⟩ := outcome
      rw [staged] at failed
      obtain rfl : result = .error e := failed
      rw [Program.run_bind, Program.run_bind, staged]
      dsimp only
      rw [if_neg kept]
      exact ⟨e, store, rfl⟩

theorem CommitFails.staged {m : Mutation} (fails : CommitFails files r m d) :
    ¬StageFails files r m d := by
  rintro ⟨e, failed, -⟩
  obtain ⟨attempt, succeeded, -⟩ := fails
  rw [succeeded] at failed
  cases failed

theorem CommitFails.journalled {m : Mutation} (steady : m.Steady) (fails : CommitFails files r m d) :
    ∃ e attempt staged store, ((r.journalled m).run files d).1 =
      (.error e, m.rollback (r.withStore staged) ((m.apply attempt (r.withStore staged)).withStore
        store)) := by
  obtain ⟨attempt, succeeded, e, failed⟩ := fails
  unfold Registry.journalled stageWithRetry
  cases staged : (r.store.stage m.type m.payload).run files d with
  | mk outcome d' =>
      obtain ⟨result, staged'⟩ := outcome
      rw [staged] at succeeded failed
      obtain rfl : result = .ok attempt := succeeded
      rw [Program.run_bind, Program.run_bind, staged]
      have same : (m.apply attempt (r.withStore staged')).store = staged' := steady.apply _ _
      dsimp only [Program.pure_eq_done, Program.run_done]
      rw [Program.run_bind]
      have same' : (m.apply attempt { r with store := staged' }).store = staged' := same
      rw [same']
      cases committed : (staged'.commit attempt m.digest).run files d' with
      | mk outcome' d'' =>
          obtain ⟨result', store⟩ := outcome'
          rw [committed] at failed
          obtain rfl : result' = .error e := failed
          exact ⟨e, attempt, staged', store, rfl⟩

end World

/-- The members an operation may change are as they were. -/
structure Intact (r r' : Registry) : Prop where
  tables : ∀ kind id, (r'.tables kind).lookup id = (r.tables kind).lookup id
  watermark : ∀ publisher, r'.publisherWatermark.lookup publisher =
    r.publisherWatermark.lookup publisher
  leases : ∀ publisher, r'.leases.lookup publisher = r.leases.lookup publisher
  conflicts : r'.conflicts = r.conflicts
  decisions : ∀ key, r'.decisions.lookup key = r.decisions.lookup key
  decisionOrder : r'.decisionOrder = r.decisionOrder

theorem intact_tick (clock : UInt64) : Intact (r.tick clock) r' ↔ Intact r r' := by
  unfold Registry.tick
  split
  · exact Iff.rfl
  · exact ⟨fun h => ⟨h.1, h.2, h.3, h.4, h.5, h.6⟩, fun h => ⟨h.1, h.2, h.3, h.4, h.5, h.6⟩⟩

theorem Intact.withStore (store : Store) : Intact r (r.withStore store) :=
  ⟨fun _ _ => rfl, fun _ => rfl, fun _ => rfl, rfl, fun _ => rfl, rfl⟩

theorem Work.steady (work : Work) : work.mutation.Steady := by
  cases work with
  | publication kind value payload => exact steady_publicationMutation kind value payload
  | equivocation marker payload => exact steady_conflictMutation marker payload
  | registration lease payload => exact steady_registrationMutation lease payload
  | revocation publisher removed payload => exact steady_revocationMutation publisher removed payload
  | decision made payload => exact steady_decisionMutation made payload

theorem displaces_tick (work : Work) : work.Displaces (r.tick clock) ↔ work.Displaces r := by
  unfold Registry.tick
  split
  · exact Iff.rfl
  · cases work <;> exact Iff.rfl

/-! ## Taking back -/

def Work.undone (work : Work) (r : Registry) (attempt : AttemptId) (staged store : Store) : Registry :=
  work.mutation.rollback (r.withStore staged)
    ((work.mutation.apply attempt (r.withStore staged)).withStore store)

theorem intact_unpublished (orderly : r.Orderly) (value : kind.Carrier) (payload : Bytes)
    (attempt : AttemptId) (staged store : Store) :
    Intact r ((Work.publication kind value payload).undone r attempt staged store) := by
  have alike := alike_unpublished (r := r.withStore staged)
    (orderly.congr ⟨rfl, rfl, rfl, fun _ => rfl, fun _ _ => rfl⟩) value payload attempt store
  exact ⟨alike.tables, alike.watermark, fun _ => rfl, rfl, fun _ => rfl, rfl⟩

theorem intact_unconflicted_iff (marker : ConflictMarker) (payload : Bytes) (attempt : AttemptId)
    (staged store : Store) :
    Intact r ((Work.equivocation marker payload).undone r attempt staged store) ↔
      r.conflicts.length < maxStoredConflicts := by
  have conflicts : ((Work.equivocation marker payload).undone r attempt staged store).conflicts =
      (if (r.conflicts ++ [marker]).length > maxStoredConflicts then (r.conflicts ++ [marker]).tail
        else r.conflicts ++ [marker]).dropLast := rfl
  constructor
  · intro intact
    have same := intact.conflicts
    rw [conflicts] at same
    by_contra full
    have length := congrArg List.length same
    have some : 0 < maxStoredConflicts := by decide
    rw [if_pos (by simp; omega)] at length
    simp only [List.length_dropLast, List.length_tail, List.length_append, List.length_cons,
      List.length_nil] at length
    omega
  · intro room
    refine ⟨fun _ _ => rfl, fun _ => rfl, fun _ => rfl, ?_, fun _ => rfl, rfl⟩
    rw [conflicts, if_neg (by simp; omega), List.dropLast_concat]

theorem intact_unregistered_iff (lease : PublisherLease) (payload : Bytes) (attempt : AttemptId)
    (staged store : Store) :
    Intact r ((Work.registration lease payload).undone r attempt staged store) ↔
      r.leases.lookup lease.publisher = none := by
  have leases : ((Work.registration lease payload).undone r attempt staged store).leases =
      (r.leases.insert lease.publisher { lease with lease := attempt }).erase lease.publisher := rfl
  constructor
  · intro intact
    rw [← intact.leases, leases, AList.lookup_erase]
  · intro absent
    refine ⟨fun _ _ => rfl, ?_, ?_, rfl, fun _ => rfl, rfl⟩
    · exact watermark_unregistered (r.withStore staged) lease payload attempt store
    · intro publisher
      rw [leases]
      by_cases eq : publisher = lease.publisher
      · rw [eq, AList.lookup_erase, absent]
      · rw [AList.lookup_erase_ne eq, AList.lookup_insert_ne eq]

theorem intact_unrevoked {publisher : Text} {removed : PublisherLease}
    (held : r.leases.lookup publisher = some removed) (payload : Bytes) (attempt : AttemptId)
    (staged store : Store) :
    Intact r ((Work.revocation publisher removed payload).undone r attempt staged store) := by
  refine ⟨fun _ _ => rfl, fun _ => rfl, ?_, rfl, fun _ => rfl, rfl⟩
  intro other
  show ((r.leases.erase publisher).insert publisher removed).lookup other = _
  by_cases eq : other = publisher
  · rw [eq, AList.lookup_insert, held]
  · rw [AList.lookup_insert_ne eq, AList.lookup_erase_ne eq]

theorem intact_undecided_iff (made : ContractDecision) (payload : Bytes) (attempt : AttemptId)
    (staged store : Store) :
    Intact r ((Work.decision made payload).undone r attempt staged store) ↔
      r.decisions.lookup (keyOf made.contract made.contractGeneration) = none := by
  have decisions : ((Work.decision made payload).undone r attempt staged store).decisions =
      (r.decisions.insert (keyOf made.contract made.contractGeneration) made).erase
        (keyOf made.contract made.contractGeneration) := rfl
  constructor
  · intro intact
    rw [← intact.decisions, decisions, AList.lookup_erase]
  · intro absent
    refine ⟨fun _ _ => rfl, fun _ => rfl, fun _ => rfl, rfl, ?_, ?_⟩
    · intro key
      rw [decisions]
      by_cases eq : key = keyOf made.contract made.contractGeneration
      · rw [eq, AList.lookup_erase, absent]
      · rw [AList.lookup_erase_ne eq, AList.lookup_insert_ne eq]
    · show (if (r.decisions.lookup (keyOf made.contract made.contractGeneration)).isNone then
          (if (r.decisions.lookup (keyOf made.contract made.contractGeneration)).isNone then
            r.decisionOrder ++ [made.contract] else r.decisionOrder).dropLast
        else _) = r.decisionOrder
      rw [absent]
      exact List.dropLast_concat

theorem Undertakes.intact_iff {work : Work} (undertakes : Undertakes clock r call work r₁)
    (orderly : r.Orderly) (attempt : AttemptId) (staged store : Store) :
    Intact r (work.undone r₁ attempt staged store) ↔ ¬work.Displaces r := by
  cases undertakes with
  | publication =>
      exact iff_of_true (intact_unpublished orderly _ _ attempt staged store) not_false
  | equivocation =>
      rw [intact_unconflicted_iff]
      exact not_le.symm
  | registration =>
      rw [← intact_tick, ← displaces_tick, intact_unregistered_iff]
      unfold Work.Displaces
      rw [Bool.not_eq_true, Option.isSome_eq_false_iff, Option.isNone_iff_eq_none]
  | revocation named held recorded =>
      rw [← intact_tick clock]
      exact iff_of_true (intact_unrevoked (Option.filter_eq_some_iff.mp held).1 _ attempt staged store)
        not_false
  | decision =>
      rw [← intact_tick, ← displaces_tick, intact_undecided_iff]
      unfold Work.Displaces
      rw [Bool.not_eq_true, Option.isSome_eq_false_iff, Option.isNone_iff_eq_none]

theorem Undertakes.intact {work : Work} (undertakes : Undertakes clock r call work r₁)
    (store : Store) : Intact r (r₁.withStore store) := by
  have ticked : Intact r ((r.tick clock).withStore store) := by
    rw [← intact_tick clock]
    exact .withStore store
  cases undertakes with
  | publication => exact .withStore store
  | equivocation => exact .withStore store
  | registration => exact ticked
  | revocation => exact ticked
  | decision => exact ticked

/-- When the store refuses without a compaction, the members are as they were exactly when it refuses
the intent, or the mutation that its commit refuses has displaced nothing. -/
theorem refusal_intact_iff {events : List Event} {r r₁ : Registry} {work : Work} {State : Type}
    {files : State → (q : Request FileName) → Reply q × State} {d : State}
    {openings : Openings} {d₀ : Disk FileName} (turns : Turns openings events (.up r d₀) D)
    (undertakes : Undertakes clock r call work r₁)
    (refuses : StageFails files r₁ work.mutation d ∨ CommitFails files r₁ work.mutation d) :
    Intact r ((r.call clock call).run files d).1.2 ↔
      StageFails files r₁ work.mutation d ∨ ¬work.Displaces r := by
  have faithful : Faithful r D := turns.faithful.1
  obtain ⟨finish, kept, course⟩ := undertakes.courses
  have ends {e : Error} {r' : Registry}
      (journalled : ((r₁.journalled work.mutation).run files d).1 = (.error e, r')) :
      ((r.call clock call).run files d).1.2 = r' := by
    rw [course, Program.run_bind, journalled]
    exact kept e r'
  cases refuses with
  | inl fails =>
      obtain ⟨e, store, journalled⟩ := fails.journalled
      rw [ends journalled]
      exact iff_of_true (undertakes.intact store) (.inl fails)
  | inr fails =>
      obtain ⟨e, attempt, staged, store, journalled⟩ := fails.journalled work.steady
      rw [ends journalled, or_iff_right fails.staged]
      exact undertakes.intact_iff faithful.sane.orderly attempt staged store

def narrowing : List Action :=
  [.open { RegistryOptions.default with maxWalBytes := 450 } 0 (List.replicate 16 7),
    .call 0 (.registerPublisher (text "p1") 1 ⟨List.replicate 16 1, BootId.size_ones⟩ 10 [])]

/-- The next incarnation of the publisher. -/
def renewal : Call := .registerPublisher (text "p1") 2 ⟨List.replicate 16 1, BootId.size_ones⟩ 10 []

def losesLease : Bool :=
  match (Site.down Disk.empty).rehearse narrowing with
  | some (_, .up r d) =>
      (r.leases.lookup (text "p1")).isSome &&
        ((((r.call 0 renewal).run Disk.answer d).1.2.leases.lookup (text "p1")).isNone) &&
        match (r.tick 0).grant (text "p1") 2 ⟨List.replicate 16 1, BootId.size_ones⟩ 10 with
        | .error _ => false
        | .ok lease =>
            match (leaseRecord lease []).data with
            | none => false
            | some payload =>
                match execute ((r.tick 0).store.stage .registerPublisher payload) d with
                | ((.ok attempt, store), d') =>
                    match (execute (store.commit attempt (sha256 lease.publisher)) d').1.1 with
                    | .error _ => true
                    | .ok () => false
                | _ => false
  | _ => false

theorem exists_lost_lease : ∃ events r d lease payload,
    Run .any events (.up r d) ∧
    Undertakes 0 r renewal (.registration lease payload) (r.tick 0) ∧
    CommitFails Disk.answer (r.tick 0) (Work.registration lease payload).mutation d ∧
    (r.leases.lookup (text "p1")).isSome ∧
    ((r.call 0 renewal).run Disk.answer d).1.2.leases.lookup (text "p1") = none := by
  have loses : losesLease = true := by decide +kernel
  unfold losesLease at loses
  split at loses
  case h_2 => cases loses
  next events r d rehearsed =>
    rw [Bool.and_eq_true, Bool.and_eq_true, Option.isNone_iff_eq_none] at loses
    obtain ⟨⟨held, lost⟩, fails⟩ := loses
    split at fails
    · cases fails
    next lease granted =>
      split at fails
      · cases fails
      next payload recorded =>
        refine ⟨events, r, d, lease, payload, run_of_rehearse rehearsed,
          .registration granted recorded, ?_, held, lost⟩
        split at fails
        case h_2 => cases fails
        next attempt store d' staged =>
          have staged : ((r.tick 0).store.stage (Work.registration lease payload).mutation.type
            (Work.registration lease payload).mutation.payload).run Disk.answer d =
              ((.ok attempt, store), d') := staged
          refine ⟨attempt, congrArg (·.1.1) staged, ?_⟩
          rw [staged]
          split at fails
          next e failed => exact ⟨e, failed⟩
          · cases fails

/-- A publisher with a lease registers again, the commit does not fit into the log, and the publisher
is left without a lease. -/
theorem refusal_loses_lease : ¬∀ openings events r d clock call work r₁,
    Run openings events (.up r d) → Undertakes clock r call work r₁ →
    (StageFails Disk.answer r₁ work.mutation d ∨ CommitFails Disk.answer r₁ work.mutation d) →
    Intact r ((r.call clock call).run Disk.answer d).1.2 := by
  intro intact
  obtain ⟨events, r, d, lease, payload, run, undertakes, fails, held, lost⟩ := exists_lost_lease
  have same := (intact _ events r d 0 renewal _ _ run undertakes (.inr fails)).leases (text "p1")
  rw [lost] at same
  rw [← same] at held
  cases held

theorem refusal_intact_iff_renewal : ∃ events r d D lease payload,
    Turns .any events (.up r d) D ∧
    (Intact r ((r.call 0 renewal).run Disk.answer d).1.2 ↔
      StageFails Disk.answer (r.tick 0) (Work.registration lease payload).mutation d ∨
        ¬(Work.registration lease payload).Displaces r) := by
  obtain ⟨events, r, d, lease, payload, run, undertakes, fails, -, -⟩ := exists_lost_lease
  obtain ⟨D, -, turns⟩ := run.turns
  exact ⟨events, r, d, D, lease, payload, turns,
    refusal_intact_iff turns undertakes (Or.inr fails)⟩

end QoSFabric
