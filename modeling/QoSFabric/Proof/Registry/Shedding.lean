import QoSFabric.Proof.Registry.Refusal

namespace QoSFabric

open FileSystem Interaction Registry

variable {openings : Openings} {s : Store} {r r' : Registry} {d d' : Disk FileName} {D : Durable}
  {kind : EntityKind} {m : Mutation}

/-! ## Staging -/

namespace Store

def vets (s : Store) (type : RecordType) (payload : Bytes) : Result Unit :=
  if s.stagedCount ≥ Limits.maxJournalIntentsInFlight then
    .error (makeError .capacityExhausted "too many journalled intents are in flight")
  else
    match (writeIntent type (s.lastSequence + 1) payload :
        ByteWriter s.options.maxRecordBytes).data with
    | none => .error (makeError .tooLarge "journalled intent exceeds the configured budget")
    | some body =>
        (s.planFrame .mutationIntent flagHasAttempt (s.lastSequence + 1) body).map fun _ => ()

def emptied (s : Store) : Store := { s with walBytes := 0 }

def afresh (s : Store) (handle : Handle) : Store :=
  { s.compacted with walHandle := some handle, walBytes := 0 }

theorem Ready.afresh (ready : s.Ready) (handle : Handle) : (s.afresh handle).Ready :=
  ⟨ready.1, handle, rfl⟩

theorem execute_appendFrame_of_ready (ready : s.Ready) (type : RecordType) (flags : UInt8)
    (attempt : AttemptId) (payload : Bytes) (d : Disk FileName) :
    ∃ e, execute (s.appendFrame type flags attempt payload) d =
      match s.planFrame type flags attempt payload with
      | .error e => ((.error e, s), d)
      | .ok (next, _, frameBytes) =>
          ((.ok next, { s with walBytes := frameBytes, lastSequence := next }), e) := by
  obtain ⟨writable, handle, opened⟩ := ready
  unfold appendFrame
  rw [writable, opened]
  dsimp only
  cases s.planFrame type flags attempt payload with
  | error e => exact ⟨d, rfl⟩
  | ok planned => exact ⟨_, rfl⟩

theorem execute_stage_of_vets (ready : s.Ready) (type : RecordType) (payload : Bytes)
    (d : Disk FileName) :
    (∀ e, s.vets type payload = .error e →
      execute (s.stage type payload) d = ((.error e, s), d)) ∧
    (s.vets type payload = .ok () → ∃ attempt s' d',
      execute (s.stage type payload) d = ((.ok attempt, s'), d') ∧ s'.storeId = s.storeId) := by
  unfold vets stage
  split
  · refine ⟨?_, nofun⟩
    rintro e ⟨⟩
    rfl
  dsimp only
  cases (writeIntent type (s.lastSequence + 1) payload :
      ByteWriter s.options.maxRecordBytes).data with
  | none =>
      refine ⟨?_, nofun⟩
      rintro e ⟨⟩
      rfl
  | some body =>
      dsimp only
      obtain ⟨d', appended⟩ := execute_appendFrame_of_ready ready .mutationIntent flagHasAttempt
        (s.lastSequence + 1) body d
      rw [execute_bind, appended]
      cases s.planFrame .mutationIntent flagHasAttempt (s.lastSequence + 1) body with
      | error e =>
          refine ⟨?_, nofun⟩
          rintro e ⟨⟩
          rfl
      | ok planned => exact ⟨nofun, fun _ => ⟨_, _, _, rfl, rfl⟩⟩

theorem storeId_appendFrame {type : RecordType} {flags : UInt8} {attempt : AttemptId}
    {payload : Bytes} {outcome : Result Sequence × Store}
    (executed : execute (s.appendFrame type flags attempt payload) d = (outcome, d')) :
    outcome.2.storeId = s.storeId := by
  unfold appendFrame at executed
  split at executed
  · split at executed
    · cases executed
      rfl
    · rw [execute_bind, execute_write] at executed
      cases executed
      rfl
  · cases executed
    rfl

theorem storeId_commit {attempt : AttemptId} {appliedDigest : Digest256}
    {outcome : Result Unit × Store}
    (executed : execute (s.commit attempt appliedDigest) d = (outcome, d')) :
    outcome.2.storeId = s.storeId := by
  unfold commit at executed
  split at executed
  · cases executed
    rfl
  next body written =>
    rw [execute_bind] at executed
    cases appended : execute (s.appendFrame .mutationCommit flagHasAttempt attempt body) d with
    | mk appending e =>
        obtain ⟨result, t⟩ := appending
        have same : t.storeId = s.storeId := storeId_appendFrame appended
        rw [appended] at executed
        cases result <;> cases executed <;> exact same

end Store

/-! ## Journalling -/

namespace Registry

def exhausts (r : Registry) (m : Mutation) : Bool :=
  match r.store.vets m.type m.payload with
  | .ok () => false
  | .error e => e.code == .capacityExhausted

def stages (r : Registry) (m : Mutation) : Bool :=
  match r.store.vets m.type m.payload with
  | .ok () => true
  | .error e =>
      e.code == .capacityExhausted && r.prune.encodeSnapshotState.isOk &&
        (r.store.emptied.vets m.type m.payload).isOk

def trimmed (r : Registry) (m : Mutation) : Registry := if r.exhausts m then r.prune else r

theorem trimmed_of_exhausts (exhausts : r.exhausts m = true) : r.trimmed m = r.prune :=
  if_pos exhausts

theorem trimmed_of_not_exhausts (fits : r.exhausts m = false) : r.trimmed m = r :=
  if_neg (Bool.eq_false_iff.mp fits)

inductive Journalled (r : Registry) (m : Mutation) : Registry → Prop where
  | refused (store : Store) (id : store.storeId = r.store.storeId) (refuses : r.stages m = false) :
      Journalled r m ((r.trimmed m).withStore store)
  | undone (attempt : AttemptId) (staged store : Store) (id : store.storeId = r.store.storeId)
      (stages : r.stages m = true) :
      Journalled r m (m.rollback ((r.trimmed m).withStore staged)
        ((m.apply attempt ((r.trimmed m).withStore staged)).withStore store))
  | done (attempt : AttemptId) (staged store : Store) (id : store.storeId = r.store.storeId)
      (stages : r.stages m = true) :
      Journalled r m ((m.apply attempt ((r.trimmed m).withStore staged)).withStore store)

end Registry

theorem encodeSnapshotState_small {bytes : Bytes} (encoded : r.encodeSnapshotState = .ok bytes) :
    bytes.length ≤ Limits.maxSnapshotBytes := by
  unfold encodeSnapshotState at encoded
  split at encoded
  · cases encoded
  next data =>
    cases encoded
    exact r.writeState.fits _ data

theorem Drives.ends_compactLocked {result : Result Unit} (drives : Drives r.store d D)
    (ends : r.compactLocked.Ends Disk.world d (result, r') d') :
    ((∃ failure, result = .error failure) ∧ r.prune.encodeSnapshotState.isOk = false ∧
        r' = r.prune) ∨
      r.prune.encodeSnapshotState.isOk = true ∧ result = .ok () ∧
        ∃ handle, r' = r.prune.withStore (r.store.afresh handle) ∧
          ∃ D', Drives (r.store.afresh handle) d' D' := by
  unfold compactLocked at ends
  dsimp only at ends
  cases encoded : r.prune.encodeSnapshotState with
  | error e =>
      rw [encoded] at ends
      cases ends
      exact .inl ⟨⟨e, rfl⟩, rfl, rfl⟩
  | ok bytes =>
      rw [encoded] at ends
      obtain ⟨⟨written, store⟩, m, writes, rest⟩ := Program.ends_bind.mp ends
      cases rest
      obtain ⟨j, running, -⟩ := drives
      have succeeds : (r.store.writeSnapshot bytes).wp Disk.world (fun _ => True)
          (fun outcome e => outcome.1 = .ok () ∧ ∃ handle, outcome.2 = r.store.afresh handle ∧
            ∃ D', Drives (r.store.afresh handle) e D') d := by
        apply running.wp_writeSnapshot (fun _ _ => trivial) (fun _ _ => trivial)
        · intro large
          exact absurd (encodeSnapshotState_small encoded) (Nat.not_le.mpr large)
        · intro handle e running'
          exact ⟨rfl, handle, rfl, ⟨bytes, []⟩, [], running', rfl⟩
      obtain ⟨wrote, handle, fresh, drives'⟩ := Program.wp_ends succeeds writes
      obtain rfl : store = r.store.afresh handle := fresh
      exact .inr ⟨rfl, wrote, handle, rfl, drives'⟩

theorem Drives.ends_stageWithRetry {result : Result AttemptId}
    (drives : Drives r.store d D)
    (ends : (r.stageWithRetry m.type m.payload).Ends Disk.world d (result, r') d') :
    result.isOk = r.stages m ∧
      ∃ store, store.storeId = r.store.storeId ∧ r' = (r.trimmed m).withStore store := by
  unfold stageWithRetry at ends
  obtain ⟨⟨staged, store⟩, e, stage, rest⟩ := Program.ends_bind.mp ends
  have executed := Program.run_of_ends stage
  obtain ⟨fails, succeeds⟩ := Store.execute_stage_of_vets drives.ready m.type m.payload d
  unfold stages
  cases vets : r.store.vets m.type m.payload with
  | ok =>
      have fits : r.exhausts m = false := by
        unfold exhausts
        rw [vets]
      obtain ⟨attempt, s', d₁, ran, id⟩ := succeeds vets
      cases executed.symm.trans ran
      cases rest
      exact ⟨rfl, store, id, by rw [trimmed_of_not_exhausts fits]; rfl⟩
  | error failure =>
      have exhausts : r.exhausts m = (failure.code == .capacityExhausted) := by
        unfold Registry.exhausts
        rw [vets]
      cases executed.symm.trans (fails failure vets)
      dsimp only at rest ⊢
      split at rest
      next full =>
        rw [full, beq_self_eq_true] at exhausts
        rw [full, trimmed_of_exhausts exhausts]
        obtain ⟨⟨compacted, r₁⟩, e₁, compacts, rest⟩ := Program.ends_bind.mp rest
        rcases Drives.ends_compactLocked (r := r) drives compacts with
          ⟨⟨failure', rfl⟩, unencoded, rfl⟩ | ⟨fits, rfl, handle, rfl, -⟩
        · cases rest
          rw [unencoded]
          exact ⟨rfl, r.prune.store, congrArg Store.storeId r.store_prune, r.prune.withStore_self.symm⟩
        · obtain ⟨⟨staged, store⟩, e₂, stage, rest⟩ := Program.ends_bind.mp rest
          cases rest
          have executed := Program.run_of_ends stage
          obtain ⟨fails, succeeds⟩ := Store.execute_stage_of_vets (drives.ready.afresh handle) m.type
            m.payload e₁
          rw [fits]
          cases again : r.store.emptied.vets m.type m.payload with
          | ok =>
              obtain ⟨attempt, s', d₁, ran, id⟩ := succeeds again
              cases executed.symm.trans ran
              exact ⟨rfl, store, id, r.prune.withStore_withStore _ store⟩
          | error failure' =>
              cases executed.symm.trans (fails failure' again)
              exact ⟨rfl, r.store.afresh handle, rfl, r.prune.withStore_withStore _ _⟩
      next other =>
        cases rest
        have code : (failure.code == ErrorCode.capacityExhausted) = false := by simpa using other
        rw [code, trimmed_of_not_exhausts (exhausts.trans code)]
        exact ⟨rfl, r.store, rfl, rfl⟩

theorem Drives.ends_journalled {result : Result AttemptId} (steady : m.Steady)
    (drives : Drives r.store d D)
    (ends : (r.journalled m).Ends Disk.world d (result, r') d') : r.Journalled m r' := by
  unfold journalled at ends
  obtain ⟨⟨staged, r₁⟩, e, stage, rest⟩ := Program.ends_bind.mp ends
  obtain ⟨succeeds, store, id, rfl⟩ := drives.ends_stageWithRetry stage
  cases staged with
  | error failure =>
      cases rest
      exact .refused store id succeeds.symm
  | ok attempt =>
      obtain ⟨⟨committed, store'⟩, e', commit, rest⟩ := Program.ends_bind.mp rest
      have same : store'.storeId = (m.apply attempt ((r.trimmed m).withStore store)).store.storeId :=
        Store.storeId_commit (Program.run_of_ends commit)
      rw [steady.apply] at same
      have id := same.trans id
      cases committed with
      | error failure =>
          cases rest
          exact .undone attempt store store' id succeeds.symm
      | ok =>
          cases rest
          exact .done attempt store store' id succeeds.symm

/-! ## Everything but one identifier -/

theorem conflicts_withStore (r : Registry) (store : Store) :
    (r.withStore store).conflicts = r.conflicts := rfl

theorem options_withStore (r : Registry) (store : Store) :
    (r.withStore store).options = r.options := rfl

theorem options_prune (r : Registry) : r.prune.options = r.options := rfl

theorem held_withStore (r : Registry) (store : Store) (id : Text) :
    ((r.withStore store).tables kind).held id = (r.tables kind).held id := rfl

structure Registry.Sheds (r : Registry) (gone : Bool) (id : Text) (r' : Registry) : Prop where
  held : ∀ kind other, other ≠ id → (r'.tables kind).held other = (r.tables kind).held other
  conflicts : ∃ added, r'.conflicts = (if gone then r.conflicts.tail else r.conflicts) ++ added ∧
    ∀ marker ∈ added, marker.id = id
  currentEpoch : r'.currentEpoch = r.currentEpoch
  nowMs : r'.nowMs = r.nowMs
  clockPinned : r'.clockPinned = r.clockPinned
  storeId : r'.store.storeId = r.store.storeId

theorem Registry.Orderly.withStore (orderly : r.Orderly) (store : Store) :
    (r.withStore store).Orderly :=
  orderly.congr ⟨rfl, rfl, rfl, fun _ => rfl, fun _ _ => rfl⟩

theorem Registry.Recorded.withStore (recorded : r.Recorded) (store : Store) :
    (r.withStore store).Recorded := recorded.congr recorded.conflicts rfl

namespace Registry

variable {id : Text} {gone : Bool} {r₁ : Registry}

theorem Sheds.of_held (held : ∀ kind other, (r'.tables kind).held other = (r.tables kind).held other)
    (conflicts : r'.conflicts = r.conflicts) (currentEpoch : r'.currentEpoch = r.currentEpoch)
    (nowMs : r'.nowMs = r.nowMs) (clockPinned : r'.clockPinned = r.clockPinned)
    (storeId : r'.store.storeId = r.store.storeId) : r.Sheds false id r' :=
  ⟨fun kind other _ => held kind other, ⟨[], by rw [conflicts]; simp, nofun⟩, currentEpoch, nowMs,
    clockPinned, storeId⟩

theorem Sheds.withStore {store : Store} (storeId : store.storeId = r.store.storeId) :
    r.Sheds false id (r.withStore store) :=
  .of_held (fun _ _ => rfl) rfl rfl rfl rfl storeId

theorem Sheds.trans (first : r.Sheds false id r₁) (kept : r₁.conflicts = r.conflicts)
    (second : r₁.Sheds gone id r') : r.Sheds gone id r' where
  held kind other ne := (second.held kind other ne).trans (first.held kind other ne)
  conflicts := by
    obtain ⟨added, eq, against⟩ := second.conflicts
    rw [kept] at eq
    exact ⟨added, eq, against⟩
  currentEpoch := second.currentEpoch.trans first.currentEpoch
  nowMs := second.nowMs.trans first.nowMs
  clockPinned := second.clockPinned.trans first.clockPinned
  storeId := second.storeId.trans first.storeId

theorem Sheds.again (orderly : r.Orderly) (recorded : r.Recorded) {store : Store}
    (storeId : store.storeId = r.store.storeId) :
    r.prune.Sheds false id (r.prune.withStore store).prune := by
  refine .of_held ?_ ?_ rfl rfl rfl storeId
  · intro kind other
    have pruned := held_prune orderly kind other
    have again := held_prune (orderly.prune.withStore store) kind other
    rw [held_withStore, options_withStore, options_prune, pruned, List.length_drop,
      List.drop_drop] at again
    rw [again, pruned]
    congr 1
    omega
  · rw [(recorded.prune.withStore store).conflicts_prune, conflicts_withStore]

def displaces (r : Registry) (m : Mutation) : Bool :=
  m.type == .conflictRecord && Decidable.decide (maxStoredConflicts ≤ r.conflicts.length) && r.stages m

def draft (r : Registry) (kind : EntityKind) (value : kind.Carrier) : Option Mutation :=
  match admission kind (r.tables kind) value (kind.contentDigest value) with
  | .equivocated incumbent =>
      let marker := r.equivocationMarker kind value incumbent (kind.contentDigest value)
      (conflictRecord marker).data.map (conflictMutation marker)
  | .accepted =>
      let value := kind.asserted r.currentEpoch (kind.contentDigest value) .none value
      (kind.encode value (.empty : ByteWriter Limits.maxCanonicalRecordBytes)).data.map
        (publicationMutation kind value)
  | .refused _ | .held _ => none

variable {value : kind.Carrier}

inductive Drafted (kind : EntityKind) (id : Text) : Mutation → Prop where
  | equivocation (marker : ConflictMarker) (payload : Bytes) (against : marker.id = id) :
      Drafted kind id (conflictMutation marker payload)
  | publication (value : kind.Carrier) (payload : Bytes) (names : kind.entityId value = id) :
      Drafted kind id (publicationMutation kind value payload)

theorem drafted_of_draft (drafts : r.draft kind value = some m) :
    Drafted kind (kind.entityId value) m := by
  unfold draft at drafts
  split at drafts
  · obtain ⟨payload, -, rfl⟩ := Option.map_eq_some_iff.mp drafts
    exact .equivocation _ payload rfl
  · obtain ⟨payload, -, rfl⟩ := Option.map_eq_some_iff.mp drafts
    exact .publication _ payload (entityId_asserted ..)
  · cases drafts
  · cases drafts

theorem Drafted.steady (drafted : Drafted kind id m) : m.Steady := by
  cases drafted with
  | equivocation marker payload => exact steady_conflictMutation marker payload
  | publication value payload => exact steady_publicationMutation kind value payload

theorem Orderly.trimmed (orderly : r.Orderly) (m : Mutation) : (r.trimmed m).Orderly := by
  unfold Registry.trimmed
  split
  · exact orderly.prune
  · exact orderly

theorem Recorded.conflicts_trimmed (recorded : r.Recorded) (m : Mutation) :
    (r.trimmed m).conflicts = r.conflicts := by
  unfold Registry.trimmed
  split
  · exact recorded.conflicts_prune
  · rfl

theorem storeId_trimmed (r : Registry) (m : Mutation) :
    (r.trimmed m).store.storeId = r.store.storeId := by
  unfold trimmed
  split <;> rfl

theorem publication_type (value : kind.Carrier) (payload : Bytes) :
    ((publicationMutation kind value payload).type == RecordType.conflictRecord) = false := by
  cases kind <;> rfl

theorem held_pushed {other : Text} (ne : other ≠ kind.entityId value) (kind' : EntityKind) :
    ((r.push kind value).tables kind').held other = (r.tables kind').held other := by
  by_cases same : kind' = kind
  · subst same
    rw [held_push, if_neg ne]
  · rw [tables_push_ne value same]

theorem sheds_published (names : kind.entityId value = id) (payload : Bytes) (attempt : AttemptId)
    {staged store : Store} (storeId : store.storeId = r.store.storeId) :
    r.Sheds false id (((publicationMutation kind value payload).apply attempt
      (r.withStore staged)).withStore store) where
  held kind' other ne := held_pushed (r := r.withStore staged)
    (by rwa [entityId_withProvenance, names]) kind'
  conflicts := ⟨[], (List.append_nil _).symm, nofun⟩
  currentEpoch := rfl
  nowMs := rfl
  clockPinned := rfl
  storeId := storeId

theorem sheds_unpublished (orderly : r.Orderly) (payload : Bytes) (attempt : AttemptId)
    {staged store : Store} (storeId : store.storeId = r.store.storeId) :
    r.Sheds false id ((publicationMutation kind value payload).rollback (r.withStore staged)
      (((publicationMutation kind value payload).apply attempt (r.withStore staged)).withStore
        store)) := by
  have alike := alike_unpublished (orderly.withStore staged) value payload attempt store
  exact .of_held (fun kind other => alike.held kind other) rfl rfl rfl rfl storeId

theorem sheds_conflicted (within : r.conflicts.length ≤ maxStoredConflicts) (marker : ConflictMarker)
    (payload : Bytes) (attempt : AttemptId) {staged store : Store}
    (storeId : store.storeId = r.store.storeId) :
    r.Sheds (Decidable.decide (maxStoredConflicts ≤ r.conflicts.length)) marker.id
      (((conflictMutation marker payload).apply attempt (r.withStore staged)).withStore store) where
  held _ _ _ := rfl
  conflicts := by
    refine ⟨[marker], ?_, by simp⟩
    show (if (r.conflicts ++ [marker]).length > maxStoredConflicts then
      (r.conflicts ++ [marker]).tail else r.conflicts ++ [marker]) = _
    rw [List.length_append, List.length_singleton]
    by_cases full : maxStoredConflicts ≤ r.conflicts.length
    · have filled : r.conflicts ≠ [] := by
        rintro empty
        rw [empty] at full
        exact absurd full (by decide)
      rw [if_pos (by omega), if_pos (by simpa using full), List.tail_append_of_ne_nil filled]
    · rw [if_neg (by omega), if_neg (by simpa using full)]
  currentEpoch := rfl
  nowMs := rfl
  clockPinned := rfl
  storeId := storeId

theorem sheds_unconflicted (within : r.conflicts.length ≤ maxStoredConflicts)
    (marker : ConflictMarker) (payload : Bytes) (attempt : AttemptId) {staged store : Store}
    (storeId : store.storeId = r.store.storeId) :
    r.Sheds (Decidable.decide (maxStoredConflicts ≤ r.conflicts.length)) marker.id
      ((conflictMutation marker payload).rollback (r.withStore staged)
        (((conflictMutation marker payload).apply attempt (r.withStore staged)).withStore store)) where
  held _ _ _ := rfl
  conflicts := by
    refine ⟨[], ?_, nofun⟩
    show (if (r.conflicts ++ [marker]).length > maxStoredConflicts then
      (r.conflicts ++ [marker]).tail else r.conflicts ++ [marker]).dropLast = _
    rw [List.length_append, List.length_singleton, List.append_nil]
    by_cases full : maxStoredConflicts ≤ r.conflicts.length
    · have filled : r.conflicts ≠ [] := by
        rintro empty
        rw [empty] at full
        exact absurd full (by decide)
      rw [if_pos (by omega), if_pos (by simpa using full), List.tail_append_of_ne_nil filled,
        List.dropLast_concat]
    · rw [if_neg (by omega), if_neg (by simpa using full), List.dropLast_concat]
  currentEpoch := rfl
  nowMs := rfl
  clockPinned := rfl
  storeId := storeId

theorem Journalled.sheds (orderly : r.Orderly) (recorded : r.Recorded)
    (drafted : Drafted kind id m) (journalled : r.Journalled m r') :
    (r.trimmed m).Sheds (r.displaces m) id r' := by
  have store {store : Store} (storeId : store.storeId = r.store.storeId) :
      store.storeId = (r.trimmed m).store.storeId := storeId.trans (r.storeId_trimmed m).symm
  have conflicts := recorded.conflicts_trimmed m
  have within : (r.trimmed m).conflicts.length ≤ maxStoredConflicts := conflicts ▸ recorded.conflicts
  unfold displaces
  rw [← conflicts]
  cases journalled with
  | refused _ storeId refuses =>
      rw [refuses, Bool.and_false]
      exact .withStore (store storeId)
  | undone attempt staged _ storeId stages =>
      rw [stages, Bool.and_true]
      cases drafted with
      | equivocation marker payload against =>
          exact against ▸ sheds_unconflicted within marker payload attempt (store storeId)
      | publication value payload names =>
          rw [publication_type]
          exact sheds_unpublished (orderly.trimmed _) payload attempt (store storeId)
  | done attempt staged _ storeId stages =>
      rw [stages, Bool.and_true]
      cases drafted with
      | equivocation marker payload against =>
          exact against ▸ sheds_conflicted within marker payload attempt (store storeId)
      | publication value payload names =>
          rw [publication_type]
          exact sheds_published names payload attempt (store storeId)

theorem ends_publishAdmitted_of_draft {result : Result PublicationResult}
    (ends : (r.publishAdmitted kind value).Ends Disk.world d (result, r') d') :
    (r.draft kind value = none ∧ r' = r) ∨ ∃ m outcome, r.draft kind value = some m ∧
      (r.journalled m).Ends Disk.world d (outcome, r') d' := by
  unfold publishAdmitted at ends
  unfold draft
  rw [← EntityKind.contentDigest] at ends
  dsimp only at ends
  cases admitted : admission kind (r.tables kind) value (kind.contentDigest value) with
  | refused e =>
      rw [admitted] at ends
      cases ends
      exact .inl ⟨rfl, rfl⟩
  | held latest =>
      rw [admitted] at ends
      cases ends
      exact .inl ⟨rfl, rfl⟩
  | equivocated incumbent =>
      rw [admitted] at ends
      dsimp only at ends ⊢
      unfold recordConflict at ends
      split at ends
      next recorded =>
        cases ends
        rw [recorded]
        exact .inl ⟨rfl, rfl⟩
      next payload recorded =>
        obtain ⟨⟨outcome, r₁⟩, e, journals, rest⟩ := Program.ends_bind.mp ends
        rw [recorded]
        cases outcome <;> cases rest <;> exact .inr ⟨_, _, rfl, journals⟩
  | accepted =>
      rw [admitted] at ends
      dsimp only at ends ⊢
      unfold recordPublication at ends
      split at ends
      next recorded =>
        cases ends
        rw [recorded]
        exact .inl ⟨rfl, rfl⟩
      next payload recorded =>
        obtain ⟨⟨outcome, r₁⟩, e, journals, rest⟩ := Program.ends_bind.mp ends
        rw [recorded]
        cases outcome <;> cases rest <;> exact .inr ⟨_, _, rfl, journals⟩

def draftExhausts (r : Registry) (kind : EntityKind) (value : kind.Carrier) : Bool :=
  (r.draft kind value).any r.exhausts

def draftDisplaces (r : Registry) (kind : EntityKind) (value : kind.Carrier) : Bool :=
  (r.draft kind value).any r.displaces

def enters (kind : EntityKind) (value : kind.Carrier) : Bool :=
  (kind.validate value).isOk && kind.generation value != 0

def afforded (r : Registry) (kind : EntityKind) (id : Text) : Option Registry :=
  if r.windowFull kind id then
    if r.prune.encodeSnapshotState.isOk then some (r.prune.withStore r.store.emptied) else none
  else some r

/-- Whether a publication prunes the tables. -/
def trims (r : Registry) (call : Call) : Bool :=
  match r.asserts call with
  | none => false
  | some ⟨kind, value⟩ =>
      (r.clears call).isOk && enters kind value &&
        (r.windowFull kind (kind.entityId value) || r.draftExhausts kind value)

/-- Whether a publication gives up the oldest marker. -/
def evicts (r : Registry) (call : Call) : Bool :=
  match r.asserts call with
  | none => false
  | some ⟨kind, value⟩ =>
      (r.clears call).isOk && enters kind value &&
        (r.afforded kind (kind.entityId value)).any fun r => r.draftDisplaces kind value

theorem draftDisplaces_afresh (r : Registry) (s : Store) (handle : Handle) (value : kind.Carrier) :
    (r.withStore (s.afresh handle)).draftDisplaces kind value =
      (r.withStore s.emptied).draftDisplaces kind value := rfl

end Registry

section Publication

variable {value : kind.Carrier} {result : Result PublicationResult}

theorem Drives.sheds_publishAdmitted (drives : Drives r.store d D) (orderly : r.Orderly)
    (recorded : r.Recorded)
    (ends : (r.publishAdmitted kind value).Ends Disk.world d (result, r') d') :
    (if r.draftExhausts kind value then r.prune else r).Sheds (r.draftDisplaces kind value)
      (kind.entityId value) r' := by
  unfold draftExhausts draftDisplaces
  rcases ends_publishAdmitted_of_draft ends with ⟨none, rfl⟩ | ⟨m, outcome, drafts, journals⟩
  · rw [none]
    exact .of_held (fun _ _ => rfl) rfl rfl rfl rfl rfl
  · have drafted := drafted_of_draft drafts
    have journalled := drives.ends_journalled drafted.steady journals
    rw [drafts]
    exact journalled.sheds orderly recorded drafted

theorem Drives.sheds_publishEntity (drives : Drives r.store d D) (orderly : r.Orderly)
    (recorded : r.Recorded)
    (ends : (r.publishEntity kind value).Ends Disk.world d (result, r') d') :
    (if enters kind value && (r.windowFull kind (kind.entityId value) || r.draftExhausts kind value)
      then r.prune else r).Sheds (enters kind value &&
        (r.afforded kind (kind.entityId value)).any fun r => r.draftDisplaces kind value)
      (kind.entityId value) r' := by
  have still : r.Sheds false (kind.entityId value) r := .of_held (fun _ _ => rfl) rfl rfl rfl rfl rfl
  unfold publishEntity at ends
  unfold enters afforded
  cases valid : kind.validate value with
  | error e =>
      rw [valid] at ends
      cases ends
      exact still
  | ok =>
      rw [valid] at ends
      dsimp only at ends
      split at ends
      next zero =>
        cases ends
        rw [zero]
        exact still
      next positive =>
        have lets : (kind.generation value != 0) = true := by simpa using positive
        rw [lets]
        split at ends
        next full =>
          rw [full]
          obtain ⟨⟨compacted, r₁⟩, e, compacts, rest⟩ := Program.ends_bind.mp ends
          rcases drives.ends_compactLocked compacts with
            ⟨⟨failure, rfl⟩, unencoded, rfl⟩ | ⟨fits, rfl, handle, rfl, D', drives'⟩
          · cases rest
            rw [unencoded]
            exact .of_held (fun _ _ => rfl) rfl rfl rfl rfl rfl
          · rw [fits]
            have sheds := Drives.sheds_publishAdmitted (r := r.prune.withStore (r.store.afresh handle))
              drives' (orderly.prune.withStore _) (recorded.prune.withStore _) rest
            rw [draftDisplaces_afresh] at sheds
            have id : (r.store.afresh handle).storeId = r.store.storeId := rfl
            split at sheds
            · exact (Sheds.again orderly recorded id).trans
                (by rw [(recorded.prune.withStore _).conflicts_prune, conflicts_withStore]) sheds
            · exact (Sheds.withStore (r := r.prune) id).trans (conflicts_withStore ..) sheds
        next room =>
          rw [Bool.not_eq_true] at room
          rw [room]
          exact drives.sheds_publishAdmitted orderly recorded ends

theorem Drives.sheds_call {call : Call} {clock : UInt64} {answer : Answer}
    (drives : Drives r.store d D) (orderly : r.Orderly) (recorded : r.Recorded)
    (asserts : r.asserts call = some ⟨kind, value⟩)
    (ends : (r.call clock call).Ends Disk.world d (answer, r') d') :
    (if r.trims call then r.prune else r).Sheds (r.evicts call) (kind.entityId value) r' := by
  unfold trims evicts
  rw [asserts]
  dsimp only
  cases clears : r.clears call with
  | error e =>
      rw [call_of_not_clears asserts clears] at ends
      cases ends
      exact .of_held (fun _ _ => rfl) rfl rfl rfl rfl rfl
  | ok =>
      rw [call_of_clears asserts clears] at ends
      obtain ⟨⟨result, r₁⟩, e, publishes, rest⟩ := Program.ends_bind.mp ends
      cases rest
      exact drives.sheds_publishEntity orderly recorded publishes

end Publication

end QoSFabric
