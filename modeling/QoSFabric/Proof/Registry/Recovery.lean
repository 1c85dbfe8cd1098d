import QoSFabric.Model.Registry
import QoSFabric.Proof.Codec.Yields

namespace QoSFabric

namespace Registry

open Decode

structure Loading (I : Registry → Prop) : Prop where
  epochs : ∀ r durable current, I r →
    I { r with durableEpoch := durable, currentEpoch := current }
  watermark : ∀ r id incarnation, I r →
    I { r with publisherWatermark := r.publisherWatermark.insert id incarnation }
  push : ∀ r kind value, I r → I (r.push kind value)
  conflicts : ∀ r marker, I r → I { r with conflicts := r.conflicts ++ [marker] }

structure Recovering (I : Registry → Prop) : Prop extends Loading I where
  marker : ∀ r marker, I r → I (r.holdConflict marker)
  decided : ∀ r decision, I r → I (r.holdDecision decision).pruneDecisions

variable {I : Registry → Prop}

theorem Loading.yields_watermark (loading : Loading I) {r : Registry} (h : I r) :
    Yields r.readWatermark I := by
  unfold readWatermark
  apply Yields.after
  intro id
  apply Yields.after
  intro incarnation
  apply Yields.after
  intro _
  apply Yields.ite
  · intro _
    exact .pure (loading.watermark r id incarnation h)
  · intro _
    exact .refuse

theorem Loading.yields_generations (loading : Loading I) (kind : EntityKind) {r : Registry}
    (h : I r) : Yields (r.readGenerations kind) I := by
  unfold readGenerations
  apply Yields.after
  intro count
  apply Yields.loop (I := fun _ => I) count _ h
  intro _ r _ h
  unfold readGeneration
  apply Yields.after
  intro value
  exact .pure (loading.push r kind value h)

theorem Loading.yields_tables (loading : Loading I) (kinds : List EntityKind) {r : Registry}
    (h : I r) : Yields (r.readTables kinds) I := by
  induction kinds generalizing r with
  | nil => exact .pure h
  | cons kind kinds ih =>
      unfold readTables
      apply Yields.bind (M := I)
      · unfold readGenerationTable
        apply Yields.after
        intro count
        exact .loop (I := fun _ => I) count
          (fun _ _ _ h => loading.yields_generations kind h) h
      · intro r' h'
        exact ih h'

theorem Loading.yields_state (loading : Loading I) {J : Nat → Registry → Prop}
    (start : ∀ r, I r → J 0 r)
    (decision : ∀ n r (value : ContractDecision), J n r → J (n + 1) { r with
      decisionOrder := r.decisionOrder ++ [value.contract]
      decisions := r.decisions.insert (keyOf value.contract value.contractGeneration) value })
    (skipped : ∀ n r, J n r → J (n + 1) r) {r : Registry} (h : I r) :
    Yields r.readState fun r' => ∃ n ≤ Limits.maxDecisionsRetained, J n r' := by
  unfold readState
  apply Yields.after
  intro tag
  apply Yields.after
  intro version
  apply Yields.after
  intro _
  apply Yields.ite
  · intro _
    exact .refuse
  intro _
  apply Yields.after
  intro durable
  apply Yields.after
  intro current
  apply Yields.after
  intro publishers
  apply Yields.bind (Yields.loop (I := fun _ => I) publishers
    (fun _ _ _ h => loading.yields_watermark h) (loading.epochs r durable current h))
  intro r h
  apply Yields.bind (loading.yields_tables EntityKind.all h)
  intro r h
  apply Yields.after
  intro conflicts
  apply Yields.bind (M := I)
  · apply Yields.loop (I := fun _ => I) conflicts _ h
    intro _ r _ h
    unfold readConflict
    apply Yields.after
    intro marker
    exact .pure (loading.conflicts r marker h)
  intro r h
  apply Yields.bind yields_count
  intro decisions small
  apply Yields.bind (M := J decisions)
  · apply Yields.loop decisions _ (start r h)
    intro n r _ h
    unfold readDecision
    apply Yields.after
    intro present
    apply Yields.ite
    · intro _
      exact .pure (skipped n r h)
    · intro _
      apply Yields.after
      intro value
      exact .pure (decision n r value.sealed h)
  intro r h
  apply Yields.after
  intro _
  apply Yields.after
  intro last
  apply Yields.ite
  · intro _
    exact .pure ⟨decisions, small, h⟩
  · intro _
    exact .refuse

theorem Recovering.applied (recovering : Recovering I) {r r' : Registry} {record : LogRecord}
    (h : I r) (applied : r.applyRecord record = .ok r') : I r' := by
  have entity {kind : EntityKind} (applied : r.applyEntity kind record.payload = .ok r') : I r' := by
    unfold applyEntity at applied
    obtain ⟨decoded, -, rfl⟩ := map_eq_ok.mp applied
    exact recovering.push r kind decoded.1 h
  unfold Registry.applyRecord at applied
  split at applied
  case h_1 =>
    split at applied
    · cases applied
    · cases applied
      exact recovering.epochs r _ _ h
  case h_2 => exact entity applied
  case h_3 => exact entity applied
  case h_4 => exact entity applied
  case h_5 => exact entity applied
  case h_6 => exact entity applied
  case h_7 =>
    obtain ⟨⟨⟨id, parsed⟩, reader⟩, -, rfl⟩ := map_eq_ok.mp applied
    dsimp only
    split
    · exact recovering.watermark r id parsed h
    · split
      · exact recovering.watermark r id parsed h
      · exact h
  case h_8 =>
    obtain ⟨decoded, -, rfl⟩ := map_eq_ok.mp applied
    exact recovering.marker r decoded.1 h
  case h_9 =>
    obtain ⟨decoded, -, rfl⟩ := map_eq_ok.mp applied
    exact recovering.decided r decoded.1.sealed h
  all_goals
    cases applied
    exact h

theorem Recovering.rebuilt (recovering : Recovering I) {records : List LogRecord}
    {r r' : Registry} (h : I r) (rebuilt : r.rebuildFromLog records = .ok r') : I r' := by
  induction records generalizing r with
  | nil =>
      cases rebuilt
      exact h
  | cons record records ih =>
      unfold rebuildFromLog at rebuilt
      rw [List.foldlM_cons] at rebuilt
      cases applied : r.applyRecord record with
      | error e =>
          rw [applied] at rebuilt
          cases rebuilt
      | ok next =>
          rw [applied] at rebuilt
          exact ih (recovering.applied h applied) rebuilt

theorem Recovering.loaded (recovering : Recovering I)
    (decision : ∀ r (value : ContractDecision), I r → I { r with
      decisionOrder := r.decisionOrder ++ [value.contract]
      decisions := r.decisions.insert (keyOf value.contract value.contractGeneration) value })
    {r r' : Registry} {raw : Bytes} (h : I r) (loaded : r.loadSnapshotState raw = .ok r') : I r' := by
  unfold loadSnapshotState at loaded
  split at loaded
  · cases loaded
    exact h
  · obtain ⟨decoded, read, rfl⟩ := map_eq_ok.mp loaded
    have yields := recovering.toLoading.yields_state (J := fun _ => I) (fun _ h => h)
      (fun _ r value h => decision r value h) (fun _ _ h => h) h
    obtain ⟨_, -, kept⟩ := yields.ok _ _ _ read
    exact kept

structure Unread (options : RegistryOptions) (store : Store) (clock : UInt64) (r : Registry) :
    Prop where
  options : r.options = options
  store : r.store = store
  leases : r.leases = ∅
  nowMs : r.nowMs = clock
  clockPinned : r.clockPinned = false

theorem recovering_unread (options : RegistryOptions) (store : Store) (clock : UInt64) :
    Recovering (Unread options store clock) where
  epochs _ _ _ h := ⟨h.options, h.store, h.leases, h.nowMs, h.clockPinned⟩
  watermark _ _ _ h := ⟨h.options, h.store, h.leases, h.nowMs, h.clockPinned⟩
  push _ _ _ h := ⟨h.options, h.store, h.leases, h.nowMs, h.clockPinned⟩
  conflicts _ _ h := ⟨h.options, h.store, h.leases, h.nowMs, h.clockPinned⟩
  marker _ _ h := ⟨h.options, h.store, h.leases, h.nowMs, h.clockPinned⟩
  decided _ _ h := ⟨h.options, h.store, h.leases, h.nowMs, h.clockPinned⟩

theorem unread_of_recovered {options : RegistryOptions} {store : Store} {clock : UInt64}
    {loaded r : Registry} {payload : Bytes} {history : List LogRecord}
    (load : (fresh options store clock).loadSnapshotState payload = .ok loaded)
    (rebuilt : loaded.rebuildFromLog history = .ok r) : Unread options store clock r := by
  have recovering := recovering_unread options store clock
  apply recovering.rebuilt _ rebuilt
  apply recovering.loaded _ _ load
  · intro r value h
    exact ⟨h.options, h.store, h.leases, h.nowMs, h.clockPinned⟩
  · exact ⟨rfl, rfl, rfl, rfl, rfl⟩

end Registry

end QoSFabric
