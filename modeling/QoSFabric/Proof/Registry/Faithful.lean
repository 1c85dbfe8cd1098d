import QoSFabric.Proof.Registry.Recorded

namespace QoSFabric

open Registry

variable {kind : EntityKind}

def EntityKind.lasting (kind : EntityKind) (value : kind.Carrier) : kind.Carrier :=
  kind.withProvenance .none (kind.readBack value)

@[simp] theorem lasting_readBack (value : kind.Carrier) :
    kind.lasting (kind.readBack value) = kind.lasting value := by
  unfold EntityKind.lasting
  rw [readBack_readBack]

@[simp] theorem lasting_withProvenance (provenance : Provenance) (value : kind.Carrier) :
    kind.lasting (kind.withProvenance provenance value) = kind.lasting value := by
  cases kind <;> rfl

@[simp] theorem generation_lasting (value : kind.Carrier) :
    kind.generation (kind.lasting value) = kind.generation value := by
  cases kind <;> rfl

@[simp] theorem entityId_lasting (value : kind.Carrier) :
    kind.entityId (kind.lasting value) = kind.entityId value := by
  cases kind <;> rfl

@[simp] theorem entityId_withProvenance (provenance : Provenance) (value : kind.Carrier) :
    kind.entityId (kind.withProvenance provenance value) = kind.entityId value := by
  cases kind <;> rfl

@[simp] theorem generation_withProvenance (provenance : Provenance) (value : kind.Carrier) :
    kind.generation (kind.withProvenance provenance value) = kind.generation value := by
  cases kind <;> rfl

@[simp] theorem epoch_withProvenance (provenance : Provenance) (value : kind.Carrier) :
    kind.epoch (kind.withProvenance provenance value) = kind.epoch value := by
  cases kind <;> rfl

@[simp] theorem entityId_asserted (epoch : FabricEpoch) (digest : Digest256)
    (provenance : Provenance) (value : kind.Carrier) :
    kind.entityId (kind.asserted epoch digest provenance value) = kind.entityId value := by
  cases kind <;> rfl

@[simp] theorem epoch_asserted (epoch : FabricEpoch) (digest : Digest256)
    (provenance : Provenance) (value : kind.Carrier) :
    kind.epoch (kind.asserted epoch digest provenance value) = epoch := by
  cases kind <;> rfl

structure Recalls (r x : Registry) : Prop where
  durableEpoch : x.durableEpoch = r.durableEpoch
  watermark : ∀ id, x.publisherWatermark.lookup id = r.publisherWatermark.lookup id
  suffix : ∀ kind id, ((r.tables kind).held id).map kind.lasting <:+
    ((x.tables kind).held id).map kind.lasting
  filled : ∀ kind id, (r.tables kind).held id = [] → (x.tables kind).held id = []
  conflicts : r.conflicts <:+ x.conflicts

namespace Recalls

variable {r r' x x' : Registry}

theorem left (recalls : Recalls r x) (alike : r.Alike r') (conflicts : r'.conflicts <:+ r.conflicts) :
    Recalls r' x where
  durableEpoch := recalls.durableEpoch.trans alike.durableEpoch.symm
  watermark id := (recalls.watermark id).trans (alike.watermark id).symm
  suffix kind id := by
    rw [alike.held]
    exact recalls.suffix kind id
  filled kind id empty := by
    rw [alike.held] at empty
    exact recalls.filled kind id empty
  conflicts := conflicts.trans recalls.conflicts

theorem right (recalls : Recalls r x) (alike : x.Alike x') (conflicts : x'.conflicts = x.conflicts) :
    Recalls r x' where
  durableEpoch := alike.durableEpoch.trans recalls.durableEpoch
  watermark id := (alike.watermark id).trans (recalls.watermark id)
  suffix kind id := by
    rw [alike.held]
    exact recalls.suffix kind id
  filled kind id empty := by
    rw [alike.held]
    exact recalls.filled kind id empty
  conflicts := by
    rw [conflicts]
    exact recalls.conflicts

theorem prune (recalls : Recalls r x) (orderly : r.Orderly) (recorded : r.Recorded) :
    Recalls r.prune x where
  durableEpoch := recalls.durableEpoch
  watermark := recalls.watermark
  suffix kind id := by
    rw [held_prune orderly, List.map_drop]
    exact (List.drop_suffix _ _).trans (recalls.suffix kind id)
  filled kind id empty := by
    rw [held_prune orderly, List.drop_eq_nil_iff] at empty
    have range := orderly.range
    apply recalls.filled kind id
    rw [List.eq_nil_iff_length_eq_zero]
    omega
  conflicts := by
    rw [recorded.conflicts_prune]
    exact recalls.conflicts

theorem loaded (orderly : r.Orderly) (options : RegistryOptions) (store : Store) (clock : UInt64) :
    Recalls r (r.load (.fresh options store clock)) where
  durableEpoch := by rw [load_eq]
  watermark := by
    rw [load_eq]
    exact Table.lookup_insertAll_keys fun id mem => mem_sortTexts.mpr (AList.mem_keys.mp mem)
  suffix kind id := by
    rw [held_load orderly, List.map_map]
    have same : kind.lasting ∘ kind.readBack = kind.lasting := funext lasting_readBack
    rw [same]
  filled kind id empty := by
    rw [held_load orderly, empty]
    rfl
  conflicts := by
    rw [load_eq]
    exact List.suffix_rfl

theorem push (recalls : Recalls r x) {value other : kind.Carrier}
    (id : kind.entityId other = kind.entityId value) (same : kind.lasting other = kind.lasting value) :
    Recalls (r.push kind value) (x.push kind other) where
  durableEpoch := recalls.durableEpoch
  watermark := recalls.watermark
  suffix kind' id' := by
    by_cases eq : kind' = kind
    · subst eq
      rw [held_push, held_push, id]
      split
      · rw [List.map_append, List.map_append, List.map_singleton, List.map_singleton, same]
        obtain ⟨front, eq⟩ := recalls.suffix kind' id'
        exact ⟨front, by rw [← eq, List.append_assoc]⟩
      · exact recalls.suffix kind' id'
    · rw [tables_push_ne value eq, tables_push_ne other eq]
      exact recalls.suffix kind' id'
  filled kind' id' empty := by
    by_cases eq : kind' = kind
    · subst eq
      rw [held_push] at empty ⊢
      rw [id]
      split at empty
      · simp at empty
      · next ne =>
          rw [if_neg ne]
          exact recalls.filled kind' id' empty
    · rw [tables_push_ne value eq] at empty
      rw [tables_push_ne other eq]
      exact recalls.filled kind' id' empty
  conflicts := recalls.conflicts

theorem suffix_hold {a b : List ConflictMarker} (suffix : a <:+ b)
    (within : b.length ≤ maxStoredConflicts) (marker : ConflictMarker) :
    (if (a ++ [marker]).length > maxStoredConflicts then (a ++ [marker]).tail else a ++ [marker]) <:+
      if (b ++ [marker]).length > maxStoredConflicts then (b ++ [marker]).tail else b ++ [marker] := by
  obtain ⟨front, rfl⟩ := suffix
  simp only [List.length_append, List.length_singleton] at within ⊢
  cases front with
  | nil =>
      rw [List.nil_append, List.length_nil, Nat.zero_add]
  | cons first front =>
      rw [List.length_cons] at within ⊢
      rw [if_neg (by omega)]
      split
      · exact ⟨front, by simp⟩
      · exact ⟨first :: front, by simp⟩

theorem holdConflict (recalls : Recalls r x) (recorded : x.Recorded) (marker : ConflictMarker) :
    Recalls (r.holdConflict marker) (x.holdConflict marker) where
  durableEpoch := recalls.durableEpoch
  watermark := recalls.watermark
  suffix := recalls.suffix
  filled := recalls.filled
  conflicts := suffix_hold recalls.conflicts recorded.conflicts marker

theorem size_eq (recalls : Recalls r x) (orderly : r.Orderly) (orderly' : x.Orderly)
    (kind : EntityKind) : Table.size (x.tables kind) = Table.size (r.tables kind) := by
  apply Table.size_congr
  intro id
  rw [(orderly'.tables kind).toKeyed.mem_iff, (orderly.tables kind).toKeyed.mem_iff]
  apply not_congr
  constructor
  · intro empty
    have suffix := recalls.suffix kind id
    rw [empty, List.map_nil, List.suffix_nil, List.map_eq_nil_iff] at suffix
    exact suffix
  · exact recalls.filled kind id

theorem latest (recalls : Recalls r x) (kind : EntityKind) (id : Text) :
    ((x.tables kind).held id).getLast?.map kind.lasting =
      ((r.tables kind).held id).getLast?.map kind.lasting := by
  have suffix := recalls.suffix kind id
  cases List.eq_nil_or_concat' ((r.tables kind).held id) with
  | inl empty => rw [recalls.filled kind id empty, empty]
  | inr filled =>
      obtain ⟨front, last, eq⟩ := filled
      rw [eq, List.map_append, List.map_singleton] at suffix
      obtain ⟨before, whole⟩ := suffix
      rw [← List.getLast?_map, ← List.getLast?_map, ← whole, eq, List.map_append,
        List.map_singleton, ← List.append_assoc, List.getLast?_concat, List.getLast?_concat]

theorem admits (recalls : Recalls r x) (orderly : r.Orderly) (orderly' : x.Orderly)
    {value other : kind.Carrier} (admitted : kind.Admitted other)
    (same : kind.lasting other = kind.lasting value) (admits : r.Admits kind value) :
    x.Admits kind other := by
  have id : kind.entityId other = kind.entityId value := by
    rw [← entityId_lasting other, same, entityId_lasting]
  have generation : kind.generation other = kind.generation value := by
    rw [← generation_lasting other, same, generation_lasting]
  constructor
  · exact admitted
  · intro last mem
    rw [id] at mem
    have latest := recalls.latest kind (kind.entityId value)
    rw [Option.mem_def.mp mem, Option.map_some] at latest
    obtain ⟨newest, held, alike⟩ := Option.map_eq_some_iff.mp latest.symm
    have follows := admits.next newest held
    unfold GenerationTable.Follows at follows ⊢
    rw [generation, ← generation_lasting last, ← alike, generation_lasting]
    exact follows
  · rw [id]
    intro empty
    rw [recalls.size_eq orderly orderly']
    apply admits.room
    have suffix := recalls.suffix kind (kind.entityId value)
    rw [empty, List.map_nil, List.suffix_nil, List.map_eq_nil_iff] at suffix
    exact suffix

end Recalls

theorem Decode.Reads.of_ok {α : Type} {R : Bytes → Prop} {p : Decode α} {bytes : Bytes} {a : α}
    {G : Prop} (reads : p.Reads R bytes a G) (alone : R []) {decoded : α × ByteReader}
    (read : p (.ofBytes bytes) = .ok decoded) : decoded.1 = a := by
  have whole := reads [] alone
  rw [List.append_nil] at whole
  cases whole with
  | inl good =>
      rw [ByteReader.ofBytes, good] at read
      cases read
      rfl
  | inr bad =>
      obtain ⟨-, e, failed⟩ := bad
      rw [ByteReader.ofBytes, failed] at read
      cases read

section Records

variable {x x' : Registry} {sequence : Sequence} {payload : Bytes}

theorem applyRecord_publication {value : kind.Carrier}
    (recorded : (kind.encode value
      (.empty : ByteWriter Limits.maxCanonicalRecordBytes)).data = some payload)
    (applied : x.applyRecord ⟨kind.recordType, sequence, payload⟩ = .ok x') :
    x' = x.push kind (kind.readBack value) := by
  have entity : x.applyEntity kind payload = .ok x' := by
    cases kind <;> exact applied
  obtain ⟨decoded, decodes, rfl⟩ := Decode.map_eq_ok.mp entity
  have reads := (codes_entity (G := False) kind value False.elim).reads recorded
  rw [reads.of_ok trivial decodes]

theorem applyRecord_conflict {marker : ConflictMarker}
    (recorded : (conflictRecord marker).data = some payload)
    (applied : x.applyRecord ⟨.conflictRecord, sequence, payload⟩ = .ok x') :
    x' = x.holdConflict marker := by
  obtain ⟨decoded, decodes, rfl⟩ := Decode.map_eq_ok.mp applied
  have reads := CodesBefore.reads (codes_marker (G := False) marker
    "conflict record is malformed") recorded
  rw [reads.of_ok trivial decodes]

theorem applyRecord_decision {decision : ContractDecision} (settled : decision.Settled)
    (recorded : (encodeDecision decision
      (.empty : ByteWriter Limits.maxCanonicalRecordBytes)).data = some payload)
    (applied : x.applyRecord ⟨.recordDecision, sequence, payload⟩ = .ok x') :
    x' = (x.holdDecision decision).pruneDecisions := by
  obtain ⟨decoded, decodes, rfl⟩ := Decode.map_eq_ok.mp applied
  have reads := (codes_decision (G := True) decision fun _ => settled.listed).reads recorded
  rw [reads.of_ok rfl decodes, settled.fixed]

theorem applyRecord_registration {lease : PublisherLease} {origin : Text}
    (valid : isValid lease.publisher = true) (positive : lease.incarnation ≠ 0)
    (recorded : (leaseRecord lease origin).data = some payload)
    (newer : ∀ highest, x.publisherWatermark.lookup lease.publisher = some highest →
      highest < lease.incarnation)
    (applied : x.applyRecord ⟨.registerPublisher, sequence, payload⟩ = .ok x') :
    x' = { x with
      publisherWatermark := x.publisherWatermark.insert lease.publisher lease.incarnation } := by
  obtain ⟨decoded, decodes, rfl⟩ := Decode.map_eq_ok.mp applied
  obtain ⟨reader, read⟩ := decodeRegistration_leaseRecord valid positive recorded
  obtain rfl := Except.ok.inj (read.symm.trans decodes)
  dsimp only
  split
  · rfl
  next highest held => rw [if_pos (newer highest held)]

theorem applyRecord_epoch {epoch : FabricEpoch} {reason : Text}
    (recorded : (epochRecord epoch reason).data = some payload) (newer : x.currentEpoch < epoch)
    (applied : x.applyRecord ⟨.epochAdvance, sequence, payload⟩ = .ok x') :
    x' = { x with durableEpoch := epoch, currentEpoch := epoch } := by
  obtain ⟨long, front⟩ := epochRecord_front recorded
  unfold applyRecord at applied
  dsimp only at applied
  rw [if_neg (by omega), front, if_pos newer] at applied
  exact (Except.ok.inj applied).symm

end Records

end QoSFabric
