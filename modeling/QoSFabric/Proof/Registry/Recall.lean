import QoSFabric.Proof.Codec.Snapshot
import QoSFabric.Proof.Registry.Invariant

namespace QoSFabric

open Registry

variable {kind : EntityKind}

/-- The generations held under an identifier, oldest first. -/
def GenerationTable.held (table : GenerationTable kind) (identifier : Text) : List kind.Carrier :=
  (table.lookup identifier).getD []

theorem GenerationTable.held_push (table : GenerationTable kind) (value : kind.Carrier)
    (identifier : Text) : (GenerationTable.push table value).held identifier =
      if identifier = kind.entityId value then table.held identifier ++ [value]
      else table.held identifier := by
  unfold held push
  split
  · next eq =>
      subst eq
      rw [AList.lookup_insert]
      rfl
  · next ne => rw [AList.lookup_insert_ne ne]

structure GenerationTable.Keyed (table : GenerationTable kind) : Prop where
  filled : ∀ identifier, table.lookup identifier ≠ some []
  same : ∀ identifier, ∀ value ∈ table.held identifier, kind.entityId value = identifier

theorem GenerationTable.Keyed.empty : GenerationTable.Keyed (∅ : GenerationTable kind) where
  filled _ h := by
    rw [AList.lookup_empty] at h
    cases h
  same _ _ h := by
    unfold held at h
    rw [AList.lookup_empty] at h
    cases h

theorem GenerationTable.Keyed.push {table : GenerationTable kind}
    (keyed : GenerationTable.Keyed table) (value : kind.Carrier) :
    GenerationTable.Keyed (GenerationTable.push table value) where
  filled identifier h := by
    unfold GenerationTable.push at h
    by_cases eq : identifier = kind.entityId value
    · subst eq
      rw [AList.lookup_insert] at h
      simp at h
    · rw [AList.lookup_insert_ne eq] at h
      exact keyed.filled identifier h
  same identifier other mem := by
    rw [held_push] at mem
    split at mem
    · next eq =>
        rw [List.mem_append, List.mem_singleton] at mem
        cases mem with
        | inl old => exact keyed.same identifier other old
        | inr new => rw [new, eq]
    · exact keyed.same identifier other mem

theorem GenerationTable.held_pushAll (list : List kind.Carrier) {key : Text}
    (same : ∀ value ∈ list, kind.entityId value = key) (table : GenerationTable kind)
    (identifier : Text) :
    GenerationTable.held
      (list.foldl (fun table value => GenerationTable.push table (kind.readBack value)) table)
      identifier =
      if identifier = key then table.held identifier ++ list.map kind.readBack
      else table.held identifier := by
  induction list generalizing table with
  | nil => simp
  | cons value list ih =>
      have here := same value List.mem_cons_self
      rw [List.foldl_cons, ih fun other mem => same other (List.mem_cons_of_mem _ mem), held_push,
        entityId_readBack, here]
      split
      · rw [List.map_cons, List.append_assoc]
        rfl
      · rfl

theorem held_loadedTable {source : GenerationTable kind} (keyed : GenerationTable.Keyed source)
    (keys : List Text) (nodup : keys.Nodup) (table : GenerationTable kind) (identifier : Text) :
    GenerationTable.held (loadedTable kind (Table.select source keys) table) identifier =
      if identifier ∈ keys then
        table.held identifier ++ (source.held identifier).map kind.readBack
      else table.held identifier := by
  induction keys generalizing table with
  | nil => rfl
  | cons key keys ih =>
      rw [List.nodup_cons] at nodup
      unfold Table.select loadedTable at ih ⊢
      rw [List.filterMap_cons]
      cases found : source.lookup key with
      | none =>
          dsimp only [Option.map_none]
          rw [ih nodup.2]
          by_cases eq : identifier = key
          · subst eq
            have none : source.held identifier = [] := by
              unfold GenerationTable.held
              rw [found]
              rfl
            simp [nodup.1, none]
          · simp [eq]
      | some list =>
          have held : source.held key = list := by
            unfold GenerationTable.held
            rw [found]
            rfl
          have same : ∀ value ∈ list, kind.entityId value = key := by
            intro value mem
            exact keyed.same key value (held ▸ mem)
          dsimp only [Option.map_some]
          rw [List.foldl_cons, ih nodup.2, GenerationTable.held_pushAll list same]
          by_cases eq : identifier = key
          · subst eq
            simp [nodup.1, held]
          · simp [eq]

theorem nodup_sortTexts {texts : List Text} (nodup : texts.Nodup) : (sortTexts texts).Nodup :=
  (Proof.Engine.sortTexts_perm texts).nodup_iff.mpr nodup

theorem held_savedTable {r : Registry} (keyed : GenerationTable.Keyed (r.tables kind))
    (identifier : Text) :
    GenerationTable.held (loadedTable kind (r.savedTable kind) ∅) identifier =
      (GenerationTable.held (r.tables kind) identifier).map kind.readBack := by
  unfold savedTable
  rw [held_loadedTable keyed _ (nodup_sortTexts (r.tables kind).keys_nodup)]
  have vacant : GenerationTable.held (∅ : GenerationTable kind) identifier = [] := by
    unfold GenerationTable.held
    rw [AList.lookup_empty]
    rfl
  rw [vacant, List.nil_append]
  split
  · rfl
  next absent =>
    have absent : (r.tables kind).lookup identifier = none :=
      AList.lookup_eq_none.mpr fun mem => absent (mem_sortTexts.mpr (AList.mem_keys.mp mem))
    unfold GenerationTable.held
    rw [absent]
    rfl

variable {options options' : RegistryOptions} {store store' : Store} {clock clock' : UInt64}
  {D : Durable} {r r' : Registry}

theorem recovers_snoc {record : LogRecord} :
    Recovers options store clock (D.snoc record) r' ↔
      ∃ r, Recovers options store clock D r ∧ r.applyRecord record = .ok r' := by
  have last : ∀ loaded : Registry, loaded.rebuildFromLog (D.history ++ [record]) = .ok r' ↔
      ∃ r, loaded.rebuildFromLog D.history = .ok r ∧ r.applyRecord record = .ok r' := by
    intro loaded
    unfold rebuildFromLog
    rw [List.foldlM_append]
    cases List.foldlM applyRecord loaded D.history with
    | error e => simp [bind, Except.bind]
    | ok r =>
        cases applied : r.applyRecord record with
        | error e => simp [bind, Except.bind, applied]
        | ok next => simp [bind, Except.bind, pure, Except.pure, applied]
  constructor
  · rintro ⟨loaded, load, rebuilt⟩
    obtain ⟨r, before, applied⟩ := (last loaded).mp rebuilt
    exact ⟨r, ⟨loaded, load, before⟩, applied⟩
  · rintro ⟨r, ⟨loaded, load, before⟩, applied⟩
    exact ⟨loaded, load, (last loaded).mpr ⟨r, before, applied⟩⟩

/-- A payload that is a snapshot of some registry, or none. -/
def Durable.Sound (D : Durable) : Prop :=
  D.payload = [] ∨ ∃ saved : Registry, saved.encodeSnapshotState = .ok D.payload

def Registry.reopened (options : RegistryOptions) (store : Store) (clock : UInt64) (r : Registry) :
    Registry :=
  { r with options, store, nowMs := clock }

theorem applyRecord_reopened (r : Registry) (record : LogRecord) :
    (r.reopened options store clock).applyRecord record =
      (r.applyRecord record).map (Registry.reopened options store clock) := by
  have entity (kind : EntityKind) :
      (r.reopened options store clock).applyEntity kind record.payload =
        (r.applyEntity kind record.payload).map (Registry.reopened options store clock) := by
    unfold applyEntity
    cases kind.decode (.ofBytes record.payload) <;> rfl
  unfold applyRecord
  cases record.type with
  | epochAdvance =>
      dsimp only
      split
      · rfl
      · rfl
  | publishClass => exact entity .class
  | publishPolicy => exact entity .policy
  | publishPath => exact entity .path
  | publishCapability => exact entity .capability
  | publishReservation => exact entity .reservation
  | registerPublisher =>
      dsimp only
      cases decodeRegistration (.ofBytes record.payload) with
      | error e => rfl
      | ok decoded =>
          obtain ⟨⟨id, parsed⟩, reader⟩ := decoded
          have same : (r.reopened options store clock).publisherWatermark = r.publisherWatermark := rfl
          dsimp only [Except.map]
          rw [same]
          cases r.publisherWatermark.lookup id with
          | none => rfl
          | some highest =>
              dsimp only
              split <;> rfl
  | conflictRecord =>
      dsimp only
      cases decodeMarker "conflict record is malformed" (.ofBytes record.payload) <;> rfl
  | recordDecision =>
      dsimp only
      cases decodeDecision (.ofBytes record.payload) <;> rfl
  | _ => rfl

theorem rebuildFromLog_reopened (records : List LogRecord) (r : Registry) :
    (r.reopened options store clock).rebuildFromLog records =
      (r.rebuildFromLog records).map (Registry.reopened options store clock) := by
  induction records generalizing r with
  | nil => rfl
  | cons record records ih =>
      unfold rebuildFromLog at ih ⊢
      rw [List.foldlM_cons, List.foldlM_cons, applyRecord_reopened]
      cases r.applyRecord record with
      | error e => rfl
      | ok next => exact ih next

theorem recovers_agree (sound : D.Sound) (first : Recovers options store clock D r)
    (second : Recovers options' store' clock' D r') :
    r' = r.reopened options' store' clock' := by
  obtain ⟨loaded, load, rebuilt⟩ := first
  obtain ⟨loaded', load', rebuilt'⟩ := second
  have agree : loaded' = loaded.reopened options' store' clock' := by
    cases sound with
    | inl none =>
        rw [none] at load load'
        cases load
        cases load'
        rfl
    | inr saved =>
        obtain ⟨saved, encoded⟩ := saved
        rw [loadSnapshotState_of_encoded encoded load, loadSnapshotState_of_encoded encoded load',
          load_eq, load_eq]
        rfl
  rw [agree, rebuildFromLog_reopened, rebuilt] at rebuilt'
  exact (Except.ok.inj rebuilt').symm

end QoSFabric
