import QoSFabric.Proof.Registry.Faithful

namespace QoSFabric

open Registry

variable {r r' x x' : Registry} {D : Durable} {kind : EntityKind}

structure Registry.Sane (r : Registry) : Prop where
  orderly : r.Orderly
  recorded : r.Recorded

structure Durable.Sane (D : Durable) : Prop where
  sound : D.Sound
  recovered : ∀ {options store clock x}, options.Accepted → Recovers options store clock D x → x.Sane

structure Faithful (r : Registry) (D : Durable) : Prop where
  sane : r.Sane
  sound : D.Sound
  recovered : ∀ {options store clock x}, options.Accepted → Recovers options store clock D x →
    x.Sane ∧ Recalls r x

theorem Faithful.durable (faithful : Faithful r D) : D.Sane where
  sound := faithful.sound
  recovered accepted recovers := (faithful.recovered accepted recovers).1

theorem Faithful.change (faithful : Faithful r D) (alike : r.Alike r') (recorded : r'.Recorded)
    (conflicts : r'.conflicts <:+ r.conflicts) : Faithful r' D where
  sane := ⟨faithful.sane.orderly.congr alike, recorded⟩
  sound := faithful.sound
  recovered accepted recovers := by
    obtain ⟨sane, recalls⟩ := faithful.recovered accepted recovers
    exact ⟨sane, recalls.left alike conflicts⟩

theorem Faithful.snoc (faithful : Faithful r D) {record : LogRecord} (sane : r'.Sane)
    (applied : ∀ x x', x.Sane → Recalls r x → x.applyRecord record = .ok x' →
      x'.Sane ∧ Recalls r' x') : Faithful r' (D.snoc record) where
  sane := sane
  sound := faithful.sound
  recovered accepted recovers := by
    obtain ⟨x, before, applies⟩ := recovers_snoc.mp recovers
    obtain ⟨saneBefore, recalls⟩ := faithful.recovered accepted before
    exact applied x _ saneBefore recalls applies

theorem recovers_saved {saved : Registry} {bytes : Bytes} {options : RegistryOptions} {store : Store}
    {clock : UInt64} (encoded : saved.encodeSnapshotState = .ok bytes)
    (recovers : Recovers options store clock ⟨bytes, []⟩ x) :
    x = saved.load (.fresh options store clock) := by
  obtain ⟨loaded, load, rebuilt⟩ := recovers
  obtain rfl : loaded = x := Except.ok.inj rebuilt
  exact loadSnapshotState_of_encoded encoded load

theorem Registry.Sane.saved (sane : r.Sane) {bytes : Bytes}
    (encoded : r.encodeSnapshotState = .ok bytes) : Faithful r ⟨bytes, []⟩ where
  sane := sane
  sound := .inr ⟨r, encoded⟩
  recovered {options store clock x} accepted recovers := by
    rw [recovers_saved encoded recovers]
    exact ⟨⟨sane.orderly.loaded accepted.1, sane.recorded.load options store clock⟩,
      Recalls.loaded sane.orderly options store clock⟩

/-! ## Compactions -/

theorem Registry.Sane.prune (sane : r.Sane) : r.prune.Sane :=
  ⟨sane.orderly.prune, sane.recorded.prune⟩

theorem Faithful.prune (faithful : Faithful r D) : Faithful r.prune D where
  sane := faithful.sane.prune
  sound := faithful.sound
  recovered accepted recovers := by
    obtain ⟨sane, recalls⟩ := faithful.recovered accepted recovers
    exact ⟨sane, recalls.prune faithful.sane.orderly faithful.sane.recorded⟩

theorem compactable_faithful : Compactable Faithful where
  store store faithful := by
    refine faithful.change ⟨rfl, rfl, rfl, fun _ => rfl, fun _ _ => rfl⟩ ?_ List.suffix_rfl
    exact faithful.sane.recorded.congr faithful.sane.recorded.conflicts rfl
  pruned faithful := faithful.prune
  compacted faithful encoded := faithful.sane.prune.saved encoded

theorem getLast?_of_drop {α : Type} {list : List α} {n : Nat} {last : α}
    (mem : last ∈ (list.drop n).getLast?) : last ∈ list.getLast? := by
  rw [List.getLast?_drop] at mem
  split at mem
  · cases mem
  · exact mem

theorem compactable_admits (value : kind.Carrier) :
    Compactable fun r D => Faithful r D ∧ r.Admits kind value := by
  have pruned {r : Registry} (sane : r.Sane) (admits : r.Admits kind value) :
      r.prune.Admits kind value := by
    have range := sane.orderly.range
    constructor
    · exact admits.admitted
    · intro last mem
      rw [held_prune sane.orderly] at mem
      exact admits.next last (getLast?_of_drop mem)
    · intro empty
      rw [held_prune sane.orderly, List.drop_eq_nil_iff] at empty
      rw [show r.prune.tables kind = Table.mapValues _ (r.tables kind) from rfl,
        Table.size_mapValues]
      apply admits.room
      rw [List.eq_nil_iff_length_eq_zero]
      omega
  constructor
  · intro r D store holds
    exact ⟨compactable_faithful.store store holds.1,
      holds.2.admitted, holds.2.next, holds.2.room⟩
  · intro r D holds
    exact ⟨holds.1.prune, pruned holds.1.sane holds.2⟩
  · intro r D bytes holds encoded
    exact ⟨holds.1.sane.prune.saved encoded, pruned holds.1.sane holds.2⟩

/-! ## Publications -/

theorem getLast?_held (table : GenerationTable kind) (id : Text) :
    (table.lookup id).bind List.getLast? = (table.held id).getLast? := by
  unfold GenerationTable.held
  cases table.lookup id with
  | none => rfl
  | some list => rfl

theorem admits_of_accepted {value : kind.Carrier} {digest : Digest256}
    (admitted : admission kind (r.tables kind) value digest = .accepted) {other : kind.Carrier}
    (wellFormed : kind.Admitted other) (id : kind.entityId other = kind.entityId value)
    (generation : kind.generation other = kind.generation value) : r.Admits kind other := by
  unfold admission at admitted
  rw [getLast?_held] at admitted
  split at admitted
  next none =>
    split at admitted
    · cases admitted
    next few =>
      constructor
      · exact wellFormed
      · intro last mem
        rw [id, none] at mem
        cases mem
      · intro _
        omega
  next incumbent last =>
    dsimp only at admitted
    split at admitted
    · cases admitted
    · split at admitted
      · split at admitted <;> cases admitted
      · split at admitted
        next next =>
          constructor
          · exact wellFormed
          · intro newest mem
            rw [id, last] at mem
            obtain rfl := Option.some.inj mem
            unfold GenerationTable.Follows
            rw [generation]
            exact next
          · intro empty
            rw [id] at empty
            rw [empty] at last
            cases last
        · cases admitted

theorem Registry.Sane.push (sane : r.Sane) {value : kind.Carrier} (admits : r.Admits kind value) :
    (r.push kind value).Sane where
  orderly := sane.orderly.push admits
  recorded := sane.recorded.congr sane.recorded.conflicts rfl

theorem Faithful.published (faithful : Faithful r D) {value : kind.Carrier}
    (admits : r.Admits kind value) (provenance : Provenance) {payload : Bytes}
    (recorded : (kind.encode value
      (.empty : ByteWriter Limits.maxCanonicalRecordBytes)).data = some payload)
    (sequence : Sequence) :
    Faithful (r.push kind (kind.withProvenance provenance value))
      (D.snoc ⟨kind.recordType, sequence, payload⟩) := by
  have id := entityId_withProvenance provenance value
  have generation := generation_withProvenance provenance value
  have admits' : r.Admits kind (kind.withProvenance provenance value) := by
    obtain ⟨admitted, next, room⟩ := admits
    rw [← id] at next room
    unfold GenerationTable.Follows at next
    rw [← generation] at next
    refine ⟨?_, next, room⟩
    obtain ⟨valid, addressed⟩ := admitted
    cases kind <;> exact ⟨valid, addressed⟩
  refine faithful.snoc (faithful.sane.push admits') ?_
  intro x x' sane recalls applied
  rw [applyRecord_publication recorded applied]
  have same := lasting_readBack value
  constructor
  · apply sane.push
    exact recalls.admits faithful.sane.orderly sane.orderly admits.admitted.readBack same admits
  · apply recalls.push
    · rw [entityId_readBack, id]
    · rw [lasting_readBack, lasting_withProvenance]

theorem alike_unpublish (orderly : r.Orderly) (value pushed : kind.Carrier)
    (id : kind.entityId pushed = kind.entityId value) (store : Store) :
    r.Alike (unpublish kind (kind.entityId value) r ((r.push kind pushed).withStore store)) where
  options := rfl
  durableEpoch := rfl
  currentEpoch := rfl
  watermark _ := rfl
  tables other key := by
    have table : ((r.push kind pushed).withStore store).tables kind =
        (r.tables kind).insert (kind.entityId value)
          (((r.tables kind).lookup (kind.entityId value)).getD [] ++ [pushed]) := by
      show (r.push kind pushed).tables kind = _
      unfold Registry.push
      rw [tables_setTable]
      unfold GenerationTable.push
      rw [id]
    unfold unpublish
    by_cases eq : other = kind
    · subst eq
      rw [tables_setTable, table]
      split
      next created =>
        by_cases same : key = other.entityId value
        · subst same
          rw [AList.lookup_erase]
          cases held : (r.tables other).lookup (other.entityId value) with
          | none => rfl
          | some list =>
              rw [held] at created
              have filled := (orderly.tables other).filled (other.entityId value)
              rw [Option.getD_some, List.isEmpty_iff] at created
              exact absurd (created ▸ held) filled
        · rw [AList.lookup_erase_ne same, AList.lookup_insert_ne same]
      next existed =>
        by_cases same : key = other.entityId value
        · subst same
          rw [AList.lookup_insert, AList.lookup_insert, Option.getD_some, List.dropLast_concat]
          cases held : (r.tables other).lookup (other.entityId value) with
          | none =>
              rw [held] at existed
              exact absurd rfl existed
          | some list => rfl
        · rw [AList.lookup_insert_ne same, AList.lookup_insert_ne same]
    · unfold setTable
      dsimp only
      rw [Function.update_of_ne eq]
      exact congrArg (AList.lookup key) (tables_push_ne pushed eq)

theorem alike_unpublished (orderly : r.Orderly) (value : kind.Carrier) (payload : Bytes)
    (attempt : AttemptId) (store : Store) :
    r.Alike ((publicationMutation kind value payload).rollback r
      (((publicationMutation kind value payload).apply attempt r).withStore store)) :=
  alike_unpublish orderly value _ (entityId_withProvenance _ value) store

/-! ## Conflicts -/

theorem Faithful.conflicted (faithful : Faithful r D) {marker : ConflictMarker} {payload : Bytes}
    (recorded : (conflictRecord marker).data = some payload) (sequence : Sequence) :
    Faithful (r.holdConflict marker) (D.snoc ⟨.conflictRecord, sequence, payload⟩) := by
  refine faithful.snoc ?_ ?_
  · exact ⟨faithful.sane.orderly.congr ⟨rfl, rfl, rfl, fun _ => rfl, fun _ _ => rfl⟩,
      faithful.sane.recorded.holdConflict marker⟩
  · intro x x' sane recalls applied
    rw [applyRecord_conflict recorded applied]
    exact ⟨⟨sane.orderly.congr ⟨rfl, rfl, rfl, fun _ => rfl, fun _ _ => rfl⟩,
      sane.recorded.holdConflict marker⟩, recalls.holdConflict sane.recorded marker⟩

theorem suffix_dropLast (conflicts : List ConflictMarker) (marker : ConflictMarker) :
    (if (conflicts ++ [marker]).length > maxStoredConflicts then (conflicts ++ [marker]).tail
      else conflicts ++ [marker]).dropLast <:+ conflicts := by
  split
  · rw [← List.tail_dropLast, List.dropLast_concat]
    exact List.tail_suffix _
  · rw [List.dropLast_concat]

theorem Faithful.unconflicted (faithful : Faithful r D) (marker : ConflictMarker) (payload : Bytes)
    (attempt : AttemptId) (store : Store) :
    Faithful ((conflictMutation marker payload).rollback r
      (((conflictMutation marker payload).apply attempt r).withStore store)) D := by
  have suffix := suffix_dropLast r.conflicts marker
  apply faithful.change
  · exact ⟨rfl, rfl, rfl, fun _ => rfl, fun _ _ => rfl⟩
  · exact faithful.sane.recorded.congr
      (Nat.le_trans suffix.length_le faithful.sane.recorded.conflicts) rfl
  · exact suffix

/-! ## Registrations -/

structure Granting (r : Registry) (lease : PublisherLease) : Prop where
  valid : isValid lease.publisher = true
  positive : lease.incarnation ≠ 0
  newer : ∀ highest, r.publisherWatermark.lookup lease.publisher = some highest →
    highest < lease.incarnation
  room : r.publisherWatermark.lookup lease.publisher = none →
    Table.size r.publisherWatermark < Limits.maxPublishersRetained
  epoch : lease.epoch = r.currentEpoch

theorem granting_of_grant {publisher : Text} {incarnation : PublisherIncarnation} {boot : BootId}
    {ttlMs : UInt64} {lease : PublisherLease}
    (granted : r.grant publisher incarnation boot ttlMs = .ok lease) : Granting r lease := by
  unfold grant at granted
  simp only [Proof.Engine.refuse_bind_eq_ok] at granted
  obtain ⟨valid, positive, -, -, newer, room, granted⟩ := granted
  split at granted
  · cases granted
  next expires _ =>
    cases granted
    constructor
    · simpa using valid
    · simpa using positive
    · intro highest held
      have held : r.publisherWatermark.lookup publisher = some highest := held
      rw [held] at newer
      simpa using newer
    · intro absent
      have absent : r.publisherWatermark.lookup publisher = none := absent
      rw [absent] at room
      simpa using room
    · rfl

theorem Granting.congr {lease : PublisherLease} (granting : Granting r lease)
    (epoch : r'.currentEpoch = r.currentEpoch)
    (watermark : ∀ id, r'.publisherWatermark.lookup id = r.publisherWatermark.lookup id) :
    Granting r' lease where
  valid := granting.valid
  positive := granting.positive
  newer := by
    rw [watermark]
    exact granting.newer
  room := by
    rw [watermark, Table.size_congr (Table.mem_congr watermark)]
    exact granting.room
  epoch := granting.epoch.trans epoch.symm

theorem Registry.Orderly.register (orderly : r.Orderly) {lease : PublisherLease}
    (granting : Granting r lease) :
    { r with publisherWatermark :=
      r.publisherWatermark.insert lease.publisher lease.incarnation }.Orderly where
  range := orderly.range
  epochs := orderly.epochs
  tables := orderly.tables
  identifiers := orderly.identifiers
  publishers := by
    show Table.size (r.publisherWatermark.insert _ _) ≤ _
    by_cases held : lease.publisher ∈ r.publisherWatermark
    · have same : ∀ key, key ∈ r.publisherWatermark.insert lease.publisher lease.incarnation ↔
          key ∈ r.publisherWatermark := by
        intro key
        rw [AList.mem_insert]
        exact ⟨fun h => h.elim (fun eq => eq ▸ held) id, .inr⟩
      rw [Table.size_congr same]
      exact orderly.publishers
    · have absent := AList.lookup_eq_none.mpr held
      rw [Table.size_insert_new _ absent]
      exact granting.room absent
  publisher id mem := by
    have mem : id ∈ r.publisherWatermark.insert lease.publisher lease.incarnation := mem
    rw [AList.mem_insert] at mem
    cases mem with
    | inl is => exact is ▸ granting.valid
    | inr old => exact orderly.publisher id old

theorem Faithful.registered (faithful : Faithful r D) {lease : PublisherLease}
    (granting : Granting r lease) {origin : Text} {payload : Bytes}
    (recorded : (leaseRecord lease origin).data = some payload) (attempt : AttemptId)
    (sequence : Sequence) :
    Faithful ((registrationMutation lease payload).apply attempt r)
      (D.snoc ⟨.registerPublisher, sequence, payload⟩) := by
  refine faithful.snoc ?_ ?_
  · refine ⟨(faithful.sane.orderly.register granting).congr ?_, ?_⟩
    · exact ⟨rfl, rfl, rfl, fun _ => rfl, fun _ _ => rfl⟩
    · exact faithful.sane.recorded.congr faithful.sane.recorded.conflicts rfl
  · intro x x' sane recalls applied
    have epoch : x.currentEpoch = r.currentEpoch := by
      rw [sane.orderly.epochs, recalls.durableEpoch, faithful.sane.orderly.epochs]
    have granting' := granting.congr epoch recalls.watermark
    rw [applyRecord_registration granting.valid granting.positive recorded granting'.newer applied]
    constructor
    · exact ⟨sane.orderly.register granting', sane.recorded.congr sane.recorded.conflicts rfl⟩
    · constructor
      · exact recalls.durableEpoch
      · intro id
        show (x.publisherWatermark.insert _ _).lookup id = (r.publisherWatermark.insert _ _).lookup id
        by_cases eq : id = lease.publisher
        · rw [eq, AList.lookup_insert, AList.lookup_insert]
        · rw [AList.lookup_insert_ne eq, AList.lookup_insert_ne eq, recalls.watermark]
      · exact recalls.suffix
      · exact recalls.filled
      · exact recalls.conflicts

theorem watermark_unregistered (r : Registry) (lease : PublisherLease) (payload : Bytes)
    (attempt : AttemptId) (store : Store) (id : Text) :
    ((registrationMutation lease payload).rollback r
      (((registrationMutation lease payload).apply attempt r).withStore
        store)).publisherWatermark.lookup id = r.publisherWatermark.lookup id := by
  unfold registrationMutation
  dsimp only [Registry.withStore]
  by_cases eq : id = lease.publisher
  · subst eq
    cases held : r.publisherWatermark.lookup lease.publisher with
    | none => exact AList.lookup_erase ..
    | some highest => exact AList.lookup_insert ..
  · cases r.publisherWatermark.lookup lease.publisher with
    | none =>
        dsimp only
        rw [AList.lookup_erase_ne eq, AList.lookup_insert_ne eq]
    | some highest =>
        dsimp only
        rw [AList.lookup_insert_ne eq, AList.lookup_insert_ne eq]

theorem Faithful.unregistered (faithful : Faithful r D) (lease : PublisherLease) (payload : Bytes)
    (attempt : AttemptId) (store : Store) :
    Faithful ((registrationMutation lease payload).rollback r
      (((registrationMutation lease payload).apply attempt r).withStore store)) D :=
  faithful.change
    ⟨rfl, rfl, rfl, watermark_unregistered r lease payload attempt store, fun _ _ => rfl⟩
    (faithful.sane.recorded.congr faithful.sane.recorded.conflicts rfl) List.suffix_rfl

/-! ## Decisions -/

theorem Registry.Sane.holdDecision (sane : r.Sane) {decision : ContractDecision}
    (settled : decision.Settled) : (r.holdDecision decision).pruneDecisions.Sane where
  orderly := sane.orderly.congr ⟨rfl, rfl, rfl, fun _ => rfl, fun _ _ => rfl⟩
  recorded := (sane.recorded.holdDecision settled).pruneDecisions

theorem Faithful.decided (faithful : Faithful r D) {decision : ContractDecision}
    (settled : decision.Settled) {payload : Bytes}
    (recorded : (encodeDecision decision
      (.empty : ByteWriter Limits.maxCanonicalRecordBytes)).data = some payload)
    (sequence : Sequence) :
    Faithful (r.holdDecision decision).pruneDecisions
      (D.snoc ⟨.recordDecision, sequence, payload⟩) := by
  refine faithful.snoc (faithful.sane.holdDecision settled) ?_
  intro x x' sane recalls applied
  rw [applyRecord_decision settled recorded applied]
  refine ⟨sane.holdDecision settled, ?_⟩
  have left : Recalls (r.holdDecision decision).pruneDecisions x :=
    recalls.left ⟨rfl, rfl, rfl, fun _ => rfl, fun _ _ => rfl⟩ List.suffix_rfl
  exact left.right ⟨rfl, rfl, rfl, fun _ => rfl, fun _ _ => rfl⟩ rfl

theorem Faithful.undecided (faithful : Faithful r D) {decision : ContractDecision}
    (settled : decision.Settled) (store : Store) :
    Faithful (forgetDecision decision r ((r.holdDecision decision).withStore store)) D := by
  refine faithful.change ⟨rfl, rfl, rfl, fun _ => rfl, fun _ _ => rfl⟩ ?_ List.suffix_rfl
  have held : ((r.holdDecision decision).withStore store).Recorded :=
    (faithful.sane.recorded.holdDecision settled).congr faithful.sane.recorded.conflicts rfl
  exact held.forgetDecision decision r

/-! ## Epochs -/

theorem Faithful.advanced (faithful : Faithful r D) {next : FabricEpoch} {reason : Text}
    {payload : Bytes} (increment : Store.tryIncrement r.durableEpoch = some next)
    (recorded : (epochRecord next reason).data = some payload) (sequence : Sequence) :
    Faithful { r with durableEpoch := next, currentEpoch := next, leases := ∅ }
      (D.snoc ⟨.epochAdvance, sequence, payload⟩) := by
  have newer : r.durableEpoch < next := by
    have grown := Store.tryIncrement_eq_some.mp increment
    rw [UInt64.lt_iff_toNat_lt]
    omega
  have orderly := faithful.sane.orderly
  refine faithful.snoc ?_ ?_
  · exact ⟨⟨orderly.range, rfl, orderly.tables, orderly.identifiers, orderly.publishers,
      orderly.publisher⟩, faithful.sane.recorded.congr faithful.sane.recorded.conflicts rfl⟩
  · intro x x' sane recalls applied
    have orderly' := sane.orderly
    have newer' : x.currentEpoch < next := by
      rw [orderly'.epochs, recalls.durableEpoch]
      exact newer
    rw [applyRecord_epoch recorded newer' applied]
    constructor
    · exact ⟨⟨orderly'.range, rfl, orderly'.tables, orderly'.identifiers, orderly'.publishers,
        orderly'.publisher⟩, sane.recorded.congr sane.recorded.conflicts rfl⟩
    · exact ⟨rfl, recalls.watermark, recalls.suffix, recalls.filled, recalls.conflicts⟩

/-! ## Every operation -/

theorem compactable_granting (lease : PublisherLease) : Compactable fun r _ => Granting r lease where
  store _ granting := granting.congr rfl fun _ => rfl
  pruned granting := granting.congr rfl fun _ => rfl
  compacted granting _ := granting.congr rfl fun _ => rfl

theorem Faithful.aside (faithful : Faithful r D) (leases : Table Text PublisherLease)
    (nowMs : UInt64) (clockPinned : Bool) : Faithful { r with leases, nowMs, clockPinned } D :=
  faithful.change ⟨rfl, rfl, rfl, fun _ => rfl, fun _ _ => rfl⟩
    (faithful.sane.recorded.congr faithful.sane.recorded.conflicts rfl) List.suffix_rfl

theorem invariant_faithful : Invariant (fun _ _ _ => True) Faithful where
  toCompactable := compactable_faithful
  clock nowMs clockPinned faithful := faithful.aside _ nowMs clockPinned
  equivocated _ _ _ _ _ recorded _ faithful :=
    ⟨fun attempt store => faithful.unconflicted _ _ attempt store,
      fun _ sequence => faithful.conflicted recorded sequence⟩
  accepted := by
    intro clock r D call kind value r₁ D₁ r' D' payload before _ _ readied valid positive admitted
      recorded ready faithful
    have middle := compactable_faithful.readied readied before
    have wellFormed := kind.admitted_asserted r₁.currentEpoch valid
    have admits := admits_of_accepted admitted wellFormed (entityId_asserted ..)
      (kind.generation_asserted ..)
    have admits' := ((compactable_admits _).readied ready ⟨middle, admits⟩).2
    constructor
    · intro attempt store
      apply faithful.change
      · exact alike_unpublished faithful.sane.orderly _ payload attempt store
      · exact faithful.sane.recorded.congr faithful.sane.recorded.conflicts rfl
      · exact List.suffix_rfl
    · intro attempt sequence
      exact faithful.published admits' _ recorded sequence
  registered := by
    intro r D publisher incarnation boot ttlMs lease origin payload r' D' _ granted recorded ready
      faithful
    have granting := (compactable_granting lease).readied ready (granting_of_grant granted)
    exact ⟨fun attempt store => faithful.unregistered lease payload attempt store,
      fun attempt sequence => faithful.registered granting recorded attempt sequence⟩
  revoked := by
    intro r D publisher removed payload r' D' _ _ _ faithful
    constructor
    · intro attempt store
      exact compactable_faithful.store store (faithful.aside _ _ _)
    · intro attempt sequence
      refine faithful.snoc ?_ ?_
      · exact (faithful.aside _ _ _).sane
      · intro x x' sane recalls applied
        obtain rfl : x = x' := Except.ok.inj applied
        exact ⟨sane, recalls.left ⟨rfl, rfl, rfl, fun _ => rfl, fun _ _ => rfl⟩ List.suffix_rfl⟩
  decided := by
    intro clock r D request decision payload r' D' _ _ decided recorded _ faithful
    have settled := (Registry.decides decided).settled
    exact ⟨fun _ store => faithful.undecided settled store,
      fun sequence => faithful.decided settled recorded sequence⟩
  advanced sequence faithful increment recorded := faithful.advanced increment recorded sequence
  expired faithful := faithful.aside _ _ _

/-! ## Restarts -/

theorem recovers_empty {options : RegistryOptions} {store : Store} {clock : UInt64} {x : Registry}
    (recovers : Recovers options store clock .empty x) : x = fresh options store clock := by
  obtain ⟨loaded, load, rebuilt⟩ := recovers
  obtain rfl := Except.ok.inj load
  exact (Except.ok.inj rebuilt).symm

theorem Durable.sane_empty : Durable.empty.Sane where
  sound := .inl rfl
  recovered {options store clock x} accepted recovers := by
    obtain rfl := recovers_empty recovers
    refine ⟨⟨accepted.1, rfl, fun _ => .empty, fun _ => Nat.zero_le _, Nat.zero_le _, ?_⟩,
      .fresh options store clock⟩
    intro id mem
    exact absurd mem (AList.notMem_empty id)

theorem Durable.Sane.faithful (durable : D.Sane) {options : RegistryOptions} {store : Store}
    {clock : UInt64} (accepted : options.Accepted) (recovers : Recovers options store clock D r) :
    Faithful r D where
  sane := durable.recovered accepted recovers
  sound := durable.sound
  recovered accepted' recovers' := by
    have sane := durable.recovered accepted' recovers'
    rw [recovers_agree durable.sound recovers recovers'] at sane ⊢
    refine ⟨sane, ?_, ?_, ?_, ?_, ?_⟩
    · rfl
    · exact fun _ => rfl
    · exact fun _ _ => List.suffix_rfl
    · exact fun _ _ empty => empty
    · exact List.suffix_rfl

theorem Durable.Sane.restored (durable : D.Sane) {options : RegistryOptions} {clock : UInt64}
    {D' : Durable} (restored : Restored options clock D r D') : Faithful r D' := by
  cases restored with
  | observed accepted observes recovers => exact durable.faithful accepted recovers
  | claimed accepted claims recovers advancing =>
      exact invariant_faithful.advancing (durable.faithful accepted recovers) advancing

theorem restarts_faithful (meets : Site → Event → Prop) :
    Restarts meets Faithful Durable.Sane where
  empty := Durable.sane_empty
  durable faithful := faithful.durable
  opened _ _ restored durable := durable.restored restored
  cutOpening restored durable := (durable.restored restored).durable
  cutCall _ effect faithful := (invariant_faithful.effect faithful trivial effect).durable

theorem TurnsWhere.faithful {openings : Openings} {meets : Site → Event → Prop} {events : List Event}
    {site : Site} (turns : TurnsWhere openings meets events site D) :
    Standing Faithful Durable.Sane site.members D ∧ ∀ D₀ : Durable, D₀.Front D → D₀.Sane :=
  turns.standing invariant_faithful (restarts_faithful meets) fun _ => trivial

theorem RunWhere.faithful {openings : Openings} {meets : Site → Event → Prop} {events : List Event}
    {site : Site} (run : RunWhere openings meets events site) :
    ∃ D, site.Refines D ∧ Standing Faithful Durable.Sane site.members D := by
  obtain ⟨D, refines, turns⟩ := run.turns
  exact ⟨D, refines, turns.faithful.1⟩

theorem Turn.standing {event : Event} {members members' : Option Registry}
    (turn : Turn members D event members' D') (standing : Standing Faithful Durable.Sane members D) :
    Standing Faithful Durable.Sane members' D' := by
  cases turn with
  | opened restored => exact Durable.Sane.restored standing restored
  | refused => exact standing
  | cutOpening restored => exact (Durable.Sane.restored standing restored).durable
  | untouched =>
      cases members with
      | none => exact standing
      | some r => exact Faithful.durable standing
  | called effect => exact invariant_faithful.effect standing trivial effect
  | cutCall effect => exact (invariant_faithful.effect standing trivial effect).durable
  | closed => exact Faithful.durable standing

/-! ## Properties of a history -/

def Carries (K : Registry → Prop) : Option Registry → Durable → Prop
  | none, D => ∀ options store clock x, RegistryOptions.Accepted options →
      Recovers options store clock D x → K x
  | some r, _ => K r

def Event.Idle : Event → Prop
  | .opened options _ _ (.ok _) => options.claimAuthority = false
  | .opened _ _ _ (.error _) | .closed | .crashed _ none => True
  | .called .. | .crashed _ (some _) => False

structure Carrying (members : Option Registry) (event : Event) (K K' : Registry → Prop) : Prop where
  idle : event.Idle → ∀ r, K r → K' r
  claimed : ∀ {r r' D D'}, ((∃ options clock boot, options.claimAuthority = true ∧
      event = .opened options clock boot (.ok r'.currentEpoch)) ∨ ∃ clock, event = .crashed clock none) →
    Faithful r D → Advancing (text "fabric-authority-restart") r D (.ok r'.currentEpoch) r' D' →
    K r → K' r'
  effect : ∀ {clock r D call answer r' D'}, members = some r →
    event = .called clock call answer ∨ event = .crashed clock (some call) →
    Faithful r D → Effect clock r D call answer r' D' → K r → K' r'
  recovered : ∀ {options store clock r D x}, Recovers options store clock D x → r.Sane → x.Sane →
    Recalls r x → K' r → K' x

theorem Faithful.carries {K : Registry → Prop} (faithful : Faithful r D)
    (recovered : ∀ {options store clock x}, Recovers options store clock D x → x.Sane →
      Recalls r x → K x) : Carries K none D := by
  intro options store clock x accepted recovers
  obtain ⟨sane, recalls⟩ := faithful.recovered accepted recovers
  exact recovered recovers sane recalls

theorem Carrying.restored {event : Event} {K K' : Registry → Prop} {members : Option Registry}
    (carrying : Carrying members event K K') {options : RegistryOptions} {clock : UInt64}
    (opens : (∃ clock boot, event = .opened options clock boot (.ok r.currentEpoch)) ∨
      ∃ clock, event = .crashed clock none) (durable : D.Sane) (carries : Carries K none D)
    (restored : Restored options clock D r D') : K' r := by
  cases restored with
  | observed accepted observes recovers =>
      refine carrying.idle ?_ r (carries _ _ _ _ accepted recovers)
      rcases opens with ⟨clock, boot, rfl⟩ | ⟨clock, rfl⟩
      · exact observes
      · trivial
  | claimed accepted claims recovers advancing =>
      rename_i store next recovered
      have current : r.currentEpoch = next := by
        cases advancing with
        | done => rfl
      subst current
      refine carrying.claimed ?_ (durable.faithful accepted recovers) advancing
        (carries _ _ _ _ accepted recovers)
      rcases opens with ⟨clock, boot, rfl⟩ | crashed
      · exact .inl ⟨options, clock, boot, claims, rfl⟩
      · exact .inr crashed

theorem Turn.carries {event : Event} {members members' : Option Registry} {K K' : Registry → Prop}
    (turn : Turn members D event members' D') (standing : Standing Faithful Durable.Sane members D)
    (carrying : Carrying members event K K') (carries : Carries K members D) :
    Carries K' members' D' := by
  have recovered {r : Registry} {D : Durable} (faithful : Faithful r D) (holds : K' r) :
      Carries K' none D :=
    faithful.carries fun recovers sane recalls =>
      carrying.recovered recovers faithful.sane sane recalls holds
  have idle {D : Durable} (idle : event.Idle) (carries : Carries K none D) : Carries K' none D :=
    fun options store clock x accepted recovers =>
      carrying.idle idle x (carries options store clock x accepted recovers)
  cases turn with
  | opened restored => exact carrying.restored (.inl ⟨_, _, rfl⟩) standing carries restored
  | refused => exact idle trivial carries
  | cutOpening restored =>
      exact recovered (Durable.Sane.restored standing restored)
        (carrying.restored (.inr ⟨_, rfl⟩) standing carries restored)
  | untouched =>
      cases members with
      | none => exact idle trivial carries
      | some r => exact recovered standing (carrying.idle trivial r carries)
  | called effect => exact carrying.effect rfl (.inl rfl) standing effect carries
  | cutCall effect =>
      exact recovered (invariant_faithful.effect standing trivial effect)
        (carrying.effect rfl (.inr rfl) standing effect carries)
  | closed => exact recovered standing (carrying.idle trivial _ carries)

theorem Carries.empty {K : Registry → Prop}
    (empty : ∀ options store clock, RegistryOptions.Accepted options →
      K (fresh options store clock)) : Carries K none .empty := by
  intro options store clock x accepted recovers
  obtain rfl := recovers_empty recovers
  exact empty options store clock accepted

theorem TurnsWhere.carries {meets : Site → Event → Prop} {K : List Event → Registry → Prop}
    (empty : ∀ options store clock, RegistryOptions.Accepted options →
      K [] (fresh options store clock))
    {events : List Event} {site : Site} (turns : TurnsWhere .reading meets events site D)
    (carrying : ∀ events event members, Carrying members event (K events) (K (events ++ [event]))) :
    Carries (K events) site.members D := by
  induction turns with
  | start => exact .empty empty
  | next turns sees _ turn ih =>
      obtain rfl := sees.eq
      exact turn.carries turns.faithful.1 (carrying _ _ _) ih

theorem RunWhere.carries {meets : Site → Event → Prop} {K : List Event → Registry → Prop}
    (empty : ∀ options store clock, RegistryOptions.Accepted options →
      K [] (fresh options store clock))
    {events : List Event} {site : Site} (run : RunWhere .reading meets events site)
    (carrying : ∀ events event site site', RunWhere .reading meets events site →
      Step .reading site event site' →
      Carrying site.members event (K events) (K (events ++ [event]))) :
    ∃ D, site.Refines D ∧ Standing Faithful Durable.Sane site.members D ∧
      Carries (K events) site.members D := by
  induction run with
  | start => exact ⟨.empty, .inr ⟨vacant_empty, rfl⟩, Durable.sane_empty, .empty empty⟩
  | next run step met ih =>
      obtain ⟨D, refines, standing, carries⟩ := ih
      obtain ⟨D₀, D', sees, turned, refines'⟩ := step.turn refines
      obtain rfl := sees.eq
      exact ⟨D', refines', turned.standing standing,
        turned.carries standing (carrying _ _ _ _ run step) carries⟩

theorem TurnsWhere.keeps {openings : Openings} {meets : Site → Event → Prop} {K : Registry → Prop}
    (empty : ∀ options store clock, RegistryOptions.Accepted options → K (fresh options store clock))
    (carrying : ∀ members event, Carrying members event K K) {events : List Event} {site : Site}
    (turns : TurnsWhere openings meets events site D) :
    Carries K site.members D ∧ ∀ D₀ : Durable, D₀.Front D → Carries K none D₀ := by
  induction turns with
  | start => exact ⟨.empty empty, fun D₀ front => front.eq_of_nil ▸ .empty empty⟩
  | @next events event site site' D D₀ D' turns sees _ turn ih =>
      obtain ⟨standing, sane⟩ := turns.faithful
      -- what the event takes for durable
      obtain ⟨standing, carries, lower⟩ : Standing Faithful Durable.Sane site.members D₀ ∧
          Carries K site.members D₀ ∧ ∀ D₁ : Durable, D₁.Front D₀ → Carries K none D₁ := by
        cases sees with
        | up => exact ⟨standing, ih⟩
        | down _ leaves _ =>
            have front := leaves.front
            exact ⟨sane D₀ front, ih.2 D₀ front, fun D₁ behind => ih.2 D₁ (behind.trans front)⟩
      refine ⟨turn.carries standing (carrying _ _) carries, fun D₁ front => ?_⟩
      rcases turn.front front with front | ⟨event, cut⟩
      · exact lower D₁ front
      · exact cut.carries standing (carrying _ event) carries

end QoSFabric
