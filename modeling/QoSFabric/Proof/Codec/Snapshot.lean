import QoSFabric.Proof.Codec.Definitions
import QoSFabric.Proof.Codec.Decision

namespace QoSFabric

variable {limit : Nat} {G : Prop}

namespace Registry

def loadWatermark (s : Registry) (entry : Text × PublisherIncarnation) : Registry :=
  { s with publisherWatermark := s.publisherWatermark.insert entry.1 entry.2 }

def loadGenerations (kind : EntityKind) (s : Registry) (entry : Text × List kind.Carrier) :
    Registry :=
  entry.2.foldl (fun s value => s.push kind (kind.readBack value)) s

def loadTable (r : Registry) (s : Registry) (kind : EntityKind) : Registry :=
  (Table.select (r.tables kind) (sortTexts (r.tables kind).keys)).foldl (loadGenerations kind) s

def loadMarker (s : Registry) (marker : ConflictMarker) : Registry :=
  { s with conflicts := s.conflicts ++ [marker] }

def loadDecision (s : Registry) (entry : Text × ContractDecision) : Registry :=
  let value := entry.2.readBack.sealed
  { s with
    decisionOrder := s.decisionOrder ++ [value.contract]
    decisions := s.decisions.insert (keyOf value.contract value.contractGeneration) value }

def load (r s : Registry) : Registry :=
  let s := { s with durableEpoch := r.durableEpoch, currentEpoch := r.currentEpoch }
  let s := (r.publisherWatermark.select (sortTexts r.publisherWatermark.keys)).foldl loadWatermark s
  let s := EntityKind.all.foldl (loadTable r) s
  let s := r.conflicts.foldl loadMarker s
  (r.decisions.select (sortTexts r.decisions.keys)).foldl loadDecision s

structure Loadable (r : Registry) : Prop where
  publishers : Table.size r.publisherWatermark ≤ Limits.maxPublishersRetained
  publisher : ∀ id ∈ r.publisherWatermark, isValid id = true
  identifiers : ∀ kind, Table.size (r.tables kind) ≤ kind.maxIdentifiers
  generations : ∀ kind id list, (r.tables kind).lookup id = some list →
    list.length ≤ Limits.maxGenerationsPerId ∧ ∀ value ∈ list, kind.Readable value
  conflicts : r.conflicts.length ≤ maxStoredConflicts
  decisions : Table.size r.decisions ≤ Limits.maxDecisionsRetained
  decision : ∀ key decision, r.decisions.lookup key = some decision → decision.Listed

end Registry

open Registry

theorem length_select_sorted {V : Type} (t : Table Text V) :
    (t.select (sortTexts t.keys)).length = Table.size t := by
  rw [Table.length_select fun key mem => AList.mem_keys.mpr (mem_sortTexts.mp mem),
    length_sortTexts]
  exact List.length_map _

section Codes

variable {r : Registry}

theorem codes_watermark (entry : Text × PublisherIncarnation) (valid : G → isValid entry.1 = true)
    (s : Registry) :
    Codes (fun w : ByteWriter limit => encodeWatermark w entry) s.readWatermark
      (s.loadWatermark entry) G := by
  unfold readWatermark
  show Codes (emitAll [fun w => w.ident entry.1, fun w => w.u64 entry.2]) _ _ G
  apply Codes.step (codes_str _ (by decide))
  apply Codes.step (codes_u64 _)
  apply Codes.skip .sound
  apply Codes.last
  intro rest _
  split
  · exact .inl rfl
  next invalid => exact .inr ⟨fun good => invalid (valid good), _, rfl⟩

theorem codes_generation (kind : EntityKind) (value : kind.Carrier)
    (readable : G → kind.Readable value) (s : Registry) :
    Codes (fun w : ByteWriter limit => w.blob (kind.encode value)) (s.readGeneration kind)
      (s.push kind (kind.readBack value)) G := by
  unfold readGeneration
  show Codes (emitAll [fun w => w.blob (kind.encode value)]) _ _ G
  apply Codes.step (codes_blob (codes_entity kind value readable) trivial)
  exact Codes.done

theorem codes_generations (kind : EntityKind) (entry : Text × List kind.Carrier)
    (few : G → entry.2.length ≤ Limits.maxGenerationsPerId)
    (readable : G → ∀ value ∈ entry.2, kind.Readable value) (s : Registry) :
    Codes (fun w : ByteWriter limit => encodeGenerations kind w entry) (s.readGenerations kind)
      (s.loadGenerations kind entry) G :=
  codes_loop few (fun value mem s =>
    codes_generation kind value (fun good => readable good value mem) s) s

theorem codes_table (loadable : G → r.Loadable) (kind : EntityKind) (s : Registry) :
    Codes (fun w : ByteWriter limit => encodeTable w kind (r.tables kind))
      (s.readGenerationTable kind) (r.loadTable s kind) G := by
  apply codes_loop
  · intro good
    rw [length_select_sorted]
    exact (loadable good).identifiers kind
  · intro entry mem s
    obtain ⟨-, found⟩ := Table.select_keys_mem.mp mem
    exact codes_generations kind entry
      (fun good => ((loadable good).generations kind _ _ found).1)
      (fun good => ((loadable good).generations kind _ _ found).2) s

theorem codes_tables (loadable : G → r.Loadable) (kinds : List EntityKind) (s : Registry) :
    Codes (emitAll (kinds.map fun kind (w : ByteWriter limit) => encodeTable w kind (r.tables kind)))
      (s.readTables kinds) (kinds.foldl (loadTable r) s) G := by
  induction kinds generalizing s with
  | nil => exact Codes.done
  | cons kind kinds ih =>
      apply Codes.step (codes_table loadable kind s)
      exact ih (r.loadTable s kind)

theorem codes_conflict (marker : ConflictMarker) (s : Registry) :
    Codes (fun w : ByteWriter limit => encodeMarker w marker) s.readConflict
      (s.loadMarker marker) G := by
  unfold readConflict
  show Codes (emitAll [fun w => encodeMarker w marker]) _ _ G
  apply Codes.step (codes_marker marker _)
  exact Codes.done

theorem codes_retained (entry : Text × ContractDecision) (listed : G → entry.2.Listed)
    (s : Registry) :
    Codes (fun w : ByteWriter limit => encodeRetained w entry) s.readDecision
      (s.loadDecision entry) G := by
  unfold readDecision
  show Codes (emitAll [fun w => w.presence true, fun w => w.blob (encodeDecision entry.2)]) _ _ G
  apply Codes.step (codes_presence _)
  apply Codes.passing (by decide)
  apply Codes.step (codes_blob (codes_decision entry.2 listed) rfl)
  exact Codes.done

theorem reads_state (loadable : G → r.Loadable) (s : Registry) {bytes : Bytes}
    (written : r.writeState.data = some bytes) :
    s.readState.Reads (· = []) bytes (r.load s) G := by
  have codes : CodesBefore (· = []) (emitAll [fun w : ByteWriter Limits.maxSnapshotBytes =>
      w.u16 snapshotTag, fun w => w.u16 snapshotVersion, fun w => w.u64 r.durableEpoch,
      fun w => w.u64 r.currentEpoch,
      fun w => w.counted (r.publisherWatermark.select (sortTexts r.publisherWatermark.keys))
        encodeWatermark,
      emitAll (EntityKind.all.map fun kind w => encodeTable w kind (r.tables kind)),
      fun w => w.counted r.conflicts encodeMarker,
      fun w => w.counted (r.decisions.select (sortTexts r.decisions.keys)) encodeRetained])
      s.readState (r.load s) G := by
    have publishers : G →
        (r.publisherWatermark.select (sortTexts r.publisherWatermark.keys)).length ≤
          Limits.maxPublishersRetained := by
      intro good
      rw [length_select_sorted]
      exact (loadable good).publishers
    have publisher : ∀ entry ∈ r.publisherWatermark.select (sortTexts r.publisherWatermark.keys),
        G → isValid entry.1 = true := by
      intro entry mem good
      obtain ⟨held, -⟩ := Table.select_keys_mem.mp mem
      exact (loadable good).publisher _ (AList.mem_keys.mpr (mem_sortTexts.mp held))
    have decisions : G → (r.decisions.select (sortTexts r.decisions.keys)).length ≤
        Limits.maxDecisionsRetained := by
      intro good
      rw [length_select_sorted]
      exact (loadable good).decisions
    have decision : ∀ entry ∈ r.decisions.select (sortTexts r.decisions.keys),
        G → entry.2.Listed := by
      intro entry mem good
      exact (loadable good).decision _ _ (Table.select_keys_mem.mp mem).2
    unfold readState
    apply Codes.step (codes_u16 _)
    apply Codes.step (codes_u16 _)
    apply Codes.skip .sound
    apply Codes.passing (by decide)
    apply Codes.step (codes_u64 _)
    apply Codes.step (codes_u64 _)
    apply Codes.assoc (codes_loop publishers
      (fun entry mem s => codes_watermark entry (publisher entry mem) s) _)
    apply Codes.step (codes_tables loadable EntityKind.all _)
    apply Codes.assoc (codes_loop (fun good => (loadable good).conflicts)
      (fun marker _ s => codes_conflict marker s) _)
    apply Codes.assoc (codes_loop decisions
      (fun entry mem s => codes_retained entry (decision entry mem) s) _)
    apply Codes.skip .sound
    exact Codes.ended
  exact codes.reads written

theorem encodeSnapshotState_eq_ok {bytes : Bytes} :
    r.encodeSnapshotState = .ok bytes ↔ r.writeState.data = some bytes := by
  unfold encodeSnapshotState
  cases r.writeState.data with
  | none => simp
  | some written => simp

theorem snapshot_ne_nil {bytes : Bytes} (encoded : r.encodeSnapshotState = .ok bytes) :
    bytes ≠ [] := by
  have tail : Appends (emitAll [fun w : ByteWriter Limits.maxSnapshotBytes =>
      w.u16 snapshotVersion, fun w => w.u64 r.durableEpoch, fun w => w.u64 r.currentEpoch,
      fun w => w.counted (r.publisherWatermark.select (sortTexts r.publisherWatermark.keys))
        encodeWatermark,
      emitAll (EntityKind.all.map fun kind w => encodeTable w kind (r.tables kind)),
      fun w => w.counted r.conflicts encodeMarker,
      fun w => w.counted (r.decisions.select (sortTexts r.decisions.keys)) encodeRetained]) := by
    apply Appends.all
    simp only [List.forall_mem_cons, List.not_mem_nil, false_implies, implies_true, and_true]
    exact ⟨(codes_u16 (G := False) _).appends, (codes_u64 (G := False) _).appends,
      (codes_u64 (G := False) _).appends,
      Appends.counted fun entry _ => (codes_watermark (G := False) entry False.elim r).appends,
      (codes_tables (G := False) False.elim EntityKind.all r).appends,
      Appends.counted fun marker _ => (codes_conflict (G := False) marker r).appends,
      Appends.counted fun entry _ => (codes_retained (G := False) entry False.elim r).appends⟩
  obtain ⟨first, rest, data, rfl⟩ := tail _ bytes (encodeSnapshotState_eq_ok.mp encoded)
  intro empty
  obtain ⟨rfl, -⟩ := List.append_eq_nil_iff.mp empty
  have front : some (LittleEndian.encode 2 snapshotTag.toNat) = some [] := by
    rw [← data]
    show _ = ((ByteWriter.empty : ByteWriter Limits.maxSnapshotBytes).raw _).data
    rw [ByteWriter.data_raw_empty, LittleEndian.length_encode, if_pos (by decide)]
  exact absurd front (by decide)

theorem loadSnapshotState_of_encoded {s s' : Registry} {bytes : Bytes}
    (encoded : r.encodeSnapshotState = .ok bytes) (loaded : s.loadSnapshotState bytes = .ok s') :
    s' = r.load s := by
  have filled : bytes.isEmpty = false := by
    rw [List.isEmpty_eq_false_iff]
    exact snapshot_ne_nil encoded
  unfold loadSnapshotState at loaded
  rw [if_neg (by rw [filled]; exact Bool.false_ne_true)] at loaded
  have reads := reads_state (G := False) False.elim s (encodeSnapshotState_eq_ok.mp encoded) [] rfl
  rw [List.append_nil] at reads
  cases reads with
  | inl read =>
      rw [ByteReader.ofBytes, read] at loaded
      exact (Except.ok.inj loaded).symm
  | inr refused =>
      obtain ⟨-, e, failed⟩ := refused
      rw [ByteReader.ofBytes, failed] at loaded
      cases loaded

theorem loadSnapshotState_of_loadable {s : Registry} {bytes : Bytes} (loadable : r.Loadable)
    (encoded : r.encodeSnapshotState = .ok bytes) : s.loadSnapshotState bytes = .ok (r.load s) := by
  have filled : bytes.isEmpty = false := by
    rw [List.isEmpty_eq_false_iff]
    exact snapshot_ne_nil encoded
  unfold loadSnapshotState
  rw [if_neg (by rw [filled]; exact Bool.false_ne_true)]
  have reads := reads_state (G := True) (fun _ => loadable) s
    (encodeSnapshotState_eq_ok.mp encoded) [] rfl
  rw [List.append_nil] at reads
  cases reads with
  | inl read =>
      rw [ByteReader.ofBytes, read]
      rfl
  | inr refused => exact absurd trivial refused.1

end Codes

namespace Registry

variable {r s : Registry}

theorem foldl_loadWatermark (entries : List (Text × PublisherIncarnation)) (s : Registry) :
    entries.foldl loadWatermark s =
      { s with publisherWatermark := s.publisherWatermark.insertAll entries } := by
  induction entries generalizing s with
  | nil => rfl
  | cons entry entries ih =>
      rw [List.foldl_cons, ih]
      rfl

theorem foldl_loadMarker (markers : List ConflictMarker) (s : Registry) :
    markers.foldl loadMarker s = { s with conflicts := s.conflicts ++ markers } := by
  induction markers generalizing s with
  | nil => rw [List.append_nil]; rfl
  | cons marker markers ih =>
      rw [List.foldl_cons, ih]
      unfold loadMarker
      dsimp only
      rw [List.append_assoc]
      rfl

def loadedDecisions (entries : List (Text × ContractDecision)) : List (Text × ContractDecision) :=
  entries.map fun entry =>
    let value := entry.2.readBack.sealed
    (keyOf value.contract value.contractGeneration, value)

theorem foldl_loadDecision (entries : List (Text × ContractDecision)) (s : Registry) :
    entries.foldl loadDecision s =
      { s with
        decisionOrder := s.decisionOrder ++ entries.map fun entry => entry.2.contract
        decisions := s.decisions.insertAll (loadedDecisions entries) } := by
  induction entries generalizing s with
  | nil =>
      rw [List.map_nil, List.append_nil]
      rfl
  | cons entry entries ih =>
      rw [List.foldl_cons, ih]
      unfold loadDecision
      dsimp only
      rw [List.append_assoc]
      rfl

def loadedTable (kind : EntityKind) (entries : List (Text × List kind.Carrier))
    (table : GenerationTable kind) : GenerationTable kind :=
  entries.foldl (fun table entry =>
    entry.2.foldl (fun table value => GenerationTable.push table (kind.readBack value)) table) table

theorem setTable_self (s : Registry) (kind : EntityKind) : s.setTable kind (s.tables kind) = s := by
  unfold setTable
  rw [Function.update_eq_self]

theorem setTable_setTable (s : Registry) (kind : EntityKind) (first second : GenerationTable kind) :
    (s.setTable kind first).setTable kind second = s.setTable kind second := by
  unfold setTable
  dsimp only
  rw [Function.update_idem]

theorem tables_setTable (s : Registry) (kind : EntityKind) (table : GenerationTable kind) :
    (s.setTable kind table).tables kind = table := Function.update_self ..

theorem foldl_push (kind : EntityKind) (list : List kind.Carrier) (s : Registry) :
    list.foldl (fun s value => s.push kind (kind.readBack value)) s =
      s.setTable kind (list.foldl
        (fun table value => GenerationTable.push table (kind.readBack value)) (s.tables kind)) := by
  induction list generalizing s with
  | nil => exact (setTable_self s kind).symm
  | cons value list ih =>
      rw [List.foldl_cons, List.foldl_cons, ih]
      unfold push
      rw [tables_setTable, setTable_setTable]

theorem foldl_loadGenerations (kind : EntityKind) (entries : List (Text × List kind.Carrier))
    (s : Registry) : entries.foldl (loadGenerations kind) s =
      s.setTable kind (loadedTable kind entries (s.tables kind)) := by
  induction entries generalizing s with
  | nil => exact (setTable_self s kind).symm
  | cons entry entries ih =>
      rw [List.foldl_cons, ih]
      unfold loadGenerations
      rw [foldl_push, tables_setTable, setTable_setTable]
      rfl

def savedTable (r : Registry) (kind : EntityKind) : List (Text × List kind.Carrier) :=
  Table.select (r.tables kind) (sortTexts (r.tables kind).keys)

theorem loadTable_eq (r s : Registry) (kind : EntityKind) : r.loadTable s kind =
    s.setTable kind (loadedTable kind (r.savedTable kind) (s.tables kind)) :=
  foldl_loadGenerations kind _ s

theorem foldl_loadTable (r s : Registry) : EntityKind.all.foldl (loadTable r) s =
    { s with tables := fun kind => loadedTable kind (r.savedTable kind) (s.tables kind) } := by
  have others : ∀ (s : Registry) (kind other : EntityKind) (table : GenerationTable kind),
      other ≠ kind → (s.setTable kind table).tables other = s.tables other :=
    fun s kind other table ne => Function.update_of_ne ne ..
  unfold EntityKind.all
  simp only [List.foldl_cons, List.foldl_nil, loadTable_eq]
  have tables : ∀ a b : Registry, { a with tables := b.tables } = b →
      ∀ f, b.tables = f → b = { a with tables := f } := by
    rintro a b eq f rfl
    exact eq.symm
  apply tables
  · rfl
  · funext kind
    cases kind <;> simp [setTable]

theorem load_eq (r s : Registry) : r.load s =
    { s with
      durableEpoch := r.durableEpoch
      currentEpoch := r.currentEpoch
      publisherWatermark := s.publisherWatermark.insertAll
        (r.publisherWatermark.select (sortTexts r.publisherWatermark.keys))
      tables := fun kind => loadedTable kind (r.savedTable kind) (s.tables kind)
      conflicts := s.conflicts ++ r.conflicts
      decisionOrder := s.decisionOrder ++
        (r.decisions.select (sortTexts r.decisions.keys)).map fun entry => entry.2.contract
      decisions := s.decisions.insertAll
        (loadedDecisions (r.decisions.select (sortTexts r.decisions.keys))) } := by
  unfold load
  dsimp only
  rw [foldl_loadWatermark, foldl_loadTable, foldl_loadMarker, foldl_loadDecision]

end Registry

end QoSFabric
