import QoSFabric.Proof.Registry.Recall
import QoSFabric.Proof.Store.Append

namespace QoSFabric

open Registry

variable {kind : EntityKind}

structure EntityKind.Admitted (kind : EntityKind) (value : kind.Carrier) : Prop where
  valid : kind.validate value = .ok ()
  addressed : kind.digest value = kind.computeDigest value

theorem EntityKind.Admitted.readBack {value : kind.Carrier} (admitted : kind.Admitted value) :
    kind.Admitted (kind.readBack value) where
  valid := (validate_readBack kind value).trans admitted.valid
  addressed := by rw [digest_readBack, computeDigest_readBack]

/-- The definition a publication adds to its table. -/
def EntityKind.published (kind : EntityKind) (epoch : FabricEpoch) (provenance : Provenance)
    (value : kind.Carrier) : kind.Carrier :=
  kind.withProvenance provenance (kind.asserted epoch (kind.contentDigest value) .none value)

theorem EntityKind.admitted_asserted (epoch : FabricEpoch) {value : kind.Carrier}
    (valid : kind.validate value = .ok ()) :
    kind.Admitted (kind.asserted epoch (kind.contentDigest value) .none value) := by
  cases kind <;> exact ⟨valid, rfl⟩

namespace GenerationTable

def Follows (older newer : kind.Carrier) : Prop :=
  Store.tryIncrement (kind.generation older) = some (kind.generation newer)

theorem Follows.lt {older newer : kind.Carrier} (follows : Follows older newer) :
    kind.generation older < kind.generation newer := by
  have next := Store.tryIncrement_eq_some.mp follows
  rw [UInt64.lt_iff_toNat_lt]
  omega

structure Orderly (table : GenerationTable kind) : Prop extends Keyed table where
  contiguous : ∀ identifier, (table.held identifier).IsChain Follows
  admitted : ∀ identifier, ∀ value ∈ table.held identifier, kind.Admitted value

theorem Orderly.ascending {table : GenerationTable kind} (orderly : Orderly table)
    (identifier : Text) : (table.held identifier).Pairwise fun a b =>
      kind.generation a < kind.generation b := by
  have trans : Trans (fun a b : kind.Carrier => kind.generation a < kind.generation b)
      (fun a b => kind.generation a < kind.generation b)
      (fun a b => kind.generation a < kind.generation b) := ⟨UInt64.lt_trans⟩
  exact List.IsChain.pairwise ((orderly.contiguous identifier).imp fun _ _ follows => follows.lt)

theorem held_empty (identifier : Text) : held (∅ : GenerationTable kind) identifier = [] := by
  unfold held
  rw [AList.lookup_empty]
  rfl

theorem Orderly.empty : Orderly (∅ : GenerationTable kind) where
  toKeyed := .empty
  contiguous identifier := by
    rw [held_empty]
    exact .nil
  admitted identifier value mem := by
    rw [held_empty] at mem
    cases mem

theorem Orderly.congr {table table' : GenerationTable kind} (orderly : Orderly table)
    (same : ∀ identifier, table'.lookup identifier = table.lookup identifier) : Orderly table' := by
  have held : ∀ identifier, table'.held identifier = table.held identifier := by
    intro identifier
    unfold GenerationTable.held
    rw [same]
  constructor
  · constructor
    · intro identifier
      rw [same]
      exact orderly.filled identifier
    · intro identifier
      rw [held]
      exact orderly.same identifier
  · intro identifier
    rw [held]
    exact orderly.contiguous identifier
  · intro identifier
    rw [held]
    exact orderly.admitted identifier

theorem Orderly.push {table : GenerationTable kind} (orderly : Orderly table)
    {value : kind.Carrier} (admitted : kind.Admitted value)
    (next : ∀ last ∈ (table.held (kind.entityId value)).getLast?, Follows last value) :
    Orderly (GenerationTable.push table value) where
  toKeyed := orderly.toKeyed.push value
  contiguous identifier := by
    rw [held_push]
    split
    · next eq =>
        subst eq
        apply (orderly.contiguous _).append (List.isChain_singleton value)
        intro last mem head is
        obtain rfl := Option.some.inj is
        exact next last mem
    · exact orderly.contiguous identifier
  admitted identifier other mem := by
    rw [held_push] at mem
    split at mem
    · rw [List.mem_append, List.mem_singleton] at mem
      cases mem with
      | inl old => exact orderly.admitted identifier other old
      | inr new => exact new ▸ admitted
    · exact orderly.admitted identifier other mem

theorem pruneGenerations_of_ascending {list : List kind.Carrier} (maxGenerations : Nat)
    (ascending : list.Pairwise fun a b => kind.generation a < kind.generation b) :
    pruneGenerations kind maxGenerations list = list.drop (list.length - maxGenerations) := by
  unfold pruneGenerations
  split
  · next few => rw [Nat.sub_eq_zero_of_le few, List.drop_zero]
  · have sorted : list.insertionSort (fun a b => kind.generation a ≤ kind.generation b) = list :=
      List.Pairwise.insertionSort_eq (ascending.imp fun lt => UInt64.le_of_lt lt)
    rw [sorted]

theorem lookup_pruned (table : GenerationTable kind) (maxGenerations : Nat) (identifier : Text) :
    AList.lookup identifier (Table.mapValues (pruneGenerations kind maxGenerations) table) =
      (table.lookup identifier).map (pruneGenerations kind maxGenerations) :=
  Table.lookup_mapValues _ table identifier

theorem held_pruned {table : GenerationTable kind} (orderly : Orderly table) (maxGenerations : Nat)
    (identifier : Text) :
    held (Table.mapValues (pruneGenerations kind maxGenerations) table) identifier =
      (table.held identifier).drop ((table.held identifier).length - maxGenerations) := by
  have ascending := orderly.ascending identifier
  rw [← pruneGenerations_of_ascending maxGenerations ascending]
  unfold held
  rw [lookup_pruned]
  cases table.lookup identifier with
  | none => simp [pruneGenerations]
  | some list => rfl

theorem Orderly.pruned {table : GenerationTable kind} (orderly : Orderly table)
    {maxGenerations : Nat} (positive : 0 < maxGenerations) :
    Orderly (Table.mapValues (pruneGenerations kind maxGenerations) table) where
  filled identifier h := by
    rw [lookup_pruned, Option.map_eq_some_iff] at h
    obtain ⟨list, found, gone⟩ := h
    have held : table.held identifier = list := by
      unfold GenerationTable.held
      rw [found]
      rfl
    rw [pruneGenerations_of_ascending maxGenerations (held ▸ orderly.ascending identifier),
      List.drop_eq_nil_iff] at gone
    have nonempty : 0 < list.length := List.length_pos_iff.mpr fun empty =>
      orderly.filled identifier (empty ▸ found)
    omega
  same identifier value mem := by
    rw [held_pruned orderly] at mem
    exact orderly.same identifier value (List.mem_of_mem_drop mem)
  contiguous identifier := by
    rw [held_pruned orderly]
    exact (orderly.contiguous identifier).drop _
  admitted identifier value mem := by
    rw [held_pruned orderly] at mem
    exact orderly.admitted identifier value (List.mem_of_mem_drop mem)

theorem Keyed.pushAll (list : List kind.Carrier) {table : GenerationTable kind} (keyed : Keyed table) :
    Keyed (list.foldl (fun table value => GenerationTable.push table (kind.readBack value)) table) := by
  induction list generalizing table with
  | nil => exact keyed
  | cons value list ih => exact ih (keyed.push _)

theorem Keyed.loaded (entries : List (Text × List kind.Carrier)) {table : GenerationTable kind}
    (keyed : Keyed table) : Keyed (loadedTable kind entries table) := by
  unfold loadedTable
  induction entries generalizing table with
  | nil => exact keyed
  | cons entry entries ih => exact ih (Keyed.pushAll entry.2 keyed)

theorem Orderly.loaded {r : Registry} (orderly : Orderly (r.tables kind)) :
    Orderly (loadedTable kind (r.savedTable kind) ∅) where
  toKeyed := Keyed.loaded _ .empty
  contiguous identifier := by
    rw [held_savedTable orderly.toKeyed, List.isChain_map]
    unfold Follows
    simp only [generation_readBack]
    exact orderly.contiguous identifier
  admitted identifier value mem := by
    rw [held_savedTable orderly.toKeyed] at mem
    obtain ⟨old, held, rfl⟩ := List.mem_map.mp mem
    exact (orderly.admitted identifier old held).readBack

theorem Keyed.mem_iff {table : GenerationTable kind} (keyed : Keyed table) {identifier : Text} :
    identifier ∈ table ↔ table.held identifier ≠ [] := by
  rw [← AList.lookup_isSome]
  unfold held
  cases found : table.lookup identifier with
  | none => simp
  | some list =>
      simp only [Option.isSome_some, Option.getD_some, true_iff]
      rintro rfl
      exact keyed.filled identifier found

end GenerationTable

structure Registry.Alike (r r' : Registry) : Prop where
  options : r'.options = r.options
  durableEpoch : r'.durableEpoch = r.durableEpoch
  currentEpoch : r'.currentEpoch = r.currentEpoch
  watermark : ∀ id, r'.publisherWatermark.lookup id = r.publisherWatermark.lookup id
  tables : ∀ kind id, (r'.tables kind).lookup id = (r.tables kind).lookup id

theorem Registry.Alike.held {r r' : Registry} (alike : r.Alike r') (kind : EntityKind) (id : Text) :
    (r'.tables kind).held id = (r.tables kind).held id := by
  unfold GenerationTable.held
  rw [alike.tables]

structure Registry.Orderly (r : Registry) : Prop where
  range : 0 < r.options.maxGenerationsPerId
  epochs : r.currentEpoch = r.durableEpoch
  tables : ∀ kind, (r.tables kind).Orderly
  identifiers : ∀ kind, Table.size (r.tables kind) ≤ kind.maxIdentifiers
  publishers : Table.size r.publisherWatermark ≤ Limits.maxPublishersRetained
  publisher : ∀ id ∈ r.publisherWatermark, isValid id = true

theorem Table.mem_congr {V : Type} {t t' : Table Text V}
    (same : ∀ id, t'.lookup id = t.lookup id) (id : Text) : id ∈ t' ↔ id ∈ t := by
  rw [← AList.lookup_isSome, ← AList.lookup_isSome, same]

theorem Registry.Orderly.congr {r r' : Registry} (orderly : r.Orderly) (alike : r.Alike r') :
    r'.Orderly where
  range := alike.options ▸ orderly.range
  epochs := by rw [alike.currentEpoch, alike.durableEpoch, orderly.epochs]
  tables kind := (orderly.tables kind).congr (alike.tables kind)
  identifiers kind := by
    rw [Table.size_congr (Table.mem_congr (alike.tables kind))]
    exact orderly.identifiers kind
  publishers := by
    rw [Table.size_congr (Table.mem_congr alike.watermark)]
    exact orderly.publishers
  publisher id mem := orderly.publisher id ((Table.mem_congr alike.watermark id).mp mem)

section Changes

variable {r : Registry}

theorem Registry.Orderly.prune (orderly : r.Orderly) : r.prune.Orderly where
  range := orderly.range
  epochs := orderly.epochs
  tables kind := (orderly.tables kind).pruned orderly.range
  identifiers kind := by
    rw [show r.prune.tables kind = Table.mapValues _ (r.tables kind) from rfl, Table.size_mapValues]
    exact orderly.identifiers kind
  publishers := orderly.publishers
  publisher := orderly.publisher

theorem held_prune (orderly : r.Orderly) (kind : EntityKind) (id : Text) :
    (r.prune.tables kind).held id = ((r.tables kind).held id).drop
      (((r.tables kind).held id).length - r.options.maxGenerationsPerId) :=
  GenerationTable.held_pruned (orderly.tables kind) _ id

theorem Registry.Orderly.loaded (orderly : r.Orderly) {options : RegistryOptions} {store : Store}
    {clock : UInt64} (range : 0 < options.maxGenerationsPerId) :
    (r.load (.fresh options store clock)).Orderly := by
  rw [load_eq]
  have watermark : ∀ id, AList.lookup id (Table.insertAll ∅
      (r.publisherWatermark.select (sortTexts r.publisherWatermark.keys))) =
        r.publisherWatermark.lookup id :=
    Table.lookup_insertAll_keys fun id mem => mem_sortTexts.mpr (AList.mem_keys.mp mem)
  have tables : ∀ kind, GenerationTable.Orderly (loadedTable kind (r.savedTable kind) ∅) :=
    fun kind => (orderly.tables kind).loaded
  constructor
  · exact range
  · exact orderly.epochs
  · exact tables
  · intro kind
    have same : ∀ id, id ∈ loadedTable kind (r.savedTable kind) ∅ ↔ id ∈ r.tables kind := by
      intro id
      rw [(tables kind).toKeyed.mem_iff, (orderly.tables kind).toKeyed.mem_iff,
        held_savedTable (orderly.tables kind).toKeyed, Ne, List.map_eq_nil_iff]
    show Table.size (loadedTable kind (r.savedTable kind) ∅) ≤ _
    rw [Table.size_congr same]
    exact orderly.identifiers kind
  · show Table.size (Table.insertAll ∅ _) ≤ _
    rw [Table.size_congr (Table.mem_congr watermark)]
    exact orderly.publishers
  · intro id mem
    exact orderly.publisher id ((Table.mem_congr watermark id).mp mem)

theorem held_load (orderly : r.Orderly) (options : RegistryOptions) (store : Store) (clock : UInt64)
    (kind : EntityKind) (id : Text) :
    ((r.load (.fresh options store clock)).tables kind).held id =
      ((r.tables kind).held id).map kind.readBack := by
  rw [load_eq]
  exact held_savedTable (orderly.tables kind).toKeyed id

theorem held_push (kind : EntityKind) (value : kind.Carrier) (id : Text) :
    ((r.push kind value).tables kind).held id =
      if id = kind.entityId value then (r.tables kind).held id ++ [value]
      else (r.tables kind).held id := by
  unfold Registry.push
  rw [tables_setTable, GenerationTable.held_push]

theorem tables_push_ne {kind other : EntityKind} (value : kind.Carrier) (ne : other ≠ kind) :
    (r.push kind value).tables other = r.tables other :=
  Function.update_of_ne ne ..

structure Registry.Admits (r : Registry) (kind : EntityKind) (value : kind.Carrier) : Prop where
  admitted : kind.Admitted value
  next : ∀ last ∈ ((r.tables kind).held (kind.entityId value)).getLast?,
    GenerationTable.Follows last value
  room : (r.tables kind).held (kind.entityId value) = [] →
    Table.size (r.tables kind) < kind.maxIdentifiers

theorem Registry.Orderly.push (orderly : r.Orderly) {kind : EntityKind} {value : kind.Carrier}
    (admits : r.Admits kind value) : (r.push kind value).Orderly where
  range := orderly.range
  epochs := orderly.epochs
  tables other := by
    by_cases eq : other = kind
    · subst eq
      unfold Registry.push
      rw [tables_setTable]
      exact (orderly.tables other).push admits.admitted admits.next
    · rw [tables_push_ne value eq]
      exact orderly.tables other
  identifiers other := by
    by_cases eq : other = kind
    · subst eq
      unfold Registry.push
      rw [tables_setTable]
      unfold GenerationTable.push
      by_cases absent : (r.tables other).held (other.entityId value) = []
      · have room := admits.room absent
        have grown := Table.size_insert_le (r.tables other) (other.entityId value)
          (((r.tables other).lookup (other.entityId value)).getD [] ++ [value])
        omega
      · have held := (orderly.tables other).toKeyed.mem_iff.mpr absent
        have same : ∀ key, key ∈ (r.tables other).insert (other.entityId value)
            (((r.tables other).lookup (other.entityId value)).getD [] ++ [value]) ↔
              key ∈ r.tables other := by
          intro key
          rw [AList.mem_insert]
          exact ⟨fun h => h.elim (fun eq => eq ▸ held) id, .inr⟩
        rw [Table.size_congr same]
        exact orderly.identifiers other
    · rw [tables_push_ne value eq]
      exact orderly.identifiers other
  publishers := orderly.publishers
  publisher := orderly.publisher

end Changes

end QoSFabric
