import QoSFabric.Proof.Registry.Agreement
import QoSFabric.Proof.Registry.Leases
import QoSFabric.Proof.Codec.Records

/-!
# Publications that equivocate

A publication of another content at the newest generation of its identifier is never acknowledged.
Once nothing else stands against it, and the log has room for the evidence, the answer is `Conflict`.
-/

namespace QoSFabric

open FileSystem Interaction Registry Proof.Engine

variable {openings : Openings} {r r' : Registry} {D D' : Durable} {d d' : Disk FileName}
  {clock : UInt64} {kind : EntityKind} {value incumbent : kind.Carrier} {call : Call} {answer : Answer}
  {marker : ConflictMarker} {room : Nat}

theorem within_conflictRecord (short : marker.id.length ≤ Limits.maxIdentifierLen)
    (detail : marker.detail = equivocationDetail) : (conflictRecord marker).Within 512 := by
  have reason : marker.detail.length ≤ Limits.maxReasonLen := by
    rw [detail]
    decide
  have writer := (@ByteWriter.Within.empty 512)
    |>.u8 marker.scope.value (by decide)
    |>.ident short (by decide)
    |>.u64 marker.generation (by decide)
    |>.digest marker.incumbentDigest (by decide)
    |>.digest marker.challengerDigest (by decide)
    |>.u64 marker.epoch (by decide)
    |>.str marker.detail reason (by decide)
  exact writer.mono (by decide)

/-- The newest definition held of the identifier has the same generation and another content. -/
def Registry.Equivocates (r : Registry) (kind : EntityKind) (value : kind.Carrier) : Prop :=
  ∃ incumbent ∈ r.latest kind (kind.entityId value),
    kind.generation incumbent = kind.generation value ∧
      kind.digest incumbent ≠ kind.contentDigest value

theorem Effect.refuses (effect : Effect clock r D call answer r' D') (faithful : Faithful r D)
    (published : call.definition = some ⟨kind, value⟩) (equivocates : r.Equivocates kind value) :
    ∃ e, answer = .published (.error e) := by
  obtain ⟨provenance, asserts⟩ := asserts_of_definition (r := r) published
  obtain ⟨result, rfl, publishes⟩ := effect.publishes faithful asserts
  obtain ⟨incumbent, latest, generation, other⟩ := equivocates
  have content := contentDigest_withProvenance provenance value
  have same := generation_withProvenance provenance value
  cases publishes with
  | refused e abides => exact ⟨e, rfl⟩
  | held abides held _ digest =>
      rw [entityId_withProvenance] at held
      obtain rfl := Option.some.inj (held.symm.trans latest)
      exact absurd (digest.trans content) other
  | added valid next epoch newest others =>
      rw [entityId_withProvenance] at next
      have follows := (next incumbent latest).lt
      rw [same, generation] at follows
      exact absurd follows (UInt64.lt_irrefl _)

theorem Affords.equivocates (affords : Affords (120 + 512 + room) r d)
    (short : (kind.entityId value).length ≤ Limits.maxIdentifierLen)
    (admitted : admission kind (r.tables kind) value (kind.contentDigest value) =
      .equivocated (kind.digest incumbent)) :
    ∃ r' d', execute (r.publishAdmitted kind value) d = ((.error equivocationError, r'), d') := by
  generalize evidence : r.equivocationMarker kind value (kind.digest incumbent)
    (kind.contentDigest value) = marker
  have identifier : marker.id.length ≤ Limits.maxIdentifierLen := evidence ▸ short
  have detail : marker.detail = equivocationDetail := evidence ▸ rfl
  obtain ⟨payload, recorded, size⟩ := within_conflictRecord identifier detail
  obtain ⟨attempt, between, store, d', executed, -⟩ :=
    affords.journalled (steady_conflictMutation marker payload) size (by decide)
  refine ⟨((conflictMutation marker payload).apply attempt (r.withStore between)).withStore store, d',
    ?_⟩
  unfold publishAdmitted recordConflict
  rw [← EntityKind.contentDigest]
  dsimp only
  rw [admitted]
  dsimp only
  rw [evidence, recorded]
  dsimp only
  rw [execute_bind, executed]
  rfl

/-- What a publication makes of the registry before it looks at the table: a full window is compacted
first. -/
inductive Registry.Clears (kind : EntityKind) (identifier : Text) (r : Registry)
    (d : Disk FileName) : Registry → Disk FileName → Prop where
  | open (room : r.windowFull kind identifier = false) : Clears kind identifier r d r d
  | compacted {r' : Registry} {d' : Disk FileName} (full : r.windowFull kind identifier = true)
      (executed : execute r.compactLocked d = ((.ok (), r'), d')) : Clears kind identifier r d r' d'

theorem Registry.Clears.clear {identifier : Text} (clears : r.Clears kind identifier d r' d')
    (faithful : Faithful r D) (drives : Drives r.store d D) :
    (∃ D', Drives r'.store d' D') ∧ ∀ kind id, r'.latest kind id = r.latest kind id := by
  cases clears with
  | «open» room => exact ⟨⟨D, drives⟩, fun _ _ => rfl⟩
  | compacted full executed =>
      obtain ⟨D', compacting, drives'⟩ :=
        Program.wp_ends drives.performs_compactLocked (ends_of_execute executed)
      exact ⟨⟨D', drives'⟩, (faithful.readied compacting.readied).2.latest⟩

/-- A class with the identifier and the generation of the plain one. -/
def disputedClass : QoSClass := { plainClass with label := text "other" }

theorem equivocates_iff : r.Equivocates kind value ↔
    (r.latest kind (kind.entityId value)).any (fun incumbent =>
      decide (kind.generation incumbent = kind.generation value ∧
        kind.digest incumbent ≠ kind.contentDigest value)) = true := by
  rw [Option.any_eq_true]
  simp only [Registry.Equivocates, Option.mem_def, decide_eq_true_eq]

instance : Decidable (r.Equivocates kind value) := decidable_of_iff _ equivocates_iff.symm

def exhausting : List Action :=
  [.open { RegistryOptions.default with maxWalBytes := 600 } 0 (List.replicate 16 7),
    .call 0 (.publishClass plainClass [])]

def exhausts : Bool :=
  match (Site.down Disk.empty).rehearse exhausting with
  | some (_, .up r d) =>
      decide (r.Equivocates .class disputedClass) &&
        match (execute (r.call 0 (.publishClass disputedClass [])) d).1.1 with
        | .published (.error e) => e.code == .capacityExhausted
        | _ => false
  | _ => false

end QoSFabric
