import QoSFabric.Proof.Registry.Orderly
import QoSFabric.Proof.Registry.Decisions
import QoSFabric.Proof.Engine.Evidence

namespace QoSFabric

open Registry

structure ContractDecision.Settled (decision : ContractDecision) : Prop where
  listed : decision.Listed
  fixed : decision.readBack.sealed = decision

theorem settled_sealed {decision : ContractDecision} (listed : decision.Listed)
    {origin : Text} {epoch : FabricEpoch} (provenance : decision.provenance = .make origin epoch 1 1) :
    decision.sealed.Settled where
  listed := ⟨listed.obligations, listed.resources, listed.degradations, listed.authority⟩
  fixed := by
    have clipped : Provenance.make decision.provenance.origin decision.provenance.epoch 1 1 =
        decision.provenance := by
      rw [provenance]
      unfold Provenance.make
      rw [List.take_take, Nat.min_self]
    have front : decision.sealed.readBack = { decision with decisionDigest := .zero } := by
      unfold ContractDecision.readBack ContractDecision.sealed
      dsimp only
      rw [clipped]
    rw [front]
    rfl

theorem obligations_le (inputs : EvaluationInputs) :
    ((assessAll inputs).map Assessed.assessment).length ≤ Limits.maxObligations := by
  unfold assessAll buildPlan
  rw [List.length_map, List.length_map]
  exact List.length_take_le _ _

theorem resources_le {inputs : EvaluationInputs} (accepted : (intake inputs).outcome ≠ .rejected) :
    ((resolve inputs).map Resolution.assessment).length ≤ Limits.maxPathComponents := by
  have below : (intake inputs).outcome ≤ .conflict := by
    revert accepted
    cases (intake inputs).outcome <;> decide
  have valid := ((Proof.Engine.intake_le (by decide)).mp below).path
  unfold validatePath at valid
  simp only [Proof.Engine.refuse_bind_eq_ok] at valid
  have within := valid.2.2.2.1
  unfold resolve
  rw [List.length_map, List.length_map, List.length_zipIdx]
  simpa using within

theorem evaluate_settled {inputs : EvaluationInputs} {decision : ContractDecision}
    (evaluated : QoSFabric.evaluate inputs = .ok decision) : decision.Settled := by
  unfold QoSFabric.evaluate at evaluated
  split at evaluated
  · cases evaluated
    apply settled_sealed
    · exact ⟨Nat.zero_le _, Nat.zero_le _, Nat.zero_le _,
        show 4 ≤ Limits.maxAuthorityEntries by decide⟩
    · rfl
  next accepted =>
    cases evaluated
    apply settled_sealed
    · constructor
      · dsimp only
        exact obligations_le inputs
      · dsimp only
        exact resources_le accepted
      · dsimp only
        unfold degradations
        exact List.length_take_le _ _
      · dsimp only
        unfold authority
        exact List.length_take_le _ _
    · rfl

theorem Decides.settled {r : Registry} {request : ContractRequest} {decision : ContractDecision}
    (decides : Decides r request decision) : decision.Settled := by
  cases decides with
  | rejected reason =>
      apply settled_sealed _ rfl
      exact ⟨Nat.zero_le _, Nat.zero_le _, Nat.zero_le _,
        show 1 ≤ Limits.maxAuthorityEntries by decide⟩
  | evaluated _ _ _ _ evaluated => exact evaluate_settled evaluated

/-- The bytes a decision is recorded as. -/
def ContractDecision.record (decision : ContractDecision) : Option Bytes :=
  (encodeDecision decision (.empty : ByteWriter Limits.maxCanonicalRecordBytes)).data

namespace ContractDecision.Settled

variable {decision other : ContractDecision} {bytes : Bytes}

theorem decode (settled : decision.Settled) (recorded : decision.record = some bytes) :
    decodeDecision (.ofBytes bytes) = .ok (decision.readBack, ⟨some []⟩) := by
  have reads := (codes_decision (G := True) decision fun _ => settled.listed).reads recorded [] rfl
  rw [List.append_nil] at reads
  exact reads.resolve_right fun refused => refused.1 trivial

theorem digest (settled : decision.Settled) (recorded : decision.record = some bytes) :
    decision.decisionDigest = sha256 bytes := by
  have computed : decision.decisionDigest = decision.readBack.computeDecisionDigest :=
    congrArg ContractDecision.decisionDigest settled.fixed.symm
  have record : decision.readBack.record = some bytes := by
    have same : decision.readBack.sealed.record = decision.readBack.record := rfl
    rw [← same, settled.fixed, recorded]
  rw [computed]
  exact digestOfEncoding_of_data record

theorem eq_of_record (settled : decision.Settled) (settled' : other.Settled)
    (recorded : decision.record = some bytes) (recorded' : other.record = some bytes) :
    other = decision := by
  have same := (settled.decode recorded).symm.trans (settled'.decode recorded')
  obtain ⟨readBack, -⟩ := Prod.mk.inj (Except.ok.inj same)
  rw [← settled.fixed, ← settled'.fixed, readBack]

end ContractDecision.Settled

/-- Two decisions whose records are different bytes with one SHA-256 digest. -/
def ContractDecision.Collide (decision other : ContractDecision) : Prop :=
  ∃ a b, decision.record = some a ∧ other.record = some b ∧ a ≠ b ∧ sha256 a = sha256 b

theorem ContractDecision.Settled.digest_iff {decision other : ContractDecision} {a b : Bytes}
    (settled : decision.Settled) (settled' : other.Settled) (recorded : decision.record = some a)
    (recorded' : other.record = some b) :
    other.decisionDigest = decision.decisionDigest ↔ decision.Collide other ∨ other = decision := by
  rw [settled.digest recorded, settled'.digest recorded']
  constructor
  · intro same
    by_cases bytes : a = b
    · exact .inr (settled.eq_of_record settled' recorded (bytes ▸ recorded'))
    · exact .inl ⟨a, b, recorded, recorded', bytes, same.symm⟩
  · rintro (⟨a', b', first, second, -, same⟩ | rfl)
    · rw [Option.some.inj (recorded.symm.trans first), same,
        Option.some.inj (recorded'.symm.trans second)]
    · rw [Option.some.inj (recorded.symm.trans recorded')]

theorem lookup_evict {order : List Text} {decisions : Table Text ContractDecision} {key : Text}
    {decision : ContractDecision} (held : (evict order decisions).2.lookup key = some decision) :
    decisions.lookup key = some decision := by
  induction order generalizing decisions with
  | nil => exact held
  | cons oldest rest ih =>
      unfold evict at held
      split at held
      · have kept := ih held
        split at kept
        · exact kept
        · rw [Table.lookup_keep, Option.filter_eq_some_iff] at kept
          exact kept.1
      · exact held

structure Registry.Recorded (r : Registry) : Prop where
  conflicts : r.conflicts.length ≤ maxStoredConflicts
  decision : ∀ key decision, r.decisions.lookup key = some decision →
    key = keyOf decision.contract decision.contractGeneration ∧ decision.Settled

namespace Registry.Recorded

variable {r r' : Registry}

theorem congr (recorded : r.Recorded) (conflicts : r'.conflicts.length ≤ maxStoredConflicts)
    (decisions : r'.decisions = r.decisions) : r'.Recorded where
  conflicts := conflicts
  decision := by
    rw [decisions]
    exact recorded.decision

theorem fresh (options : RegistryOptions) (store : Store) (clock : UInt64) :
    (Registry.fresh options store clock).Recorded where
  conflicts := Nat.zero_le _
  decision key decision held := by
    rw [show (Registry.fresh options store clock).decisions = ∅ from rfl, AList.lookup_empty] at held
    cases held

theorem pruneDecisions (recorded : r.Recorded) : r.pruneDecisions.Recorded where
  conflicts := recorded.conflicts
  decision key decision held := recorded.decision key decision (lookup_evict held)

theorem conflicts_prune (recorded : r.Recorded) : r.prune.conflicts = r.conflicts := by
  unfold Registry.prune Registry.pruneDecisions
  dsimp only
  rw [Nat.sub_eq_zero_of_le recorded.conflicts, List.drop_zero]

theorem prune (recorded : r.Recorded) : r.prune.Recorded where
  conflicts := by
    rw [recorded.conflicts_prune]
    exact recorded.conflicts
  decision := recorded.pruneDecisions.decision

theorem holdConflict (recorded : r.Recorded) (marker : ConflictMarker) :
    (r.holdConflict marker).Recorded := by
  have within := recorded.conflicts
  refine recorded.congr ?_ rfl
  unfold Registry.holdConflict
  dsimp only
  split
  · rw [List.length_tail, List.length_append, List.length_singleton]
    exact within
  next small => exact Nat.not_lt.mp small

theorem holdDecision (recorded : r.Recorded) {decision : ContractDecision}
    (settled : decision.Settled) : (r.holdDecision decision).Recorded where
  conflicts := recorded.conflicts
  decision key other held := by
    rw [show (r.holdDecision decision).decisions = r.decisions.insert
      (keyOf decision.contract decision.contractGeneration) decision from rfl] at held
    by_cases eq : key = keyOf decision.contract decision.contractGeneration
    · subst eq
      rw [AList.lookup_insert] at held
      obtain rfl := Option.some.inj held
      exact ⟨rfl, settled⟩
    · rw [AList.lookup_insert_ne eq] at held
      exact recorded.decision key other held

theorem forgetDecision (recorded : r.Recorded) (decision : ContractDecision) (before : Registry) :
    (forgetDecision decision before r).Recorded where
  conflicts := recorded.conflicts
  decision key other held := by
    rw [show (Registry.forgetDecision decision before r).decisions = r.decisions.erase
      (keyOf decision.contract decision.contractGeneration) from rfl] at held
    by_cases eq : key = keyOf decision.contract decision.contractGeneration
    · subst eq
      rw [AList.lookup_erase] at held
      cases held
    · rw [AList.lookup_erase_ne eq] at held
      exact recorded.decision key other held

theorem lookup_loadedDecisions (entries : List (Text × ContractDecision))
    (each : ∀ entry ∈ entries, entry.1 = keyOf entry.2.contract entry.2.contractGeneration ∧
      entry.2.Settled) : loadedDecisions entries = entries := by
  unfold loadedDecisions
  conv_rhs => rw [← List.map_id entries]
  apply List.map_congr_left
  intro entry mem
  obtain ⟨key, settled⟩ := each entry mem
  dsimp only
  rw [settled.fixed, ← key]
  rfl

theorem decisions_load (recorded : r.Recorded) (options : RegistryOptions) (store : Store)
    (clock : UInt64) (key : Text) :
    (r.load (.fresh options store clock)).decisions.lookup key = r.decisions.lookup key := by
  rw [load_eq]
  show AList.lookup key (Table.insertAll ∅ (loadedDecisions _)) = _
  rw [lookup_loadedDecisions]
  · exact Table.lookup_insertAll_keys
      (fun key mem => mem_sortTexts.mpr (AList.mem_keys.mp mem)) key
  · intro entry mem
    exact recorded.decision entry.1 entry.2 (Table.select_keys_mem.mp mem).2

theorem load (recorded : r.Recorded) (options : RegistryOptions) (store : Store) (clock : UInt64) :
    (r.load (.fresh options store clock)).Recorded where
  conflicts := by
    rw [load_eq]
    exact recorded.conflicts
  decision key decision held := by
    rw [recorded.decisions_load] at held
    exact recorded.decision key decision held

end Registry.Recorded

end QoSFabric
