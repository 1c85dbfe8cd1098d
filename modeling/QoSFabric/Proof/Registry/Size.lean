import QoSFabric.Model.Authority
import QoSFabric.Proof.Codec.Size

namespace QoSFabric

/-- The identifiers of a request are as short as those of a definition. -/
structure ContractRequest.Short (request : ContractRequest) : Prop where
  contract : request.contract.length ≤ Limits.maxIdentifierLen
  subject : request.subject.length ≤ Limits.maxIdentifierLen
  classId : request.classId.length ≤ Limits.maxIdentifierLen
  path : request.path.length ≤ Limits.maxIdentifierLen
  policy : request.policy.length ≤ Limits.maxIdentifierLen
  priority : request.priority.length ≤ Limits.maxIdentifierLen

theorem within_rejection {request : ContractRequest} (short : request.Short) (r : Registry)
    (reason : Text) :
    (encodeDecision (r.rejection request reason)
      (.empty : ByteWriter Limits.maxCanonicalRecordBytes)).Within 1800 := by
  have writer := (@ByteWriter.Within.empty Limits.maxCanonicalRecordBytes)
    |>.u16 tagDecision (by decide)
    |>.u16 schemaVersion (by decide)
    |>.str request.contract short.contract (by decide)
    |>.u64 request.contractGeneration (by decide)
    |>.u8 Outcome.rejected.value (by decide)
    |>.str request.classId short.classId (by decide)
    |>.u64 request.classGeneration (by decide)
    |>.digest .zero (by decide)
    |>.str request.subject short.subject (by decide)
    |>.u64 request.subjectGeneration (by decide)
    |>.str request.path short.path (by decide)
    |>.u64 request.pathGeneration (by decide)
    |>.digest .zero (by decide)
    |>.str request.policy short.policy (by decide)
    |>.u64 request.policyGeneration (by decide)
    |>.digest .zero (by decide)
    |>.str request.priority short.priority (by decide)
    |>.u64 request.priorityGeneration (by decide)
    |>.u64 r.currentEpoch (by decide)
    |>.u64 request.observedEpoch (by decide)
    |>.u64 r.nowMs (by decide)
    |>.counted_nil encodeAssessment (by decide)
    |>.counted_nil encodeResource (by decide)
    |>.counted_nil encodeDegradation (by decide)
    |>.u32 1 (by decide)
    |>.u8 Dimension.fabricEpoch.value (by decide)
    |>.str (text "fabric") (show _ ≤ Limits.maxIdentifierLen by decide) (by decide)
    |>.u64 r.currentEpoch (by decide)
    |>.str [] (show _ ≤ 64 by decide) (by decide)
    |>.u64 r.currentEpoch (by decide)
    |>.str (text "registry") (show _ ≤ Limits.maxOriginLen by decide) (by decide)
    |>.u8 0 (by decide)
    |>.u8 0 (by decide)
    |>.u32 0 (by decide)
    |>.u32 0 (by decide)
    |>.u32 0 (by decide)
    |>.str _ (List.length_take_le Limits.maxReasonLen reason) (by decide)
    |>.digest request.computeDigest (by decide)
    |>.u64 r.currentEpoch (by decide)
    |>.str (text "registry") (show _ ≤ Limits.maxOriginLen by decide) (by decide)
  exact writer.mono (by decide)

def ObligationAssessment.Short (a : ObligationAssessment) : Prop :=
  a.id.length ≤ Limits.maxIdentifierLen ∧
    (a.bindingResource.getD []).length ≤ Limits.maxIdentifierLen ∧
    (a.weakestResource.getD []).length ≤ Limits.maxIdentifierLen ∧
    a.detail.length ≤ Limits.maxDetailLen

instance : DecidablePred ObligationAssessment.Short := fun a =>
  inferInstanceAs (Decidable (a.id.length ≤ _ ∧ _ ∧ _ ∧ a.detail.length ≤ _))

def ResourceAssessment.Short (a : ResourceAssessment) : Prop :=
  a.resource.length ≤ Limits.maxIdentifierLen ∧
    a.diversityDomain.length ≤ Limits.maxIdentifierLen ∧ a.reason.length ≤ Limits.maxReasonLen

instance : DecidablePred ResourceAssessment.Short := fun a =>
  inferInstanceAs (Decidable (a.resource.length ≤ _ ∧ a.diversityDomain.length ≤ _ ∧
    a.reason.length ≤ _))

def DegradationReason.Short (a : DegradationReason) : Prop :=
  a.id.length ≤ Limits.maxIdentifierLen ∧
    (a.resource.getD []).length ≤ Limits.maxIdentifierLen ∧ a.detail.length ≤ Limits.maxReasonLen

instance : DecidablePred DegradationReason.Short := fun a =>
  inferInstanceAs (Decidable (a.id.length ≤ _ ∧ _ ∧ a.detail.length ≤ _))

def AuthorityEntry.Short (a : AuthorityEntry) : Prop :=
  a.id.length ≤ Limits.maxIdentifierLen ∧ a.digestHex.length ≤ 64 ∧
    a.source.length ≤ Limits.maxOriginLen

instance : DecidablePred AuthorityEntry.Short := fun a =>
  inferInstanceAs (Decidable (a.id.length ≤ _ ∧ a.digestHex.length ≤ _ ∧ a.source.length ≤ _))

/-- A decision every list and text of which is within its budget. -/
structure ContractDecision.Short (decision : ContractDecision) : Prop where
  texts : ∀ value ∈ [decision.contract, decision.classId, decision.subject, decision.path,
    decision.policy, decision.priority, decision.bindingResource.getD []],
      value.length ≤ Limits.maxIdentifierLen
  obligations : decision.obligations.length ≤ Limits.maxObligations ∧
    ∀ a ∈ decision.obligations, a.Short
  resources : decision.resources.length ≤ Limits.maxPathComponents ∧
    ∀ a ∈ decision.resources, a.Short
  degradations : decision.degradations.length ≤ Limits.maxDegradations ∧
    ∀ a ∈ decision.degradations, a.Short
  authority : decision.authority.length ≤ Limits.maxAuthorityEntries ∧
    ∀ a ∈ decision.authority, a.Short
  reason : decision.primaryReason.length ≤ Limits.maxReasonLen
  origin : decision.provenance.origin.length ≤ Limits.maxOriginLen

instance : DecidablePred ContractDecision.Short := fun _ =>
  decidable_of_iff (_ ∧ (_ ∧ _) ∧ (_ ∧ _) ∧ (_ ∧ _) ∧ (_ ∧ _) ∧ _ ∧ _)
    ⟨fun ⟨texts, obligations, resources, degradations, authority, reason, origin⟩ =>
      ⟨texts, obligations, resources, degradations, authority, reason, origin⟩,
      fun ⟨texts, obligations, resources, degradations, authority, reason, origin⟩ =>
        ⟨texts, obligations, resources, degradations, authority, reason, origin⟩⟩

theorem within_assessment {limit bound : Nat} {w : ByteWriter limit} {a : ObligationAssessment}
    (short : a.Short) (within : w.Within bound) (fits : bound + 539 ≤ limit) :
    (encodeAssessment w a).Within (bound + 539) := by
  obtain ⟨id, binding, weakest, detail⟩ := short
  have identifiers : Limits.maxIdentifierLen = 96 := rfl
  have details : Limits.maxDetailLen = 192 := rfl
  have writer := within
    |>.u8 a.kind.value (by omega)
    |>.str a.id id (by omega)
    |>.presence a.binding (by omega)
    |>.presence a.relaxable (by omega)
    |>.u8 a.direction.value (by omega)
    |>.u8 a.aggregate.value (by omega)
    |>.presence a.pathLevel (by omega)
    |>.u64 a.requiredValue (by omega)
    |>.u64 a.effectiveLimit (by omega)
    |>.optionalU64 a.composedValue (by omega)
    |>.u32 a.relaxationAppliedPpm (by omega)
    |>.presence a.relaxationReportedOnly (by omega)
    |>.u8 a.status.value (by omega)
    |>.optionalResource binding (by omega)
    |>.optionalResource weakest (by omega)
    |>.u32 a.headroomPpm (by omega)
    |>.str a.detail detail (by omega)
  exact writer.mono (by omega)

theorem within_resource {limit bound : Nat} {w : ByteWriter limit} {a : ResourceAssessment}
    (short : a.Short) (within : w.Within bound) (fits : bound + 489 ≤ limit) :
    (encodeResource w a).Within (bound + 489) := by
  obtain ⟨resource, domain, reason⟩ := short
  have identifiers : Limits.maxIdentifierLen = 96 := rfl
  have reasons : Limits.maxReasonLen = 256 := rfl
  have writer := within
    |>.str a.resource resource (by omega)
    |>.str a.diversityDomain domain (by omega)
    |>.u8 a.role.value (by omega)
    |>.u64 a.boundCapabilityGeneration (by omega)
    |>.optionalU64 a.observedCapabilityGeneration (by omega)
    |>.optionalU64 a.observedIncarnation (by omega)
    |>.u8 a.status.value (by omega)
    |>.presence a.selfDeclaredDegraded (by omega)
    |>.str a.reason reason (by omega)
  exact writer.mono (by omega)

theorem within_degradation {limit bound : Nat} {w : ByteWriter limit} {a : DegradationReason}
    (short : a.Short) (within : w.Within bound) (fits : bound + 467 ≤ limit) :
    (encodeDegradation w a).Within (bound + 467) := by
  obtain ⟨id, resource, detail⟩ := short
  have identifiers : Limits.maxIdentifierLen = 96 := rfl
  have reasons : Limits.maxReasonLen = 256 := rfl
  have writer := within
    |>.u8 a.kind.value (by omega)
    |>.str a.id id (by omega)
    |>.optionalResource resource (by omega)
    |>.u32 a.relaxationPpm (by omega)
    |>.presence a.reportedOnly (by omega)
    |>.str a.detail detail (by omega)
  exact writer.mono (by omega)

theorem within_authority {limit bound : Nat} {w : ByteWriter limit} {a : AuthorityEntry}
    (short : a.Short) (within : w.Within bound) (fits : bound + 317 ≤ limit) :
    (encodeAuthority w a).Within (bound + 317) := by
  obtain ⟨id, digest, source⟩ := short
  have identifiers : Limits.maxIdentifierLen = 96 := rfl
  have origins : Limits.maxOriginLen = 128 := rfl
  have writer := within
    |>.u8 a.dimension.value (by omega)
    |>.str a.id id (by omega)
    |>.u64 a.generation (by omega)
    |>.str a.digestHex digest (by omega)
    |>.u64 a.epoch (by omega)
    |>.str a.source source (by omega)
  exact writer.mono (by omega)

theorem within_bindingObligation {limit bound : Nat} {w : ByteWriter limit}
    (kind : Option ObligationKind) (within : w.Within bound) (fits : bound + 2 ≤ limit) :
    (encodeBindingObligation w kind).Within (bound + 2) := by
  cases kind with
  | none => exact (within.presence false (by omega)).mono (by omega)
  | some kind => exact (within.presence true (by omega)).u8 kind.value (by omega)

theorem within_decision {decision : ContractDecision} (short : decision.Short) :
    (encodeDecision decision
      (.empty : ByteWriter Limits.maxCanonicalRecordBytes)).Within 400000 := by
  obtain ⟨texts, obligations, resources, degradations, authority, reason, origin⟩ := short
  simp only [List.forall_mem_cons, List.not_mem_nil, false_implies, implies_true, and_true] at texts
  obtain ⟨contract, klass, subject, path, policy, priority, binding⟩ := texts
  have lists := (@ByteWriter.Within.empty Limits.maxCanonicalRecordBytes)
    |>.u16 tagDecision (by decide)
    |>.u16 schemaVersion (by decide)
    |>.str decision.contract contract (by decide)
    |>.u64 decision.contractGeneration (by decide)
    |>.u8 decision.outcome.value (by decide)
    |>.str decision.classId klass (by decide)
    |>.u64 decision.classGeneration (by decide)
    |>.digest decision.classDigest (by decide)
    |>.str decision.subject subject (by decide)
    |>.u64 decision.subjectGeneration (by decide)
    |>.str decision.path path (by decide)
    |>.u64 decision.pathGeneration (by decide)
    |>.digest decision.pathDigest (by decide)
    |>.str decision.policy policy (by decide)
    |>.u64 decision.policyGeneration (by decide)
    |>.digest decision.policyDigest (by decide)
    |>.str decision.priority priority (by decide)
    |>.u64 decision.priorityGeneration (by decide)
    |>.u64 decision.fabricEpoch (by decide)
    |>.u64 decision.observedEpoch (by decide)
    |>.u64 decision.decidedAtMs (by decide)
    |>.counted 539 Limits.maxObligations obligations.1
      (fun a mem _ _ within fits => within_assessment (obligations.2 a mem) within fits)
      (by decide) (by decide)
    |>.counted 489 Limits.maxPathComponents resources.1
      (fun a mem _ _ within fits => within_resource (resources.2 a mem) within fits)
      (by decide) (by decide)
    |>.counted 467 Limits.maxDegradations degradations.1
      (fun a mem _ _ within fits => within_degradation (degradations.2 a mem) within fits)
      (by decide) (by decide)
    |>.counted 317 Limits.maxAuthorityEntries authority.1
      (fun a mem _ _ within fits => within_authority (authority.2 a mem) within fits)
      (by decide) (by decide)
  have writer := (within_bindingObligation decision.bindingObligation lists (by decide))
    |>.optionalResource binding (by decide)
    |>.u32 decision.unknownComponents (by decide)
    |>.u32 decision.violatedObligations (by decide)
    |>.u32 decision.unsatisfiedDiversityDomains (by decide)
    |>.str decision.primaryReason reason (by decide)
    |>.digest decision.requestDigest (by decide)
    |>.u64 decision.provenance.epoch (by decide)
    |>.str decision.provenance.origin origin (by decide)
  exact writer.mono (by decide)

end QoSFabric
