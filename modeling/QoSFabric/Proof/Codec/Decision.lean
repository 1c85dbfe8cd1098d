import QoSFabric.Proof.Codec.Fields
import QoSFabric.Model.Authority

namespace QoSFabric

variable {limit : Nat} {G : Prop}

theorem codes_assessment (value : ObligationAssessment) :
    Codes (fun w : ByteWriter limit => encodeAssessment w value) decodeAssessment value G := by
  unfold decodeAssessment
  show Codes (emitAll [fun w => w.u8 value.kind.value, fun w => w.ident value.id,
    fun w => w.presence value.binding, fun w => w.presence value.relaxable,
    fun w => w.u8 value.direction.value, fun w => w.u8 value.aggregate.value,
    fun w => w.presence value.pathLevel, fun w => w.u64 value.requiredValue,
    fun w => w.u64 value.effectiveLimit, fun w => w.optionalU64 value.composedValue,
    fun w => w.u32 value.relaxationAppliedPpm, fun w => w.presence value.relaxationReportedOnly,
    fun w => w.u8 value.status.value, fun w => w.optionalResource value.bindingResource,
    fun w => w.optionalResource value.weakestResource, fun w => w.u32 value.headroomPpm,
    fun w => w.str value.detail Limits.maxDetailLen]) _ _ G
  apply Codes.step (codes_u8 _)
  apply Codes.step (codes_str _ (by decide))
  apply Codes.step (codes_presence _)
  apply Codes.step (codes_presence _)
  apply Codes.step (codes_u8 _)
  apply Codes.step (codes_u8 _)
  apply Codes.step (codes_presence _)
  apply Codes.step (codes_u64 _)
  apply Codes.step (codes_u64 _)
  apply Codes.step (codes_optionalU64 _ _)
  apply Codes.step (codes_u32 _)
  apply Codes.step (codes_presence _)
  apply Codes.step (codes_u8 _)
  apply Codes.skip .sound
  apply Codes.skip (.require (a := value.kind) (by cases value.kind <;> rfl))
  apply Codes.skip (.require (a := value.direction) (by cases value.direction <;> rfl))
  apply Codes.skip (.require (a := value.aggregate) (by cases value.aggregate <;> rfl))
  apply Codes.skip (.require (a := value.status) (by cases value.status <;> rfl))
  apply Codes.step (codes_optionalResource _ _)
  apply Codes.step (codes_optionalResource _ _)
  apply Codes.step (codes_u32 _)
  apply Codes.step (codes_str _ (by decide))
  apply Codes.skip .sound
  exact Codes.done

theorem codes_resource (value : ResourceAssessment) :
    Codes (fun w : ByteWriter limit => encodeResource w value) decodeResource value G := by
  unfold decodeResource
  show Codes (emitAll [fun w => w.ident value.resource, fun w => w.ident value.diversityDomain,
    fun w => w.u8 value.role.value, fun w => w.u64 value.boundCapabilityGeneration,
    fun w => w.optionalU64 value.observedCapabilityGeneration,
    fun w => w.optionalU64 value.observedIncarnation, fun w => w.u8 value.status.value,
    fun w => w.presence value.selfDeclaredDegraded,
    fun w => w.str value.reason Limits.maxReasonLen]) _ _ G
  apply Codes.step (codes_str _ (by decide))
  apply Codes.step (codes_str _ (by decide))
  apply Codes.step (codes_u8 _)
  apply Codes.step (codes_u64 _)
  apply Codes.step (codes_optionalU64 _ _)
  apply Codes.step (codes_optionalU64 _ _)
  apply Codes.step (codes_u8 _)
  apply Codes.step (codes_presence _)
  apply Codes.step (codes_str _ (by decide))
  apply Codes.skip .sound
  apply Codes.skip (.require (a := value.role) (by cases value.role <;> rfl))
  apply Codes.skip (.require (a := value.status) (by cases value.status <;> rfl))
  exact Codes.done

theorem codes_degradation (value : DegradationReason) :
    Codes (fun w : ByteWriter limit => encodeDegradation w value) decodeDegradation value G := by
  unfold decodeDegradation
  show Codes (emitAll [fun w => w.u8 value.kind.value, fun w => w.ident value.id,
    fun w => w.optionalResource value.resource, fun w => w.u32 value.relaxationPpm,
    fun w => w.presence value.reportedOnly,
    fun w => w.str value.detail Limits.maxReasonLen]) _ _ G
  apply Codes.step (codes_u8 _)
  apply Codes.step (codes_str _ (by decide))
  apply Codes.step (codes_optionalResource _ _)
  apply Codes.step (codes_u32 _)
  apply Codes.step (codes_presence _)
  apply Codes.step (codes_str _ (by decide))
  apply Codes.skip .sound
  apply Codes.skip (.require (a := value.kind) (by cases value.kind <;> rfl))
  exact Codes.done

theorem codes_authority (value : AuthorityEntry) :
    Codes (fun w : ByteWriter limit => encodeAuthority w value) decodeAuthority value G := by
  unfold decodeAuthority
  show Codes (emitAll [fun w => w.u8 value.dimension.value, fun w => w.ident value.id,
    fun w => w.u64 value.generation, fun w => w.str value.digestHex 64,
    fun w => w.u64 value.epoch, fun w => w.str value.source Limits.maxOriginLen]) _ _ G
  apply Codes.step (codes_u8 _)
  apply Codes.step (codes_str _ (by decide))
  apply Codes.step (codes_u64 _)
  apply Codes.step (codes_str _ (by decide))
  apply Codes.step (codes_u64 _)
  apply Codes.step (codes_str _ (by decide))
  apply Codes.skip .sound
  apply Codes.skip (.require (a := value.dimension) (by cases value.dimension <;> rfl))
  exact Codes.done

theorem codes_bindingObligation (value : Option ObligationKind) :
    Codes (fun w : ByteWriter limit => encodeBindingObligation w value) decodeBindingObligation
      value G := by
  unfold decodeBindingObligation
  cases value with
  | none =>
      show Codes (emitAll [fun w => w.presence false]) _ none G
      apply Codes.step (codes_presence _)
      apply Codes.skip .sound
      exact Codes.done
  | some kind =>
      show Codes (emitAll [fun w => w.presence true, fun w => w.u8 kind.value]) _ (some kind) G
      apply Codes.step (codes_presence _)
      apply Codes.skip .sound
      apply Codes.step (codes_enum _ (by cases kind <;> rfl))
      exact Codes.done

structure ContractDecision.Listed (decision : ContractDecision) : Prop where
  obligations : decision.obligations.length ≤ Limits.maxObligations
  resources : decision.resources.length ≤ Limits.maxPathComponents
  degradations : decision.degradations.length ≤ Limits.maxDegradations
  authority : decision.authority.length ≤ Limits.maxAuthorityEntries

/-- What a decoder leaves of a decision. -/
def ContractDecision.readBack (decision : ContractDecision) : ContractDecision :=
  { decision with
    decisionDigest := .zero
    provenance := .make decision.provenance.origin decision.provenance.epoch 1 1 }

theorem codes_decision (value : ContractDecision) (listed : G → value.Listed) :
    CodesBefore (· = []) (encodeDecision value : ByteWriter limit → ByteWriter limit) decodeDecision
      value.readBack G := by
  unfold decodeDecision
  show CodesBefore _ (emitAll [fun w => w.u16 tagDecision, fun w => w.u16 schemaVersion,
    fun w => w.ident value.contract, fun w => w.u64 value.contractGeneration,
    fun w => w.u8 value.outcome.value, fun w => w.ident value.classId,
    fun w => w.u64 value.classGeneration, fun w => w.digest value.classDigest,
    fun w => w.ident value.subject, fun w => w.u64 value.subjectGeneration,
    fun w => w.ident value.path, fun w => w.u64 value.pathGeneration,
    fun w => w.digest value.pathDigest, fun w => w.ident value.policy,
    fun w => w.u64 value.policyGeneration, fun w => w.digest value.policyDigest,
    fun w => w.ident value.priority, fun w => w.u64 value.priorityGeneration,
    fun w => w.u64 value.fabricEpoch, fun w => w.u64 value.observedEpoch,
    fun w => w.u64 value.decidedAtMs, fun w => w.counted value.obligations encodeAssessment,
    fun w => w.counted value.resources encodeResource,
    fun w => w.counted value.degradations encodeDegradation,
    fun w => w.counted value.authority encodeAuthority,
    fun w => encodeBindingObligation w value.bindingObligation,
    fun w => w.optionalResource value.bindingResource, fun w => w.u32 value.unknownComponents,
    fun w => w.u32 value.violatedObligations, fun w => w.u32 value.unsatisfiedDiversityDomains,
    fun w => w.str value.primaryReason Limits.maxReasonLen, fun w => w.digest value.requestDigest,
    fun w => w.u64 value.provenance.epoch,
    fun w => w.str value.provenance.origin Limits.maxOriginLen]) _ _ G
  apply Codes.step (codes_u16 _)
  apply Codes.step (codes_u16 _)
  apply Codes.skip .sound
  apply Codes.passing (by decide)
  apply Codes.step (codes_str _ (by decide))
  apply Codes.step (codes_u64 _)
  apply Codes.step (codes_enum _ (by cases value.outcome <;> rfl))
  apply Codes.step (codes_str _ (by decide))
  apply Codes.step (codes_u64 _)
  apply Codes.step (codes_digest _ _)
  apply Codes.step (codes_str _ (by decide))
  apply Codes.step (codes_u64 _)
  apply Codes.step (codes_str _ (by decide))
  apply Codes.step (codes_u64 _)
  apply Codes.step (codes_digest _ _)
  apply Codes.step (codes_str _ (by decide))
  apply Codes.step (codes_u64 _)
  apply Codes.step (codes_digest _ _)
  apply Codes.step (codes_str _ (by decide))
  apply Codes.step (codes_u64 _)
  apply Codes.step (codes_u64 _)
  apply Codes.step (codes_u64 _)
  apply Codes.step (codes_u64 _)
  apply Codes.skip .sound
  apply Codes.step (codes_list (fun good => (listed good).obligations)
    fun item _ => codes_assessment item)
  apply Codes.step (codes_list (fun good => (listed good).resources)
    fun item _ => codes_resource item)
  apply Codes.step (codes_list (fun good => (listed good).degradations)
    fun item _ => codes_degradation item)
  apply Codes.step (codes_list (fun good => (listed good).authority)
    fun item _ => codes_authority item)
  apply Codes.step (codes_bindingObligation _)
  apply Codes.step (codes_optionalResource _ _)
  apply Codes.step (codes_u32 _)
  apply Codes.step (codes_u32 _)
  apply Codes.step (codes_u32 _)
  apply Codes.step (codes_str _ (by decide))
  apply Codes.step (codes_digest _ _)
  apply Codes.step (codes_u64 _)
  apply Codes.step (codes_str _ (by decide))
  apply Codes.skip .sound
  exact Codes.ended

theorem codes_marker (value : ConflictMarker) (message : String) :
    Codes (fun w : ByteWriter limit => encodeMarker w value) (decodeMarker message) value G := by
  unfold decodeMarker
  show Codes (emitAll [fun w => w.u8 value.scope.value, fun w => w.ident value.id,
    fun w => w.u64 value.generation, fun w => w.raw value.incumbentDigest.bytes,
    fun w => w.raw value.challengerDigest.bytes, fun w => w.u64 value.epoch,
    fun w => w.str value.detail Limits.maxReasonLen]) _ _ G
  apply Codes.step (codes_u8 _)
  apply Codes.step (codes_str _ (by decide))
  apply Codes.step (codes_u64 _)
  apply Codes.step (codes_raw value.incumbentDigest.size)
  apply Codes.step (codes_raw value.challengerDigest.size)
  apply Codes.step (codes_u64 _)
  apply Codes.step (codes_str _ (by decide))
  apply Codes.skip .sound
  apply Codes.skip (.require (a := value.scope) (by cases value.scope <;> rfl))
  dsimp only [Option.getD_some]
  rw [Digest256.ofBuffer_bytes, Digest256.ofBuffer_bytes]
  exact Codes.done

theorem codes_registration {publisher : Text} {incarnation : PublisherIncarnation}
    (valid : isValid publisher = true) (positive : incarnation ≠ 0) :
    Codes (emitAll [fun w : ByteWriter limit => w.ident publisher, fun w => w.u64 incarnation])
      Registry.decodeRegistration (publisher, incarnation) G := by
  unfold Registry.decodeRegistration
  apply Codes.step (codes_str _ (by decide))
  apply Codes.step (codes_u64 _)
  apply Codes.skip .sound
  apply Codes.passing (by simp [valid, positive])
  exact Codes.done

theorem decodeRegistration_leaseRecord {lease : PublisherLease} {origin : Text} {payload : Bytes}
    (valid : isValid lease.publisher = true) (positive : lease.incarnation ≠ 0)
    (written : (Registry.leaseRecord lease origin).data = some payload) :
    ∃ reader, Registry.decodeRegistration (.ofBytes payload) =
      .ok ((lease.publisher, lease.incarnation), reader) := by
  have appends : Appends (emitAll [fun w : ByteWriter 512 => w.raw lease.boot.bytes,
      fun w => w.u64 lease.grantedAtMs, fun w => w.u64 lease.expiresAtMs,
      fun w => w.str (origin.take Limits.maxOriginLen) Limits.maxOriginLen]) := by
    apply Appends.all
    simp only [List.forall_mem_cons, List.not_mem_nil, false_implies, implies_true, and_true]
    refine ⟨(codes_raw (G := True) rfl).appends, (codes_u64 (G := True) _).appends,
      (codes_u64 (G := True) _).appends, (codes_str (G := True) _ (by decide)).appends⟩
  cases (codes_registration (G := True) valid positive).front appends written with
  | inl read => exact read
  | inr refused => exact absurd trivial refused.1

theorem epochRecord_front {epoch : FabricEpoch} {reason : Text} {payload : Bytes}
    (written : (Registry.epochRecord epoch reason).data = some payload) :
    8 ≤ payload.length ∧ UInt64.ofNat (LittleEndian.decode (payload.take 8)) = epoch := by
  have appends : Appends fun w : ByteWriter 512 =>
      w.str (reason.take Limits.maxReasonLen) Limits.maxReasonLen :=
    (codes_str (G := True) _ (by decide)).appends
  obtain ⟨front, rest, data, rfl⟩ := appends _ payload written
  have front_eq : some (LittleEndian.encode 8 epoch.toNat) = some front := by
    rw [← data]
    show _ = ((ByteWriter.empty : ByteWriter 512).raw _).data
    rw [ByteWriter.data_raw_empty, LittleEndian.length_encode, if_pos (by decide)]
  obtain rfl := Option.some.inj front_eq
  have length : (LittleEndian.encode 8 epoch.toNat).length = 8 := LittleEndian.length_encode 8 _
  rw [List.length_append, List.take_left' length,
    LittleEndian.decode_encode_of_lt epoch.toNat_lt]
  exact ⟨by omega, UInt64.ofNat_toNat⟩

end QoSFabric
