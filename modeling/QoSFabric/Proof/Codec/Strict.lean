import QoSFabric.Proof.Codec.Inversion

/-!
# Records read to the letter

Whatever a decoder accepts, it has read the bytes that an encoder writes for what it yields: there
is one spelling of a record, up to the order of its predicates. What stands behind the record is not
looked at.
-/

namespace QoSFabric

variable {α : Type} {limit : Nat}

section Definitions

theorem spells_qosClass : Spells id decodeQoSClass fun value (w : ByteWriter limit) => spellQoSClass value w := by
  unfold decodeQoSClass
  refine Spells.bind spells_header.inverts fun _ => ?_
  refine Spells.bind spells_identifier.inverts fun id => ?_
  refine Spells.bind inverts_u64 fun generation => ?_
  refine Spells.bind inverts_str fun label => ?_
  refine Spells.bind spells_optionalU64.inverts fun minRateBps => ?_
  refine Spells.bind spells_optionalU64.inverts fun maxRateBps => ?_
  refine Spells.bind spells_optionalU64.inverts fun peakRateBps => ?_
  refine Spells.bind spells_optionalU64.inverts fun maxLatencyUs => ?_
  refine Spells.bind spells_optionalU64.inverts fun maxJitterUs => ?_
  refine Spells.bind spells_optionalU32.inverts fun maxLossPpm => ?_
  refine Spells.bind spells_optionalU64.inverts fun burstBytes => ?_
  refine Spells.bind spells_optionalU64.inverts fun burstIntervalUs => ?_
  refine Spells.bind spells_optionalU64.inverts fun minMtuBytes => ?_
  refine Spells.bind spells_enum.inverts fun isolation => ?_
  refine Spells.bind spells_enum.inverts fun treatment => ?_
  refine Spells.bind inverts_u32 fun minPriorityRank => ?_
  refine Spells.bind inverts_u32 fun minDisjointPaths => ?_
  refine Spells.bind inverts_presence fun requiresReservation => ?_
  refine Spells.bind inverts_predicates fun requiredPredicates => ?_
  refine Spells.bind inverts_presence fun allowDegrade => ?_
  refine Spells.bind inverts_u32 fun degradeMaxRelaxationPpm => ?_
  refine Spells.bind spells_enum.inverts fun violationPolicy => ?_
  refine Spells.bind inverts_u64 fun publishedEpoch => ?_
  refine Spells.bind spells_provenance.inverts fun provenance => ?_
  refine Spells.last spells_sound fun _ => ?_
  exact Closes.lift (Closes.pure fun _ => rfl)

theorem spells_policy : Spells id decodePolicy fun value (w : ByteWriter limit) => spellPolicy value w := by
  unfold decodePolicy
  refine Spells.bind spells_header.inverts fun _ => ?_
  refine Spells.bind spells_identifier.inverts fun id => ?_
  refine Spells.bind inverts_u64 fun generation => ?_
  refine Spells.bind inverts_str fun label => ?_
  refine Spells.bind inverts_presence fun degradePermitted => ?_
  refine Spells.bind inverts_u32 fun maxRelaxationPpm => ?_
  refine Spells.bind inverts_u32 fun maxStaleEpochs => ?_
  refine Spells.bind inverts_u64 fun capabilityMaxAgeMs => ?_
  refine Spells.bind inverts_u32 fun maxUnknownComponents => ?_
  refine Spells.bind inverts_predicates fun requiredPredicates => ?_
  refine Spells.assoc (inverts_list spells_identifier.inverts) fun deniedClasses => ?_
  refine Spells.bind inverts_u64 fun publishedEpoch => ?_
  refine Spells.bind spells_provenance.inverts fun provenance => ?_
  refine Spells.last spells_sound fun _ => ?_
  exact Closes.lift (Closes.pure fun _ => rfl)

theorem spells_component :
    Spells id decodeComponent fun value (w : ByteWriter limit) => encodeComponent w value := by
  unfold decodeComponent
  refine Spells.bind spells_identifier.inverts fun resource => ?_
  refine Spells.bind inverts_u64 fun capabilityGeneration => ?_
  refine Spells.bind spells_identifier.inverts fun diversityDomain => ?_
  refine Spells.last spells_enum fun role => ?_
  exact Closes.pure fun _ => rfl

theorem spells_path : Spells id decodePath fun value (w : ByteWriter limit) => encodePath value w := by
  unfold decodePath
  refine Spells.bind spells_header.inverts fun _ => ?_
  refine Spells.bind spells_identifier.inverts fun id => ?_
  refine Spells.bind inverts_u64 fun generation => ?_
  refine Spells.assoc (inverts_list spells_component.inverts) fun components => ?_
  refine Spells.bind inverts_u64 fun fixedLatencyUs => ?_
  refine Spells.bind inverts_u64 fun fixedJitterUs => ?_
  refine Spells.bind inverts_u64 fun epoch => ?_
  refine Spells.bind spells_provenance.inverts fun provenance => ?_
  refine Spells.last spells_sound fun _ => ?_
  exact Closes.lift (Closes.pure fun _ => rfl)

theorem spells_capability : Spells id decodeCapability fun value (w : ByteWriter limit) => spellCapability value w := by
  unfold decodeCapability
  refine Spells.bind spells_header.inverts fun _ => ?_
  refine Spells.bind spells_identifier.inverts fun resource => ?_
  refine Spells.bind inverts_u64 fun generation => ?_
  refine Spells.bind inverts_u64 fun epoch => ?_
  refine Spells.bind spells_identifier.inverts fun publisher => ?_
  refine Spells.bind inverts_u64 fun incarnation => ?_
  refine Spells.bind inverts_u64 fun publishedAtMs => ?_
  refine Spells.bind inverts_u64 fun expiresAtMs => ?_
  refine Spells.bind spells_enum.inverts fun state => ?_
  refine Spells.bind spells_optionalU64.inverts fun supportedRateBps => ?_
  refine Spells.bind spells_optionalU64.inverts fun latencyBoundUs => ?_
  refine Spells.bind spells_optionalU64.inverts fun jitterBoundUs => ?_
  refine Spells.bind spells_optionalU32.inverts fun lossPpm => ?_
  refine Spells.bind spells_optionalU64.inverts fun maxBurstBytes => ?_
  refine Spells.bind spells_optionalU64.inverts fun burstWindowUs => ?_
  refine Spells.bind spells_optionalU64.inverts fun mtuBytes => ?_
  refine Spells.bind spells_enum.inverts fun maxIsolation => ?_
  refine Spells.bind spells_enum.inverts fun maxTreatment => ?_
  refine Spells.bind inverts_u32 fun maxPriorityRank => ?_
  refine Spells.bind inverts_predicates fun predicates => ?_
  refine Spells.bind spells_identifier.inverts fun diversityDomain => ?_
  refine Spells.bind spells_provenance.inverts fun provenance => ?_
  refine Spells.last spells_sound fun _ => ?_
  exact Closes.lift (Closes.pure fun _ => rfl)

theorem spells_reservation : Spells id decodeReservation fun value (w : ByteWriter limit) => encodeReservation value w := by
  unfold decodeReservation
  refine Spells.bind spells_header.inverts fun _ => ?_
  refine Spells.bind spells_identifier.inverts fun resource => ?_
  refine Spells.bind inverts_u64 fun generation => ?_
  refine Spells.bind spells_identifier.inverts fun classId => ?_
  refine Spells.bind inverts_u64 fun classGeneration => ?_
  refine Spells.bind inverts_u64 fun reservedMinRateBps => ?_
  refine Spells.bind inverts_u64 fun reservedBurstBytes => ?_
  refine Spells.bind inverts_u64 fun epoch => ?_
  refine Spells.bind spells_identifier.inverts fun publisher => ?_
  refine Spells.bind inverts_u64 fun incarnation => ?_
  refine Spells.bind inverts_u64 fun expiresAtMs => ?_
  refine Spells.bind spells_provenance.inverts fun provenance => ?_
  refine Spells.last spells_sound fun _ => ?_
  exact Closes.lift (Closes.pure fun _ => rfl)

theorem spells_entity (kind : EntityKind) :
    Spells id kind.decode fun value (w : ByteWriter limit) => kind.spell value w := by
  cases kind with
  | «class» => exact spells_qosClass
  | policy => exact spells_policy
  | path => exact spells_path
  | capability => exact spells_capability
  | reservation => exact spells_reservation

end Definitions

section Decisions

theorem spells_assessment :
    Spells id decodeAssessment fun value (w : ByteWriter limit) => encodeAssessment w value := by
  unfold decodeAssessment
  refine Spells.bind inverts_u8 fun rawKind => ?_
  refine Spells.bind inverts_str fun id => ?_
  refine Spells.bind inverts_presence fun binding => ?_
  refine Spells.bind inverts_presence fun relaxable => ?_
  refine Spells.bind inverts_u8 fun rawDirection => ?_
  refine Spells.bind inverts_u8 fun rawAggregate => ?_
  refine Spells.bind inverts_presence fun pathLevel => ?_
  refine Spells.bind inverts_u64 fun requiredValue => ?_
  refine Spells.bind inverts_u64 fun effectiveLimit => ?_
  refine Spells.bind spells_optionalU64.inverts fun composedValue => ?_
  refine Spells.bind inverts_u32 fun relaxationAppliedPpm => ?_
  refine Spells.bind inverts_presence fun relaxationReportedOnly => ?_
  refine Spells.bind inverts_u8 fun rawStatus => ?_
  refine Spells.bind spells_sound.inverts fun _ => ?_
  apply Spells.require
  rintro kind rfl
  apply Spells.require
  rintro direction rfl
  apply Spells.require
  rintro aggregate rfl
  apply Spells.require
  rintro status rfl
  refine Spells.bind spells_optionalResource.inverts fun bindingResource => ?_
  refine Spells.bind spells_optionalResource.inverts fun weakestResource => ?_
  refine Spells.bind inverts_u32 fun headroomPpm => ?_
  refine Spells.bind inverts_str fun detail => ?_
  refine Spells.last spells_sound fun _ => ?_
  exact Closes.pure fun _ => rfl

theorem spells_resource :
    Spells id decodeResource fun value (w : ByteWriter limit) => encodeResource w value := by
  unfold decodeResource
  refine Spells.bind inverts_str fun resource => ?_
  refine Spells.bind inverts_str fun diversityDomain => ?_
  refine Spells.bind inverts_u8 fun rawRole => ?_
  refine Spells.bind inverts_u64 fun boundCapabilityGeneration => ?_
  refine Spells.bind spells_optionalU64.inverts fun observedCapabilityGeneration => ?_
  refine Spells.bind spells_optionalU64.inverts fun observedIncarnation => ?_
  refine Spells.bind inverts_u8 fun rawStatus => ?_
  refine Spells.bind inverts_presence fun selfDeclaredDegraded => ?_
  refine Spells.bind inverts_str fun reason => ?_
  refine Spells.last spells_sound fun _ => ?_
  apply Closes.require
  rintro role rfl
  apply Closes.require
  rintro status rfl
  exact Closes.pure fun _ => rfl

theorem spells_degradation :
    Spells id decodeDegradation fun value (w : ByteWriter limit) => encodeDegradation w value := by
  unfold decodeDegradation
  refine Spells.bind inverts_u8 fun rawKind => ?_
  refine Spells.bind inverts_str fun id => ?_
  refine Spells.bind spells_optionalResource.inverts fun resource => ?_
  refine Spells.bind inverts_u32 fun relaxationPpm => ?_
  refine Spells.bind inverts_presence fun reportedOnly => ?_
  refine Spells.bind inverts_str fun detail => ?_
  refine Spells.last spells_sound fun _ => ?_
  apply Closes.require
  rintro kind rfl
  exact Closes.pure fun _ => rfl

theorem spells_authority :
    Spells id decodeAuthority fun value (w : ByteWriter limit) => encodeAuthority w value := by
  unfold decodeAuthority
  refine Spells.bind inverts_u8 fun rawDimension => ?_
  refine Spells.bind inverts_str fun id => ?_
  refine Spells.bind inverts_u64 fun generation => ?_
  refine Spells.bind inverts_str fun digestHex => ?_
  refine Spells.bind inverts_u64 fun epoch => ?_
  refine Spells.bind inverts_str fun source => ?_
  refine Spells.last spells_sound fun _ => ?_
  apply Closes.require
  rintro dimension rfl
  exact Closes.pure fun _ => rfl

theorem spells_bindingObligation : Spells id decodeBindingObligation
    fun value (w : ByteWriter limit) => encodeBindingObligation w value := by
  unfold decodeBindingObligation
  refine Spells.bind inverts_presence fun present => ?_
  cases present with
  | false => exact Spells.last spells_sound fun _ => Closes.pure fun _ => rfl
  | true =>
      refine Spells.bind spells_sound.inverts fun _ => ?_
      exact Spells.last spells_enum fun kind => Closes.pure fun _ => rfl

theorem spells_decision : SpellsBefore (· = []) id decodeDecision
    fun value (w : ByteWriter limit) => encodeDecision value w := by
  unfold decodeDecision
  refine Spells.bind inverts_u16 fun tag => ?_
  refine Spells.bind inverts_u16 fun version => ?_
  refine Spells.bind spells_sound.inverts fun _ => ?_
  refine Spells.guard fun tagged => ?_
  obtain ⟨rfl, rfl⟩ : tag = tagDecision ∧ version = schemaVersion := by simpa using tagged
  refine Spells.bind inverts_str fun contract => ?_
  refine Spells.bind inverts_u64 fun contractGeneration => ?_
  refine Spells.bind spells_enum.inverts fun outcome => ?_
  refine Spells.bind inverts_str fun classId => ?_
  refine Spells.bind inverts_u64 fun classGeneration => ?_
  refine Spells.bind inverts_digest fun classDigest => ?_
  refine Spells.bind inverts_str fun subject => ?_
  refine Spells.bind inverts_u64 fun subjectGeneration => ?_
  refine Spells.bind inverts_str fun path => ?_
  refine Spells.bind inverts_u64 fun pathGeneration => ?_
  refine Spells.bind inverts_digest fun pathDigest => ?_
  refine Spells.bind inverts_str fun policy => ?_
  refine Spells.bind inverts_u64 fun policyGeneration => ?_
  refine Spells.bind inverts_digest fun policyDigest => ?_
  refine Spells.bind inverts_str fun priority => ?_
  refine Spells.bind inverts_u64 fun priorityGeneration => ?_
  refine Spells.bind inverts_u64 fun fabricEpoch => ?_
  refine Spells.bind inverts_u64 fun observedEpoch => ?_
  refine Spells.bind inverts_u64 fun decidedAtMs => ?_
  refine Spells.bind spells_sound.inverts fun _ => ?_
  refine Spells.bind (inverts_list spells_assessment.inverts) fun obligations => ?_
  refine Spells.bind (inverts_list spells_resource.inverts) fun resources => ?_
  refine Spells.bind (inverts_list spells_degradation.inverts) fun degradations => ?_
  refine Spells.bind (inverts_list spells_authority.inverts) fun authority => ?_
  refine Spells.bind spells_bindingObligation.inverts fun bindingObligation => ?_
  refine Spells.bind spells_optionalResource.inverts fun bindingResource => ?_
  refine Spells.bind inverts_u32 fun unknownComponents => ?_
  refine Spells.bind inverts_u32 fun violatedObligations => ?_
  refine Spells.bind inverts_u32 fun unsatisfiedDiversityDomains => ?_
  refine Spells.bind inverts_str fun primaryReason => ?_
  refine Spells.bind inverts_digest fun requestDigest => ?_
  refine Spells.bind inverts_u64 fun epoch => ?_
  refine Spells.bind_yields inverts_str yields_str fun origin short => ?_
  refine Spells.bind spells_sound.inverts fun _ => ?_
  refine Spells.ended fun w => ?_
  rw [Provenance.make, List.take_of_length_le short]
  rfl

end Decisions

namespace EntityKind

/-- The bytes are the canonical encoding of a valid definition, up to the order of its predicates. -/
def Canonical (kind : EntityKind) (bytes : Bytes) : Prop :=
  ∃ value, kind.validate value = .ok () ∧
    (kind.spell value (.empty : ByteWriter Limits.maxCanonicalRecordBytes)).data = some bytes

def Taken (kind : EntityKind) (bytes : Bytes) : Prop :=
  ∃ value reader, kind.decode (.ofBytes bytes) = .ok (value, reader)

/-- No shorter front of the bytes is a record. -/
def Bare (kind : EntityKind) (bytes : Bytes) : Prop :=
  ∀ front, front <+: bytes → kind.Taken front → front = bytes

end EntityKind

variable {kind : EntityKind}

theorem readable_of_decoded {value : kind.Carrier} (decoded : kind.Decoded value) :
    kind.Readable value :=
  readable_of_declares decoded.valid decoded.declares

theorem spelled_of_taken {bytes : Bytes} (taken : kind.Taken bytes) :
    ∃ value record rest, kind.Decoded value ∧ bytes = record ++ rest ∧
      (kind.spell value (.empty : ByteWriter Limits.maxCanonicalRecordBytes)).data = some record := by
  obtain ⟨value, reader, read⟩ := taken
  have decoded := (yields_entity kind).ok _ _ _ read
  obtain ⟨record, rest, -, -, eq, written⟩ := spells_entity kind _ _ _ read
  refine ⟨value, record, rest, decoded, Option.some.inj (congrArg ByteReader.remaining eq), ?_⟩
  have spelled : kind.spell value (.empty : ByteWriter Limits.maxCanonicalRecordBytes) =
      ByteWriter.empty.raw record := written .empty
  obtain ⟨whole, data, -⟩ := within_spell decoded.valid decoded.origin
  rw [spelled, ByteWriter.data_raw_empty] at data ⊢
  split at data
  next fits => exact if_pos fits
  · cases data

theorem decode_spelled {value : kind.Carrier} {record : Bytes} (decoded : kind.Decoded value)
    (written : (kind.spell value (.empty : ByteWriter Limits.maxCanonicalRecordBytes)).data =
      some record) (rest : Bytes) :
    kind.decode (.ofBytes (record ++ rest)) = .ok (kind.digested value, ⟨some rest⟩) := by
  have readable : True → kind.Readable value := fun _ => readable_of_decoded decoded
  cases (codes_spell kind value readable).reads written rest trivial with
  | inl read => exact read
  | inr refused => exact absurd trivial refused.1

theorem canonical_iff_bare {bytes : Bytes} (taken : kind.Taken bytes) :
    kind.Canonical bytes ↔ kind.Bare bytes := by
  constructor
  · rintro ⟨whole, valid, written⟩ front ⟨tail, rfl⟩ short
    obtain ⟨value, record, rest, decoded, rfl, spelled⟩ := spelled_of_taken short
    have read := decode_spelled decoded spelled (rest ++ tail)
    rw [← List.append_assoc] at read
    have alone := (codes_spell kind whole fun good => good).reads written [] trivial
    rw [List.append_nil] at alone
    cases alone with
    | inl reads =>
        have same := read.symm.trans reads
        have nothing : rest ++ tail = [] :=
          Option.some.inj (congrArg ByteReader.remaining (congrArg Prod.snd (Except.ok.inj same)))
        obtain ⟨rfl, rfl⟩ := List.append_eq_nil_iff.mp nothing
        exact (List.append_nil _).symm
    | inr refused =>
        obtain ⟨-, e, failed⟩ := refused
        cases read.symm.trans failed
  · intro bare
    obtain ⟨value, record, rest, decoded, rfl, spelled⟩ := spelled_of_taken taken
    have read := decode_spelled decoded spelled []
    rw [List.append_nil] at read
    rw [← bare record (List.prefix_append _ _) ⟨_, _, read⟩]
    exact ⟨value, decoded.valid, spelled⟩

/-- The bytes of the blob at the front of a reader, and what is left of it. -/
def Blob (reader reader' : ByteReader) (raw : Bytes) : Prop :=
  ∃ rest, reader = ⟨some (LittleEndian.encode 4 raw.length ++ raw ++ rest)⟩ ∧ reader' = ⟨some rest⟩

theorem readBlob_eq_ok {item : Decode α} {reader reader' : ByteReader} {a : α}
    (read : readBlob item reader = .ok (a, reader')) :
    ∃ raw inner, Blob reader reader' raw ∧ raw.length ≤ Limits.maxCanonicalRecordBytes ∧
      item (.ofBytes raw) = .ok (a, inner) := by
  obtain ⟨raw, between, read₁, read₂⟩ := bind_eq_ok_iff.mp read
  obtain ⟨⟨⟩, between', read₃, read₄⟩ := bind_eq_ok_iff.mp read₂
  have short : raw.length ≤ Limits.maxCanonicalRecordBytes := yields_str.ok _ _ _ read₁
  obtain ⟨remaining⟩ := between
  cases remaining with
  | none => cases read₃
  | some rest =>
      cases read₃
      have front := Read.str_of_good (Except.ok.inj read₁)
      cases inner : item (.ofBytes raw) with
      | error e =>
          rw [inner] at read₄
          cases read₄
      | ok x =>
          rw [inner] at read₄
          cases read₄
          exact ⟨raw, x.2, ⟨rest, front, rfl⟩, short, inner⟩

theorem taken_of_applyRecord {r r' : Registry} {sequence : Sequence} {payload : Bytes}
    (applied : r.applyRecord ⟨kind.recordType, sequence, payload⟩ = .ok r') : kind.Taken payload := by
  have entity : r.applyEntity kind payload = .ok r' := by
    cases kind <;> exact applied
  obtain ⟨⟨value, reader⟩, read, -⟩ := Decode.map_eq_ok.mp entity
  exact ⟨value, reader, read⟩

theorem decision_spelled {raw : Bytes} {decision : ContractDecision} {reader : ByteReader}
    (short : raw.length ≤ Limits.maxCanonicalRecordBytes)
    (read : decodeDecision (.ofBytes raw) = .ok (decision, reader)) :
    (encodeDecision decision (.empty : ByteWriter Limits.maxCanonicalRecordBytes)).data =
      some raw := by
  obtain ⟨record, rest, rfl, -, eq, written⟩ := spells_decision _ _ _ read
  have same : raw = record ++ [] := Option.some.inj (congrArg ByteReader.remaining eq)
  rw [List.append_nil] at same
  have spelled : encodeDecision decision (.empty : ByteWriter Limits.maxCanonicalRecordBytes) =
      ByteWriter.empty.raw record := written .empty
  rw [spelled, ByteWriter.data_raw_empty, ← same, if_pos short]

/-- A durable record is spelled to its end exactly when no shorter record stands at its front. The
decoder of decisions alone takes nothing else. -/
theorem records_strict_iff (kind : EntityKind) :
    (∀ (r r' : Registry) (sequence : Sequence) (payload : Bytes),
      r.applyRecord ⟨kind.recordType, sequence, payload⟩ = .ok r' →
        (kind.Canonical payload ↔ kind.Bare payload)) ∧
    (∀ (reader reader' : ByteReader) (value : kind.Carrier),
      readBlob kind.decode reader = .ok (value, reader') →
        ∃ raw, Blob reader reader' raw ∧ (kind.Canonical raw ↔ kind.Bare raw)) ∧
    ∀ (reader reader' : ByteReader) (decision : ContractDecision),
      readBlob decodeDecision reader = .ok (decision, reader') →
        ∃ raw, Blob reader reader' raw ∧
          (encodeDecision decision (.empty : ByteWriter Limits.maxCanonicalRecordBytes)).data =
            some raw := by
  refine ⟨?_, ?_, ?_⟩
  · intro r r' sequence payload applied
    exact canonical_iff_bare (taken_of_applyRecord applied)
  · intro reader reader' value read
    obtain ⟨raw, inner, blob, -, taken⟩ := readBlob_eq_ok read
    exact ⟨raw, blob, canonical_iff_bare ⟨value, inner, taken⟩⟩
  · intro reader reader' decision read
    obtain ⟨raw, inner, blob, short, taken⟩ := readBlob_eq_ok read
    exact ⟨raw, blob, decision_spelled short taken⟩

theorem capability_record : ∃ record, ∀ rest, EntityKind.capability.Taken (record ++ rest) := by
  have trip : RoundTrips (encodeCapability Proof.Engine.plainCapability) decodeCapability
      Proof.Engine.plainCapability.readBack :=
    @roundTrips_entity .capability Proof.Engine.plainCapability (by decide +kernel)
      (Nat.zero_le _) (show Proof.Engine.plainCapability.diversityDomain ≠ [] by decide)
  obtain ⟨bytes, -, reader, read, -⟩ := trip
  obtain ⟨value, record, rest, decoded, -, written⟩ :=
    @spelled_of_taken .capability bytes ⟨_, reader, read⟩
  exact ⟨record, fun rest => ⟨_, _, decode_spelled decoded written rest⟩⟩

theorem applyRecord_of_taken {payload : Bytes} (taken : kind.Taken payload) (r : Registry) :
    ∃ r', r.applyRecord ⟨kind.recordType, 1, payload⟩ = .ok r' := by
  obtain ⟨value, reader, read⟩ := taken
  have applied : r.applyEntity kind payload = .ok (r.push kind value) := by
    rw [Registry.applyEntity, read]
    rfl
  cases kind <;> exact ⟨_, applied⟩

def blankRegistry : Registry := .fresh .default (.fresh RegistryOptions.default.store) 0

theorem records_strict_iff_capability : ∃ payload r',
    blankRegistry.applyRecord ⟨.publishCapability, 1, payload⟩ = .ok r' ∧
      (EntityKind.capability.Canonical payload ↔ EntityKind.capability.Bare payload) := by
  obtain ⟨record, taken⟩ := capability_record
  obtain ⟨r', applied⟩ := applyRecord_of_taken (taken []) blankRegistry
  exact ⟨_, r', applied, (records_strict_iff .capability).1 _ _ _ _ applied⟩

/-- A capability record is taken with a byte behind it. -/
theorem record_trailed : ¬∀ (kind : EntityKind) (r r' : Registry) (sequence : Sequence)
    (payload : Bytes), r.applyRecord ⟨kind.recordType, sequence, payload⟩ = .ok r' →
      kind.Canonical payload := by
  intro strict
  obtain ⟨record, taken⟩ := capability_record
  obtain ⟨r', applied⟩ := applyRecord_of_taken (taken [0]) blankRegistry
  have bare := (canonical_iff_bare (taken [0])).mp (strict .capability _ _ _ _ applied)
  have alone := taken []
  rw [List.append_nil] at alone
  have same := congrArg List.length (bare record (List.prefix_append _ _) alone)
  rw [List.length_append, List.length_singleton] at same
  omega

end QoSFabric
