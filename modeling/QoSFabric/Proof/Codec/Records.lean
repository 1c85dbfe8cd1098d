import QoSFabric.Proof.Codec.Definitions
import QoSFabric.Proof.Codec.Size
import QoSFabric.Proof.Codec.Yields
import QoSFabric.Proof.Engine.Evidence

/-!
# Records that are read back

A valid value fits its record, and its decoder reads the record back unless the value is a capability
without a failure domain. A decoder yields no such capability, so whatever it yields is written and
read back again.
-/

namespace QoSFabric

open Proof.Engine

variable {kind : EntityKind}

theorem length_of_isValidIdentifier {value : Text} {maxLen : Nat}
    (valid : isValidIdentifier value maxLen = true) : value.length ≤ maxLen := by
  unfold isValidIdentifier at valid
  rw [Bool.and_eq_true, Bool.and_eq_true, decide_eq_true_eq] at valid
  exact valid.1.2

theorem short_of_valid {value : Text} (valid : (!isValid value) = false) :
    value.length ≤ Limits.maxIdentifierLen :=
  length_of_isValidIdentifier (Bool.not_eq_eq_eq_not.mp valid)

theorem short_of_set {keys : List Text} (set : PredicateSet keys) :
    ∀ key ∈ keys, key.length ≤ Limits.maxPredicateKeyLen :=
  fun key mem => length_of_isValidIdentifier (set.valid key mem)

theorem within_spellQoSClass {value : QoSClass} (valid : validateQoSClass value = .ok ())
    (origin : value.provenance.origin.length ≤ Limits.maxOriginLen) :
    (spellQoSClass value (.empty : ByteWriter Limits.maxCanonicalRecordBytes)).Within 100000 := by
  have predicates := (validateQoSClass_ok valid).predicates
  simp only [validateQoSClass, refuse_bind_eq_ok] at valid
  obtain ⟨id, -, label, -⟩ := valid
  have id := short_of_valid id
  have label : value.label.length ≤ Limits.maxLabelLen := by simpa using label
  have writer := (@ByteWriter.Within.empty Limits.maxCanonicalRecordBytes)
    |>.header tagQoSClass (by decide)
    |>.ident id (by decide)
    |>.u64 value.generation (by decide)
    |>.str value.label label (by decide)
    |>.optionalU64 value.minRateBps (by decide)
    |>.optionalU64 value.maxRateBps (by decide)
    |>.optionalU64 value.peakRateBps (by decide)
    |>.optionalU64 value.maxLatencyUs (by decide)
    |>.optionalU64 value.maxJitterUs (by decide)
    |>.optionalU32 value.maxLossPpm (by decide)
    |>.optionalU64 value.burstBytes (by decide)
    |>.optionalU64 value.burstIntervalUs (by decide)
    |>.optionalU64 value.minMtuBytes (by decide)
    |>.u8 value.isolation.rank (by decide)
    |>.u8 value.treatment.rank (by decide)
    |>.u32 value.minPriorityRank (by decide)
    |>.u32 value.minDisjointPaths (by decide)
    |>.presence value.requiresReservation (by decide)
    |>.keys predicates.length_le (short_of_set predicates) (by decide) (by decide)
    |>.presence value.allowDegrade (by decide)
    |>.u32 value.degradeMaxRelaxationPpm (by decide)
    |>.u8 value.violationPolicy.value (by decide)
    |>.u64 value.publishedEpoch (by decide)
    |>.provenance origin (by decide)
  exact writer.mono (by decide)

theorem within_qosClass {value : QoSClass} (valid : validateQoSClass value = .ok ())
    (origin : value.provenance.origin.length ≤ Limits.maxOriginLen) :
    (encodeQoSClass value (.empty : ByteWriter Limits.maxCanonicalRecordBytes)).Within 100000 := by
  rw [encodeQoSClass_eq_spell]
  exact within_spellQoSClass ((validateQoSClass_readBack value).trans valid) origin

theorem within_spellPolicy {value : Policy} (valid : validatePolicy value = .ok ())
    (origin : value.provenance.origin.length ≤ Limits.maxOriginLen) :
    (spellPolicy value (.empty : ByteWriter Limits.maxCanonicalRecordBytes)).Within 100000 := by
  have predicates := validatePolicy_ok valid
  simp only [validatePolicy, refuse_bind_eq_ok, checkKeys_bind_eq_ok] at valid
  obtain ⟨id, -, label, -, -, -, -, -, -, -, -, few, ids, -⟩ := valid
  have label : value.label.length ≤ Limits.maxLabelLen := by simpa using label
  have few : value.deniedClasses.length ≤ Limits.maxClassesRetained := by simpa using few
  have ids : ∀ id ∈ value.deniedClasses, isValid id = true := by simpa using ids
  have writer := (@ByteWriter.Within.empty Limits.maxCanonicalRecordBytes)
    |>.header tagPolicy (by decide)
    |>.ident (short_of_valid id) (by decide)
    |>.u64 value.generation (by decide)
    |>.str value.label label (by decide)
    |>.presence value.degradePermitted (by decide)
    |>.u32 value.maxRelaxationPpm (by decide)
    |>.u32 value.maxStaleEpochs (by decide)
    |>.u64 value.capabilityMaxAgeMs (by decide)
    |>.u32 value.maxUnknownComponents (by decide)
    |>.keys predicates.length_le (short_of_set predicates) (by decide) (by decide)
    |>.counted 100 Limits.maxClassesRetained few
      (fun id mem _ _ within fits =>
        within.ident (length_of_isValidIdentifier (ids id mem)) fits)
      (by decide) (by decide)
    |>.u64 value.publishedEpoch (by decide)
    |>.provenance origin (by decide)
  exact writer.mono (by decide)

theorem within_policy {value : Policy} (valid : validatePolicy value = .ok ())
    (origin : value.provenance.origin.length ≤ Limits.maxOriginLen) :
    (encodePolicy value (.empty : ByteWriter Limits.maxCanonicalRecordBytes)).Within 100000 := by
  rw [encodePolicy_eq_spell]
  exact within_spellPolicy ((validatePolicy_readBack value).trans valid) origin

theorem within_component {limit bound : Nat} {w : ByteWriter limit} {value : PathComponent}
    (valid : isValid value.resource = true ∧ isValid value.diversityDomain = true)
    (within : w.Within bound) (fits : bound + 209 ≤ limit) :
    (encodeComponent w value).Within (bound + 209) := by
  have identifiers : Limits.maxIdentifierLen = 96 := rfl
  have writer := within
    |>.ident (length_of_isValidIdentifier valid.1) (by omega)
    |>.u64 value.capabilityGeneration (by omega)
    |>.ident (length_of_isValidIdentifier valid.2) (by omega)
    |>.u8 value.role.value (by omega)
  exact writer.mono (by omega)

theorem within_path {value : Path} (valid : validatePath value = .ok ())
    (origin : value.provenance.origin.length ≤ Limits.maxOriginLen) :
    (encodePath value (.empty : ByteWriter Limits.maxCanonicalRecordBytes)).Within 100000 := by
  simp only [validatePath, refuse_bind_eq_ok] at valid
  obtain ⟨id, -, -, few, rest⟩ := valid
  obtain ⟨_, components, -⟩ := bind_eq_ok.mp rest
  have few : value.components.length ≤ Limits.maxPathComponents := by simpa using few
  have components := validateComponents_ok components
  have writer := (@ByteWriter.Within.empty Limits.maxCanonicalRecordBytes)
    |>.header tagPath (by decide)
    |>.ident (short_of_valid id) (by decide)
    |>.u64 value.generation (by decide)
    |>.counted 209 Limits.maxPathComponents few
      (fun component mem _ _ within fits =>
        within_component (components component mem) within fits)
      (by decide) (by decide)
    |>.u64 value.fixedLatencyUs (by decide)
    |>.u64 value.fixedJitterUs (by decide)
    |>.u64 value.epoch (by decide)
    |>.provenance origin (by decide)
  exact writer.mono (by decide)

theorem within_spellCapability {value : ResourceCapability} (valid : validateCapability value = .ok ())
    (origin : value.provenance.origin.length ≤ Limits.maxOriginLen) :
    (spellCapability value
      (.empty : ByteWriter Limits.maxCanonicalRecordBytes)).Within 100000 := by
  simp only [validateCapability, refuse_bind_eq_ok, checkKeys_bind_eq_ok, refuse_eq_ok] at valid
  obtain ⟨resource, -, publisher, -, -, -, -, -, -, -, -, -, -, -, few, keys, -, -, domain⟩ := valid
  have few : value.predicates.length ≤ Limits.maxCapabilityPredicates := by simpa using few
  have domain : value.diversityDomain.length ≤ Limits.maxIdentifierLen := by
    by_cases empty : value.diversityDomain = []
    · rw [empty]
      exact Nat.zero_le _
    · have domain : isValid value.diversityDomain = true := by simpa [empty] using domain
      exact length_of_isValidIdentifier domain
  have writer := (@ByteWriter.Within.empty Limits.maxCanonicalRecordBytes)
    |>.header tagCapability (by decide)
    |>.ident (short_of_valid resource) (by decide)
    |>.u64 value.generation (by decide)
    |>.u64 value.epoch (by decide)
    |>.ident (short_of_valid publisher) (by decide)
    |>.u64 value.incarnation (by decide)
    |>.u64 value.publishedAtMs (by decide)
    |>.u64 value.expiresAtMs (by decide)
    |>.u8 value.state.value (by decide)
    |>.optionalU64 value.supportedRateBps (by decide)
    |>.optionalU64 value.latencyBoundUs (by decide)
    |>.optionalU64 value.jitterBoundUs (by decide)
    |>.optionalU32 value.lossPpm (by decide)
    |>.optionalU64 value.maxBurstBytes (by decide)
    |>.optionalU64 value.burstWindowUs (by decide)
    |>.optionalU64 value.mtuBytes (by decide)
    |>.u8 value.maxIsolation.rank (by decide)
    |>.u8 value.maxTreatment.rank (by decide)
    |>.u32 value.maxPriorityRank (by decide)
    |>.keys few (fun key mem => length_of_isValidIdentifier (keys key mem)) (by decide)
      (by decide)
    |>.ident domain (by decide)
    |>.provenance origin (by decide)
  exact writer.mono (by decide)

theorem within_capability {value : ResourceCapability} (valid : validateCapability value = .ok ())
    (origin : value.provenance.origin.length ≤ Limits.maxOriginLen) :
    (encodeCapability value
      (.empty : ByteWriter Limits.maxCanonicalRecordBytes)).Within 100000 := by
  rw [encodeCapability_eq_spell]
  exact within_spellCapability ((validateCapability_readBack value).trans valid) origin

theorem within_reservation {value : Reservation} (valid : validateReservation value = .ok ())
    (origin : value.provenance.origin.length ≤ Limits.maxOriginLen) :
    (encodeReservation value
      (.empty : ByteWriter Limits.maxCanonicalRecordBytes)).Within 100000 := by
  simp only [validateReservation, refuse_bind_eq_ok] at valid
  obtain ⟨resource, -, classId, -, publisher, -⟩ := valid
  have writer := (@ByteWriter.Within.empty Limits.maxCanonicalRecordBytes)
    |>.header tagReservation (by decide)
    |>.ident (short_of_valid resource) (by decide)
    |>.u64 value.generation (by decide)
    |>.ident (short_of_valid classId) (by decide)
    |>.u64 value.classGeneration (by decide)
    |>.u64 value.reservedMinRateBps (by decide)
    |>.u64 value.reservedBurstBytes (by decide)
    |>.u64 value.epoch (by decide)
    |>.ident (short_of_valid publisher) (by decide)
    |>.u64 value.incarnation (by decide)
    |>.u64 value.expiresAtMs (by decide)
    |>.provenance origin (by decide)
  exact writer.mono (by decide)

theorem within_request {value : ContractRequest} (valid : validateRequest value = .ok ())
    (origin : value.provenance.origin.length ≤ Limits.maxOriginLen) :
    (encodeRequest value (.empty : ByteWriter Limits.maxCanonicalRecordBytes)).Within 100000 := by
  simp only [validateRequest, refuse_bind_eq_ok] at valid
  obtain ⟨contract, subject, classId, path, policy, priority, -⟩ := valid
  have writer := (@ByteWriter.Within.empty Limits.maxCanonicalRecordBytes)
    |>.header tagRequest (by decide)
    |>.ident (short_of_valid contract) (by decide)
    |>.u64 value.contractGeneration (by decide)
    |>.ident (short_of_valid subject) (by decide)
    |>.u64 value.subjectGeneration (by decide)
    |>.ident (short_of_valid classId) (by decide)
    |>.u64 value.classGeneration (by decide)
    |>.ident (short_of_valid path) (by decide)
    |>.u64 value.pathGeneration (by decide)
    |>.ident (short_of_valid policy) (by decide)
    |>.u64 value.policyGeneration (by decide)
    |>.ident (short_of_valid priority) (by decide)
    |>.u64 value.priorityGeneration (by decide)
    |>.u64 value.observedEpoch (by decide)
    |>.u64 value.requestMs (by decide)
    |>.provenance origin (by decide)
  exact writer.mono (by decide)

theorem codes_request {limit : Nat} {G : Prop} (value : ContractRequest)
    (valid : G → validateRequest value = .ok ()) :
    Codes (encodeRequest value : ByteWriter limit → ByteWriter limit) decodeRequest value G := by
  have well : G → isValid value.contract = true ∧ isValid value.subject = true ∧
      isValid value.classId = true ∧ isValid value.path = true ∧ isValid value.policy = true ∧
      isValid value.priority = true := by
    intro good
    have request := valid good
    simp only [validateRequest, refuse_bind_eq_ok, Bool.not_eq_false'] at request
    obtain ⟨contract, subject, classId, path, policy, priority, -⟩ := request
    exact ⟨contract, subject, classId, path, policy, priority⟩
  unfold decodeRequest
  show Codes (emitAll [fun w => w.header tagRequest, fun w => w.ident value.contract,
    fun w => w.u64 value.contractGeneration, fun w => w.ident value.subject,
    fun w => w.u64 value.subjectGeneration, fun w => w.ident value.classId,
    fun w => w.u64 value.classGeneration, fun w => w.ident value.path,
    fun w => w.u64 value.pathGeneration, fun w => w.ident value.policy,
    fun w => w.u64 value.policyGeneration, fun w => w.ident value.priority,
    fun w => w.u64 value.priorityGeneration, fun w => w.u64 value.observedEpoch,
    fun w => w.u64 value.requestMs, fun w => w.provenance value.provenance]) _ _ G
  apply Codes.step (codes_header _)
  apply Codes.step (codes_identifier (by decide) fun good => (well good).1)
  apply Codes.step (codes_u64 _)
  apply Codes.step (codes_identifier (by decide) fun good => (well good).2.1)
  apply Codes.step (codes_u64 _)
  apply Codes.step (codes_identifier (by decide) fun good => (well good).2.2.1)
  apply Codes.step (codes_u64 _)
  apply Codes.step (codes_identifier (by decide) fun good => (well good).2.2.2.1)
  apply Codes.step (codes_u64 _)
  apply Codes.step (codes_identifier (by decide) fun good => (well good).2.2.2.2.1)
  apply Codes.step (codes_u64 _)
  apply Codes.step (codes_identifier (by decide) fun good => (well good).2.2.2.2.2)
  apply Codes.step (codes_u64 _)
  apply Codes.step (codes_u64 _)
  apply Codes.step (codes_u64 _)
  apply Codes.step (codes_provenance _ _)
  apply Codes.skip .sound
  apply Codes.skip (.lift valid)
  exact Codes.done

namespace Decode

theorem yields_identifier {maxLen : Nat} :
    Yields (decodeIdentifier maxLen) fun value => isValidIdentifier value maxLen = true := by
  unfold decodeIdentifier
  apply Yields.after
  intro value
  apply Yields.after
  intro _
  exact .ite (fun valid => .pure valid) fun _ => .refuse

theorem yields_provenance {detail : String} :
    Yields (decodeProvenance detail) fun value => value.origin.length ≤ Limits.maxOriginLen := by
  unfold decodeProvenance
  apply Yields.after
  intro origin
  apply Yields.after
  intro epoch
  apply Yields.after
  intro generation
  apply Yields.after
  intro sequence
  apply Yields.after
  intro _
  exact .pure (List.length_take_le _ _)

theorem yields_lift {result : Result Unit} {α : Type} {a : α} {post : α → Prop}
    (good : result = .ok () → post a) :
    Yields (do Decode.lift result; pure a) post := by
  have lifted : Yields (Decode.lift result) fun _ => result = .ok () := by
    constructor
    intro reader done reader' eq
    cases result with
    | error e => cases eq
    | ok => rfl
  exact lifted.bind fun _ valid => .pure (good valid)

end Decode

/-- The origin within its budget, as the constructor leaves it. -/
def Provenance.Clipped (value : Provenance) : Prop := value.origin.length ≤ Limits.maxOriginLen

namespace EntityKind

def provenance : (kind : EntityKind) → kind.Carrier → Provenance
  | .class, value => QoSClass.provenance value
  | policy, value => Policy.provenance value
  | path, value => Path.provenance value
  | capability, value => ResourceCapability.provenance value
  | reservation, value => Reservation.provenance value

/-- A capability that declares no failure domain, which is valid when it is unavailable. -/
def Undeclared : (kind : EntityKind) → kind.Carrier → Prop
  | capability, value => (value : ResourceCapability).diversityDomain = []
  | _, _ => False

structure Decoded (kind : EntityKind) (value : kind.Carrier) : Prop where
  valid : kind.validate value = .ok ()
  origin : (kind.provenance value).Clipped
  digest : kind.digest value = kind.computeDigest value
  declares : ¬kind.Undeclared value

end EntityKind

open Decode

theorem yields_entity (kind : EntityKind) : Yields kind.decode kind.Decoded := by
  cases kind with
  | «class» =>
      show Yields decodeQoSClass _
      unfold decodeQoSClass
      iterate 23
        apply Yields.after
        intro _
      apply Yields.bind yields_provenance
      intro provenance origin
      apply Yields.after
      intro _
      exact yields_lift fun valid => ⟨valid, origin, rfl, id⟩
  | policy =>
      show Yields decodePolicy _
      unfold decodePolicy
      iterate 13
        apply Yields.after
        intro _
      apply Yields.bind yields_provenance
      intro provenance origin
      apply Yields.after
      intro _
      exact yields_lift fun valid => ⟨valid, origin, rfl, id⟩
  | path =>
      show Yields decodePath _
      unfold decodePath
      iterate 8
        apply Yields.after
        intro _
      apply Yields.bind yields_provenance
      intro provenance origin
      apply Yields.after
      intro _
      exact yields_lift fun valid => ⟨valid, origin, rfl, id⟩
  | capability =>
      show Yields decodeCapability _
      unfold decodeCapability
      iterate 20
        apply Yields.after
        intro _
      apply Yields.bind yields_identifier
      intro domain named
      apply Yields.bind yields_provenance
      intro provenance origin
      apply Yields.after
      intro _
      refine yields_lift fun valid => ⟨valid, origin, rfl, ?_⟩
      rintro (empty : domain = [])
      rw [empty] at named
      cases named
  | reservation =>
      show Yields decodeReservation _
      unfold decodeReservation
      iterate 11
        apply Yields.after
        intro _
      apply Yields.bind yields_provenance
      intro provenance origin
      apply Yields.after
      intro _
      exact yields_lift fun valid => ⟨valid, origin, rfl, id⟩

theorem yields_request : Yields decodeRequest fun value => validateRequest value = .ok () ∧
    value.provenance.Clipped := by
  unfold decodeRequest
  iterate 15
    apply Yields.after
    intro _
  apply Yields.bind yields_provenance
  intro provenance origin
  apply Yields.after
  intro _
  exact yields_lift fun valid => ⟨valid, origin⟩

/-- A value is written within the record budget, and its record is read back to its end. -/
def RoundTrips {α : Type}
    (encode : ByteWriter Limits.maxCanonicalRecordBytes → ByteWriter Limits.maxCanonicalRecordBytes)
    (decode : Decode α) (back : α) : Prop :=
  ∃ bytes, (encode .empty).data = some bytes ∧
    ∃ reader, decode (.ofBytes bytes) = .ok (back, reader) ∧ reader.atEnd = true

theorem within_spell {value : kind.Carrier} (valid : kind.validate value = .ok ())
    (origin : (kind.provenance value).Clipped) :
    (kind.spell value (.empty : ByteWriter Limits.maxCanonicalRecordBytes)).Within 100000 := by
  cases kind with
  | «class» => exact within_spellQoSClass valid origin
  | policy => exact within_spellPolicy valid origin
  | path => exact within_path valid origin
  | capability => exact within_spellCapability valid origin
  | reservation => exact within_reservation valid origin

theorem within_entity {value : kind.Carrier} (valid : kind.validate value = .ok ())
    (origin : (kind.provenance value).Clipped) :
    (kind.encode value (.empty : ByteWriter Limits.maxCanonicalRecordBytes)).Within 100000 := by
  cases kind with
  | «class» => exact within_qosClass valid origin
  | policy => exact within_policy valid origin
  | path => exact within_path valid origin
  | capability => exact within_capability valid origin
  | reservation => exact within_reservation valid origin

theorem roundTrips_of_codes {α : Type}
    {encode : ByteWriter Limits.maxCanonicalRecordBytes → ByteWriter Limits.maxCanonicalRecordBytes}
    {decode : Decode α} {back : α} {bound : Nat} (codes : Codes encode decode back True)
    (within : (encode .empty).Within bound) : RoundTrips encode decode back := by
  obtain ⟨bytes, written, -⟩ := within
  refine ⟨bytes, written, ⟨some []⟩, ?_, rfl⟩
  have reads := codes.reads written [] trivial
  rw [List.append_nil] at reads
  cases reads with
  | inl read => exact read
  | inr refused => exact (refused.1 trivial).elim

theorem readable_of_declares {value : kind.Carrier} (valid : kind.validate value = .ok ())
    (declares : ¬kind.Undeclared value) : kind.Readable value := by
  refine ⟨valid, ?_⟩
  rintro capability rfl same
  obtain rfl := eq_of_heq same
  exact declares

theorem roundTrips_entity {value : kind.Carrier} (valid : kind.validate value = .ok ())
    (origin : (kind.provenance value).Clipped) (declares : ¬kind.Undeclared value) :
    RoundTrips (kind.encode value) kind.decode (kind.readBack value) :=
  roundTrips_of_codes (codes_entity kind value fun _ => readable_of_declares valid declares)
    (within_entity valid origin)

theorem roundTrips_request {value : ContractRequest} (valid : validateRequest value = .ok ())
    (origin : value.provenance.Clipped) :
    RoundTrips (encodeRequest value) decodeRequest value :=
  roundTrips_of_codes (codes_request value fun _ => valid) (within_request valid origin)

theorem undeclared_readBack {value : kind.Carrier} :
    kind.Undeclared (kind.readBack value) ↔ kind.Undeclared value := by
  cases kind <;> exact Iff.rfl

/-- A valid value is read back, with its predicates sorted and its digest computed, exactly when it is
no capability without a failure domain. -/
theorem record_round_trips_iff (kind : EntityKind) (value : kind.Carrier)
    (request : ContractRequest) :
    (kind.validate value = .ok () → (kind.provenance value).Clipped →
      (RoundTrips (kind.encode value) kind.decode (kind.readBack value) ↔
        ¬kind.Undeclared value)) ∧
    (validateRequest request = .ok () → request.provenance.Clipped →
      RoundTrips (encodeRequest request) decodeRequest request) := by
  refine ⟨?_, roundTrips_request⟩
  intro valid origin
  refine ⟨?_, roundTrips_entity valid origin⟩
  rintro ⟨bytes, -, reader, read, -⟩ undeclared
  exact ((yields_entity kind).ok _ _ _ read).declares (undeclared_readBack.mpr undeclared)

def bareCapability : ResourceCapability :=
  { plainCapability with state := .unavailable, diversityDomain := [] }

/-- The capability is valid, and its record is refused. -/
theorem record_refused : ¬∀ (kind : EntityKind) (value : kind.Carrier),
    kind.validate value = .ok () → (kind.provenance value).Clipped →
      RoundTrips (kind.encode value) kind.decode (kind.readBack value) := by
  intro reads
  obtain ⟨bytes, written, reader, read, -⟩ := reads .capability bareCapability
    (by decide +kernel) (Nat.zero_le _)
  have refused : ((encodeCapability bareCapability
      (.empty : ByteWriter Limits.maxCanonicalRecordBytes)).data.all fun bytes =>
        !(decodeCapability (.ofBytes bytes)).toBool) = true := by decide +kernel
  have written : (encodeCapability bareCapability .empty).data = some bytes := written
  have read : decodeCapability (.ofBytes bytes) = _ := read
  rw [written, Option.all_some, read] at refused
  cases refused

theorem record_round_trips_plain :
    (RoundTrips (encodeCapability plainCapability) decodeCapability plainCapability.readBack ↔
      plainCapability.diversityDomain ≠ []) ∧
    RoundTrips (encodeRequest plainRequest) decodeRequest plainRequest :=
  ⟨(record_round_trips_iff .capability plainCapability plainRequest).1 (by decide +kernel)
      (Nat.zero_le _),
    (record_round_trips_iff .capability plainCapability plainRequest).2 (by decide +kernel)
      (Nat.zero_le _)⟩

/-- What a decoder yields is valid, is written and read back with its predicates sorted and its
digest kept, and is then written the same way. -/
theorem decoded_round_trips :
    (∀ (kind : EntityKind) (bytes : Bytes) (value : kind.Carrier) (reader : ByteReader),
      kind.decode (.ofBytes bytes) = .ok (value, reader) →
      kind.validate value = .ok () ∧
        RoundTrips (kind.encode value) kind.decode (kind.readBack value) ∧
        kind.digest (kind.readBack value) = kind.digest value ∧
        (kind.encode (kind.readBack value)
          (.empty : ByteWriter Limits.maxCanonicalRecordBytes)).data =
          (kind.encode value (.empty : ByteWriter Limits.maxCanonicalRecordBytes)).data) ∧
    ∀ (bytes : Bytes) (value : ContractRequest) (reader : ByteReader),
      decodeRequest (.ofBytes bytes) = .ok (value, reader) →
      validateRequest value = .ok () ∧ RoundTrips (encodeRequest value) decodeRequest value := by
  constructor
  · intro kind bytes value reader read
    have decoded := (yields_entity kind).ok _ _ _ read
    refine ⟨decoded.valid, roundTrips_entity decoded.valid decoded.origin decoded.declares, ?_, ?_⟩
    · rw [digest_readBack, decoded.digest]
    · rw [encode_readBack]
  · intro bytes value reader read
    obtain ⟨valid, origin⟩ := yields_request.ok _ _ _ read
    exact ⟨valid, roundTrips_request valid origin⟩

theorem decoded_round_trips_plain :
    (∃ bytes value reader, decodeCapability (.ofBytes bytes) = .ok (value, reader) ∧
      RoundTrips (encodeCapability value) decodeCapability value.readBack) ∧
    ∃ bytes value reader, decodeRequest (.ofBytes bytes) = .ok (value, reader) ∧
      RoundTrips (encodeRequest value) decodeRequest value := by
  constructor
  · have trip : RoundTrips (encodeCapability plainCapability) decodeCapability
        plainCapability.readBack :=
      @roundTrips_entity .capability plainCapability (by decide +kernel) (Nat.zero_le _)
        (show plainCapability.diversityDomain ≠ [] by decide)
    obtain ⟨bytes, -, reader, read, -⟩ := trip
    exact ⟨bytes, _, reader, read, (decoded_round_trips.1 .capability bytes _ reader read).2.1⟩
  · have trip : RoundTrips (encodeRequest plainRequest) decodeRequest plainRequest :=
      roundTrips_request (by decide +kernel) (Nat.zero_le _)
    obtain ⟨bytes, -, reader, read, -⟩ := trip
    exact ⟨bytes, _, reader, read, (decoded_round_trips.2 bytes _ reader read).2⟩

end QoSFabric
