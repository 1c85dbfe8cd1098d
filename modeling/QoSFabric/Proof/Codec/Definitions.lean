import QoSFabric.Proof.Codec.Fields
import QoSFabric.Proof.Engine.Validity

namespace QoSFabric

open Proof.Engine

variable {limit : Nat} {G : Prop}

/-! ## Sorted predicates -/

theorem length_sortTexts (texts : List Text) : (sortTexts texts).length = texts.length :=
  List.length_insertionSort _ _

theorem mem_sortTexts {texts : List Text} {value : Text} : value ∈ sortTexts texts ↔ value ∈ texts :=
  List.mem_insertionSort _

theorem sortTexts_of_pairwise {texts : List Text} (sorted : texts.Pairwise textLe) :
    sortTexts texts = texts := List.Pairwise.insertionSort_eq sorted

theorem sortTexts_sortTexts (texts : List Text) : sortTexts (sortTexts texts) = sortTexts texts :=
  sortTexts_of_pairwise (sortTexts_pairwise texts)

theorem checkKeys_sortTexts (keys : List Text) (detail : String) :
    checkKeys (sortTexts keys) detail = checkKeys keys detail := by
  have same : (sortTexts keys).all (isValidIdentifier · Limits.maxPredicateKeyLen) =
      keys.all (isValidIdentifier · Limits.maxPredicateKeyLen) :=
    (sortTexts_perm keys).all_eq
  unfold checkKeys
  rw [same]

theorem hasDuplicatePredicates_sortTexts (keys : List Text) :
    hasDuplicatePredicates (sortTexts keys) = hasDuplicatePredicates keys := by
  unfold hasDuplicatePredicates
  rw [sortTexts_sortTexts]

theorem predicates_sortTexts (w : ByteWriter limit) (keys : List Text) (maxCount : Nat) :
    w.predicates (sortTexts keys) maxCount = w.predicates keys maxCount := by
  unfold ByteWriter.predicates
  rw [length_sortTexts, sortTexts_sortTexts]

/-! ## Classes -/

def QoSClass.readBack (value : QoSClass) : QoSClass :=
  { value with
    requiredPredicates := sortTexts value.requiredPredicates, digest := value.computeDigest }

theorem QoSClass.computeDigest_sorted (value : QoSClass) (digest : Digest256) :
    ({ value with requiredPredicates := sortTexts value.requiredPredicates, digest := digest } :
      QoSClass).computeDigest = value.computeDigest := by
  unfold QoSClass.computeDigest QoSClass.normalized encodeQoSClass
  dsimp only
  simp only [predicates_sortTexts]

theorem validateQoSClass_readBack (value : QoSClass) :
    validateQoSClass value.readBack = validateQoSClass value := by
  unfold validateQoSClass QoSClass.readBack
  dsimp only
  rw [length_sortTexts, checkKeys_sortTexts, hasDuplicatePredicates_sortTexts]

def spellQoSClass (value : QoSClass) (w : ByteWriter limit) :
    ByteWriter limit :=
  w.header tagQoSClass
    |>.ident value.id
    |>.u64 value.generation
    |>.str value.label Limits.maxLabelLen
    |>.optionalU64 value.minRateBps
    |>.optionalU64 value.maxRateBps
    |>.optionalU64 value.peakRateBps
    |>.optionalU64 value.maxLatencyUs
    |>.optionalU64 value.maxJitterUs
    |>.optionalU32 value.maxLossPpm
    |>.optionalU64 value.burstBytes
    |>.optionalU64 value.burstIntervalUs
    |>.optionalU64 value.minMtuBytes
    |>.u8 value.isolation.rank
    |>.u8 value.treatment.rank
    |>.u32 value.minPriorityRank
    |>.u32 value.minDisjointPaths
    |>.presence value.requiresReservation
    |>.keys value.requiredPredicates Limits.maxRequiredPredicates
    |>.presence value.allowDegrade
    |>.u32 value.degradeMaxRelaxationPpm
    |>.u8 value.violationPolicy.value
    |>.u64 value.publishedEpoch
    |>.provenance value.provenance

def QoSClass.sorted (value : QoSClass) : QoSClass :=
  { value with requiredPredicates := sortTexts value.requiredPredicates }

theorem encodeQoSClass_eq_spell (value : QoSClass) :
    (encodeQoSClass value : ByteWriter limit → ByteWriter limit) = spellQoSClass value.sorted := by
  funext w
  unfold encodeQoSClass spellQoSClass QoSClass.sorted
  simp only [ByteWriter.predicates_eq_keys]

theorem codes_spellQoSClass (value : QoSClass) (valid : G → validateQoSClass value = .ok ()) :
    Codes (spellQoSClass value : ByteWriter limit → ByteWriter limit) decodeQoSClass
      { value with digest := value.computeDigest } G := by
  have well : G → isValid value.id = true ∧ PredicateSet value.requiredPredicates := by
    intro good
    have klass := valid good
    have predicates := (validateQoSClass_ok klass).predicates
    simp only [validateQoSClass, refuse_bind_eq_ok] at klass
    exact ⟨by simpa using klass.1, predicates⟩
  unfold decodeQoSClass
  show Codes (emitAll [fun w => w.header tagQoSClass, fun w => w.ident value.id,
    fun w => w.u64 value.generation, fun w => w.str value.label Limits.maxLabelLen,
    fun w => w.optionalU64 value.minRateBps, fun w => w.optionalU64 value.maxRateBps,
    fun w => w.optionalU64 value.peakRateBps, fun w => w.optionalU64 value.maxLatencyUs,
    fun w => w.optionalU64 value.maxJitterUs, fun w => w.optionalU32 value.maxLossPpm,
    fun w => w.optionalU64 value.burstBytes, fun w => w.optionalU64 value.burstIntervalUs,
    fun w => w.optionalU64 value.minMtuBytes, fun w => w.u8 value.isolation.rank,
    fun w => w.u8 value.treatment.rank, fun w => w.u32 value.minPriorityRank,
    fun w => w.u32 value.minDisjointPaths, fun w => w.presence value.requiresReservation,
    fun w => w.keys value.requiredPredicates Limits.maxRequiredPredicates,
    fun w => w.presence value.allowDegrade, fun w => w.u32 value.degradeMaxRelaxationPpm,
    fun w => w.u8 value.violationPolicy.value, fun w => w.u64 value.publishedEpoch,
    fun w => w.provenance value.provenance]) _ _ G
  apply Codes.step (codes_header _)
  apply Codes.step (codes_identifier (by decide) fun good => (well good).1)
  apply Codes.step (codes_u64 _)
  apply Codes.step (codes_str _ (by decide))
  apply Codes.step (codes_optionalU64 _ _)
  apply Codes.step (codes_optionalU64 _ _)
  apply Codes.step (codes_optionalU64 _ _)
  apply Codes.step (codes_optionalU64 _ _)
  apply Codes.step (codes_optionalU64 _ _)
  apply Codes.step (codes_optionalU32 _ _)
  apply Codes.step (codes_optionalU64 _ _)
  apply Codes.step (codes_optionalU64 _ _)
  apply Codes.step (codes_optionalU64 _ _)
  apply Codes.step (codes_enum _ (by cases value.isolation <;> rfl))
  apply Codes.step (codes_enum _ (by cases value.treatment <;> rfl))
  apply Codes.step (codes_u32 _)
  apply Codes.step (codes_u32 _)
  apply Codes.step (codes_presence _)
  apply Codes.step (codes_keys (fun good => (well good).2.length_le)
    fun good => (well good).2.valid)
  apply Codes.step (codes_presence _)
  apply Codes.step (codes_u32 _)
  apply Codes.step (codes_enum _ (by cases value.violationPolicy <;> rfl))
  apply Codes.step (codes_u64 _)
  apply Codes.step (codes_provenance _ _)
  apply Codes.skip .sound
  apply Codes.skip (.lift valid)
  exact Codes.done

theorem codes_qosClass (value : QoSClass) (valid : G → validateQoSClass value = .ok ()) :
    Codes (encodeQoSClass value : ByteWriter limit → ByteWriter limit) decodeQoSClass value.readBack
      G := by
  have codes := @codes_spellQoSClass limit G value.sorted
    fun good => (validateQoSClass_readBack value).trans (valid good)
  rw [show value.sorted.computeDigest = value.computeDigest from value.computeDigest_sorted _,
    ← encodeQoSClass_eq_spell] at codes
  exact codes

/-! ## Policies -/

def Policy.readBack (value : Policy) : Policy :=
  { value with
    requiredPredicates := sortTexts value.requiredPredicates, digest := value.computeDigest }

theorem Policy.computeDigest_sorted (value : Policy) (digest : Digest256) :
    ({ value with requiredPredicates := sortTexts value.requiredPredicates, digest := digest } :
      Policy).computeDigest = value.computeDigest := by
  unfold Policy.computeDigest Policy.normalized encodePolicy
  dsimp only
  simp only [predicates_sortTexts]

theorem validatePolicy_readBack (value : Policy) :
    validatePolicy value.readBack = validatePolicy value := by
  unfold validatePolicy Policy.readBack
  dsimp only
  rw [length_sortTexts, checkKeys_sortTexts, hasDuplicatePredicates_sortTexts]

def spellPolicy (value : Policy) (w : ByteWriter limit) : ByteWriter limit :=
  w.header tagPolicy
    |>.ident value.id
    |>.u64 value.generation
    |>.str value.label Limits.maxLabelLen
    |>.presence value.degradePermitted
    |>.u32 value.maxRelaxationPpm
    |>.u32 value.maxStaleEpochs
    |>.u64 value.capabilityMaxAgeMs
    |>.u32 value.maxUnknownComponents
    |>.keys value.requiredPredicates Limits.maxRequiredPredicates
    |>.counted value.deniedClasses (fun w id => w.ident id)
    |>.u64 value.publishedEpoch
    |>.provenance value.provenance

def Policy.sorted (value : Policy) : Policy :=
  { value with requiredPredicates := sortTexts value.requiredPredicates }

theorem encodePolicy_eq_spell (value : Policy) :
    (encodePolicy value : ByteWriter limit → ByteWriter limit) = spellPolicy value.sorted := by
  funext w
  unfold encodePolicy spellPolicy Policy.sorted
  simp only [ByteWriter.predicates_eq_keys]

theorem codes_spellPolicy (value : Policy) (valid : G → validatePolicy value = .ok ()) :
    Codes (spellPolicy value : ByteWriter limit → ByteWriter limit) decodePolicy
      { value with digest := value.computeDigest } G := by
  have well : G → isValid value.id = true ∧ PredicateSet value.requiredPredicates ∧
      value.deniedClasses.length ≤ Limits.maxClassesRetained ∧
      ∀ id ∈ value.deniedClasses, isValid id = true := by
    intro good
    have policy := valid good
    have predicates := validatePolicy_ok policy
    simp only [validatePolicy, refuse_bind_eq_ok, checkKeys_bind_eq_ok] at policy
    obtain ⟨id, -, -, -, -, -, -, -, -, -, -, denied, ids, -⟩ := policy
    exact ⟨by simpa using id, predicates, by simpa using denied, by simpa using ids⟩
  unfold decodePolicy
  show Codes (emitAll [fun w => w.header tagPolicy, fun w => w.ident value.id,
    fun w => w.u64 value.generation, fun w => w.str value.label Limits.maxLabelLen,
    fun w => w.presence value.degradePermitted, fun w => w.u32 value.maxRelaxationPpm,
    fun w => w.u32 value.maxStaleEpochs, fun w => w.u64 value.capabilityMaxAgeMs,
    fun w => w.u32 value.maxUnknownComponents,
    fun w => w.keys value.requiredPredicates Limits.maxRequiredPredicates,
    fun w => w.counted value.deniedClasses (fun w id => w.ident id),
    fun w => w.u64 value.publishedEpoch, fun w => w.provenance value.provenance]) _ _ G
  apply Codes.step (codes_header _)
  apply Codes.step (codes_identifier (by decide) fun good => (well good).1)
  apply Codes.step (codes_u64 _)
  apply Codes.step (codes_str _ (by decide))
  apply Codes.step (codes_presence _)
  apply Codes.step (codes_u32 _)
  apply Codes.step (codes_u32 _)
  apply Codes.step (codes_u64 _)
  apply Codes.step (codes_u32 _)
  apply Codes.step (codes_keys (fun good => (well good).2.1.length_le)
    fun good => (well good).2.1.valid)
  apply Codes.assoc (codes_list (fun good => (well good).2.2.1) fun id mem =>
    codes_identifier (by decide) fun good => (well good).2.2.2 id mem)
  apply Codes.step (codes_u64 _)
  apply Codes.step (codes_provenance _ _)
  apply Codes.skip .sound
  apply Codes.skip (.lift valid)
  exact Codes.done

theorem codes_policy (value : Policy) (valid : G → validatePolicy value = .ok ()) :
    Codes (encodePolicy value : ByteWriter limit → ByteWriter limit) decodePolicy value.readBack
      G := by
  have codes := @codes_spellPolicy limit G value.sorted
    fun good => (validatePolicy_readBack value).trans (valid good)
  rw [show value.sorted.computeDigest = value.computeDigest from value.computeDigest_sorted _,
    ← encodePolicy_eq_spell] at codes
  exact codes

/-! ## Paths -/

def Path.readBack (value : Path) : Path := { value with digest := value.computeDigest }

theorem validateComponents_ok {seen : List Text} {components : List PathComponent}
    (valid : validateComponents seen components = .ok ()) :
    ∀ component ∈ components, isValid component.resource = true ∧
      isValid component.diversityDomain = true := by
  intro component mem
  obtain ⟨resource, -, -, domain, -⟩ := (validateComponents_eq_ok.mp valid).1 component mem
  exact ⟨resource, domain⟩

theorem codes_component (value : PathComponent)
    (valid : G → isValid value.resource = true ∧ isValid value.diversityDomain = true) :
    Codes (fun w : ByteWriter limit => encodeComponent w value) decodeComponent value G := by
  unfold decodeComponent
  show Codes (emitAll [fun w => w.ident value.resource, fun w => w.u64 value.capabilityGeneration,
    fun w => w.ident value.diversityDomain, fun w => w.u8 value.role.value]) _ _ G
  apply Codes.step (codes_identifier (by decide) fun good => (valid good).1)
  apply Codes.step (codes_u64 _)
  apply Codes.step (codes_identifier (by decide) fun good => (valid good).2)
  apply Codes.step (codes_enum _ (by cases value.role <;> rfl))
  exact Codes.done

theorem codes_path (value : Path) (valid : G → validatePath value = .ok ()) :
    Codes (encodePath value : ByteWriter limit → ByteWriter limit) decodePath value.readBack
      G := by
  have well : G → isValid value.id = true ∧ value.components.length ≤ Limits.maxPathComponents ∧
      ∀ component ∈ value.components, isValid component.resource = true ∧
        isValid component.diversityDomain = true := by
    intro good
    have path := valid good
    simp only [validatePath, refuse_bind_eq_ok] at path
    obtain ⟨id, -, -, few, rest⟩ := path
    obtain ⟨_, components, -⟩ := bind_eq_ok.mp rest
    exact ⟨by simpa using id, by simpa using few, validateComponents_ok components⟩
  unfold decodePath
  show Codes (emitAll [fun w => w.header tagPath, fun w => w.ident value.id,
    fun w => w.u64 value.generation, fun w => w.counted value.components encodeComponent,
    fun w => w.u64 value.fixedLatencyUs, fun w => w.u64 value.fixedJitterUs,
    fun w => w.u64 value.epoch, fun w => w.provenance value.provenance]) _ _ G
  apply Codes.step (codes_header _)
  apply Codes.step (codes_identifier (by decide) fun good => (well good).1)
  apply Codes.step (codes_u64 _)
  apply Codes.assoc (codes_list (fun good => (well good).2.1) fun component mem =>
    codes_component component fun good => (well good).2.2 component mem)
  apply Codes.step (codes_u64 _)
  apply Codes.step (codes_u64 _)
  apply Codes.step (codes_u64 _)
  apply Codes.step (codes_provenance _ _)
  apply Codes.skip .sound
  apply Codes.skip (.lift valid)
  exact Codes.done

/-! ## Capabilities -/

def ResourceCapability.readBack (value : ResourceCapability) : ResourceCapability :=
  { value with predicates := sortTexts value.predicates, digest := value.computeDigest }

theorem ResourceCapability.computeDigest_sorted (value : ResourceCapability) (digest : Digest256) :
    ({ value with predicates := sortTexts value.predicates, digest := digest } :
      ResourceCapability).computeDigest = value.computeDigest := by
  unfold ResourceCapability.computeDigest ResourceCapability.normalized encodeCapability
  dsimp only
  simp only [predicates_sortTexts]

theorem validateCapability_readBack (value : ResourceCapability) :
    validateCapability value.readBack = validateCapability value := by
  unfold validateCapability ResourceCapability.readBack
  dsimp only
  rw [length_sortTexts, checkKeys_sortTexts, hasDuplicatePredicates_sortTexts]

def spellCapability (value : ResourceCapability) (w : ByteWriter limit) : ByteWriter limit :=
  w.header tagCapability
    |>.ident value.resource
    |>.u64 value.generation
    |>.u64 value.epoch
    |>.ident value.publisher
    |>.u64 value.incarnation
    |>.u64 value.publishedAtMs
    |>.u64 value.expiresAtMs
    |>.u8 value.state.value
    |>.optionalU64 value.supportedRateBps
    |>.optionalU64 value.latencyBoundUs
    |>.optionalU64 value.jitterBoundUs
    |>.optionalU32 value.lossPpm
    |>.optionalU64 value.maxBurstBytes
    |>.optionalU64 value.burstWindowUs
    |>.optionalU64 value.mtuBytes
    |>.u8 value.maxIsolation.rank
    |>.u8 value.maxTreatment.rank
    |>.u32 value.maxPriorityRank
    |>.keys value.predicates Limits.maxCapabilityPredicates
    |>.ident value.diversityDomain
    |>.provenance value.provenance

def ResourceCapability.sorted (value : ResourceCapability) : ResourceCapability :=
  { value with predicates := sortTexts value.predicates }

theorem encodeCapability_eq_spell (value : ResourceCapability) :
    (encodeCapability value : ByteWriter limit → ByteWriter limit) =
      spellCapability value.sorted := by
  funext w
  unfold encodeCapability spellCapability ResourceCapability.sorted
  simp only [ByteWriter.predicates_eq_keys]

theorem codes_spellCapability (value : ResourceCapability)
    (valid : G → validateCapability value = .ok ()) (declares : G → value.diversityDomain ≠ []) :
    Codes (spellCapability value : ByteWriter limit → ByteWriter limit) decodeCapability
      { value with digest := value.computeDigest } G := by
  have well : G → isValid value.resource = true ∧ isValid value.publisher = true ∧
      value.predicates.length ≤ Limits.maxCapabilityPredicates ∧
      (∀ key ∈ value.predicates, isValidIdentifier key Limits.maxPredicateKeyLen = true) ∧
      isValid value.diversityDomain = true := by
    intro good
    have capability := valid good
    have declared := declares good
    simp only [validateCapability, refuse_bind_eq_ok, checkKeys_bind_eq_ok, refuse_eq_ok]
      at capability
    obtain ⟨resource, -, publisher, -, -, -, -, -, -, -, -, -, -, -, few, keys, -, -, domain⟩ :=
      capability
    have domain : isValid value.diversityDomain = true := by simpa [declared] using domain
    exact ⟨by simpa using resource, by simpa using publisher, by simpa using few, keys, domain⟩
  unfold decodeCapability
  show Codes (emitAll [fun w => w.header tagCapability, fun w => w.ident value.resource,
    fun w => w.u64 value.generation, fun w => w.u64 value.epoch, fun w => w.ident value.publisher,
    fun w => w.u64 value.incarnation, fun w => w.u64 value.publishedAtMs,
    fun w => w.u64 value.expiresAtMs, fun w => w.u8 value.state.value,
    fun w => w.optionalU64 value.supportedRateBps, fun w => w.optionalU64 value.latencyBoundUs,
    fun w => w.optionalU64 value.jitterBoundUs, fun w => w.optionalU32 value.lossPpm,
    fun w => w.optionalU64 value.maxBurstBytes, fun w => w.optionalU64 value.burstWindowUs,
    fun w => w.optionalU64 value.mtuBytes, fun w => w.u8 value.maxIsolation.rank,
    fun w => w.u8 value.maxTreatment.rank, fun w => w.u32 value.maxPriorityRank,
    fun w => w.keys value.predicates Limits.maxCapabilityPredicates,
    fun w => w.ident value.diversityDomain, fun w => w.provenance value.provenance]) _ _ G
  apply Codes.step (codes_header _)
  apply Codes.step (codes_identifier (by decide) fun good => (well good).1)
  apply Codes.step (codes_u64 _)
  apply Codes.step (codes_u64 _)
  apply Codes.step (codes_identifier (by decide) fun good => (well good).2.1)
  apply Codes.step (codes_u64 _)
  apply Codes.step (codes_u64 _)
  apply Codes.step (codes_u64 _)
  apply Codes.step (codes_enum _ (by cases value.state <;> rfl))
  apply Codes.step (codes_optionalU64 _ _)
  apply Codes.step (codes_optionalU64 _ _)
  apply Codes.step (codes_optionalU64 _ _)
  apply Codes.step (codes_optionalU32 _ _)
  apply Codes.step (codes_optionalU64 _ _)
  apply Codes.step (codes_optionalU64 _ _)
  apply Codes.step (codes_optionalU64 _ _)
  apply Codes.step (codes_enum _ (by cases value.maxIsolation <;> rfl))
  apply Codes.step (codes_enum _ (by cases value.maxTreatment <;> rfl))
  apply Codes.step (codes_u32 _)
  apply Codes.step (codes_keys (fun good => (well good).2.2.1)
    fun good => (well good).2.2.2.1)
  apply Codes.step (codes_identifier (by decide) fun good => (well good).2.2.2.2)
  apply Codes.step (codes_provenance _ _)
  apply Codes.skip .sound
  apply Codes.skip (.lift valid)
  exact Codes.done

theorem codes_capability (value : ResourceCapability)
    (valid : G → validateCapability value = .ok ()) (declares : G → value.diversityDomain ≠ []) :
    Codes (encodeCapability value : ByteWriter limit → ByteWriter limit) decodeCapability
      value.readBack G := by
  have codes := @codes_spellCapability limit G value.sorted
    (fun good => (validateCapability_readBack value).trans (valid good)) declares
  rw [show value.sorted.computeDigest = value.computeDigest from value.computeDigest_sorted _,
    ← encodeCapability_eq_spell] at codes
  exact codes

/-! ## Reservations -/

def Reservation.readBack (value : Reservation) : Reservation :=
  { value with digest := value.computeDigest }

theorem codes_reservation (value : Reservation) (valid : G → validateReservation value = .ok ()) :
    Codes (encodeReservation value : ByteWriter limit → ByteWriter limit) decodeReservation
      value.readBack G := by
  have well : G → isValid value.resource = true ∧ isValid value.classId = true ∧
      isValid value.publisher = true := by
    intro good
    have reservation := valid good
    simp only [validateReservation, refuse_bind_eq_ok] at reservation
    obtain ⟨resource, -, classId, -, publisher, -⟩ := reservation
    exact ⟨by simpa using resource, by simpa using classId, by simpa using publisher⟩
  unfold decodeReservation
  show Codes (emitAll [fun w => w.header tagReservation, fun w => w.ident value.resource,
    fun w => w.u64 value.generation, fun w => w.ident value.classId,
    fun w => w.u64 value.classGeneration, fun w => w.u64 value.reservedMinRateBps,
    fun w => w.u64 value.reservedBurstBytes, fun w => w.u64 value.epoch,
    fun w => w.ident value.publisher, fun w => w.u64 value.incarnation,
    fun w => w.u64 value.expiresAtMs, fun w => w.provenance value.provenance]) _ _ G
  apply Codes.step (codes_header _)
  apply Codes.step (codes_identifier (by decide) fun good => (well good).1)
  apply Codes.step (codes_u64 _)
  apply Codes.step (codes_identifier (by decide) fun good => (well good).2.1)
  apply Codes.step (codes_u64 _)
  apply Codes.step (codes_u64 _)
  apply Codes.step (codes_u64 _)
  apply Codes.step (codes_u64 _)
  apply Codes.step (codes_identifier (by decide) fun good => (well good).2.2)
  apply Codes.step (codes_u64 _)
  apply Codes.step (codes_u64 _)
  apply Codes.step (codes_provenance _ _)
  apply Codes.skip .sound
  apply Codes.skip (.lift valid)
  exact Codes.done

/-! ## Any definition -/

namespace EntityKind

def readBack : (kind : EntityKind) → kind.Carrier → kind.Carrier
  | .class, value => QoSClass.readBack value
  | policy, value => Policy.readBack value
  | path, value => Path.readBack value
  | capability, value => ResourceCapability.readBack value
  | reservation, value => Reservation.readBack value

/-- A definition a decoder does not refuse: it is valid, and if it is a capability it declares a
failure domain, which a valid one may leave out when it is unavailable. -/
structure Readable (kind : EntityKind) (value : kind.Carrier) : Prop where
  valid : kind.validate value = .ok ()
  declares : ∀ capability : ResourceCapability, kind = .capability → HEq value capability →
    capability.diversityDomain ≠ []

def spell : (kind : EntityKind) → kind.Carrier → ByteWriter limit → ByteWriter limit
  | .class, value => spellQoSClass value
  | policy, value => spellPolicy value
  | path, value => encodePath value
  | capability, value => spellCapability value
  | reservation, value => encodeReservation value

def sorted : (kind : EntityKind) → kind.Carrier → kind.Carrier
  | .class, value => QoSClass.sorted value
  | policy, value => Policy.sorted value
  | path, value => value
  | capability, value => ResourceCapability.sorted value
  | reservation, value => value

def digested : (kind : EntityKind) → kind.Carrier → kind.Carrier
  | .class, value => { (value : QoSClass) with digest := QoSClass.computeDigest value }
  | policy, value => { (value : Policy) with digest := Policy.computeDigest value }
  | path, value => { (value : Path) with digest := Path.computeDigest value }
  | capability, value =>
      { (value : ResourceCapability) with digest := ResourceCapability.computeDigest value }
  | reservation, value => { (value : Reservation) with digest := Reservation.computeDigest value }

end EntityKind

theorem codes_spell (kind : EntityKind) (value : kind.Carrier)
    (readable : G → kind.Readable value) :
    Codes (kind.spell value : ByteWriter limit → ByteWriter limit) kind.decode
      (kind.digested value) G := by
  cases kind with
  | «class» => exact codes_spellQoSClass value fun good => (readable good).valid
  | policy => exact codes_spellPolicy value fun good => (readable good).valid
  | path => exact codes_path value fun good => (readable good).valid
  | capability =>
      exact codes_spellCapability value (fun good => (readable good).valid)
        fun good => (readable good).declares value rfl HEq.rfl
  | reservation => exact codes_reservation value fun good => (readable good).valid

theorem codes_entity (kind : EntityKind) (value : kind.Carrier)
    (readable : G → kind.Readable value) :
    Codes (kind.encode value : ByteWriter limit → ByteWriter limit) kind.decode
      (kind.readBack value) G := by
  cases kind with
  | «class» => exact codes_qosClass value fun good => (readable good).valid
  | policy => exact codes_policy value fun good => (readable good).valid
  | path => exact codes_path value fun good => (readable good).valid
  | capability =>
      exact codes_capability value (fun good => (readable good).valid)
        fun good => (readable good).declares value rfl HEq.rfl
  | reservation => exact codes_reservation value fun good => (readable good).valid

section ReadBack

variable (kind : EntityKind) (value : kind.Carrier)

@[simp] theorem entityId_readBack : kind.entityId (kind.readBack value) = kind.entityId value := by
  cases kind <;> rfl

@[simp] theorem generation_readBack :
    kind.generation (kind.readBack value) = kind.generation value := by
  cases kind <;> rfl

@[simp] theorem epoch_readBack : kind.epoch (kind.readBack value) = kind.epoch value := by
  cases kind <;> rfl

@[simp] theorem computeDigest_readBack :
    kind.computeDigest (kind.readBack value) = kind.computeDigest value := by
  cases kind with
  | «class» => exact QoSClass.computeDigest_sorted value _
  | policy => exact Policy.computeDigest_sorted value _
  | path => rfl
  | capability => exact ResourceCapability.computeDigest_sorted value _
  | reservation => rfl

@[simp] theorem digest_readBack : kind.digest (kind.readBack value) = kind.computeDigest value := by
  cases kind <;> rfl

theorem validate_readBack : kind.validate (kind.readBack value) = kind.validate value := by
  cases kind with
  | «class» => exact validateQoSClass_readBack value
  | policy => exact validatePolicy_readBack value
  | path => rfl
  | capability => exact validateCapability_readBack value
  | reservation => rfl

theorem readBack_readBack : kind.readBack (kind.readBack value) = kind.readBack value := by
  cases kind with
  | «class» =>
      show QoSClass.readBack (QoSClass.readBack value) = QoSClass.readBack value
      have digest := QoSClass.computeDigest_sorted value value.computeDigest
      unfold QoSClass.readBack
      rw [digest]
      simp only [sortTexts_sortTexts]
  | policy =>
      show Policy.readBack (Policy.readBack value) = Policy.readBack value
      have digest := Policy.computeDigest_sorted value value.computeDigest
      unfold Policy.readBack
      rw [digest]
      simp only [sortTexts_sortTexts]
  | path => rfl
  | capability =>
      show ResourceCapability.readBack (ResourceCapability.readBack value) =
        ResourceCapability.readBack value
      have digest := ResourceCapability.computeDigest_sorted value value.computeDigest
      unfold ResourceCapability.readBack
      rw [digest]
      simp only [sortTexts_sortTexts]
  | reservation => rfl

theorem encode_readBack (w : ByteWriter limit) :
    kind.encode (kind.readBack value) w = kind.encode value w := by
  cases kind with
  | «class» =>
      show encodeQoSClass (QoSClass.readBack value) w = encodeQoSClass value w
      unfold encodeQoSClass QoSClass.readBack
      simp only [predicates_sortTexts]
  | policy =>
      show encodePolicy (Policy.readBack value) w = encodePolicy value w
      unfold encodePolicy Policy.readBack
      simp only [predicates_sortTexts]
  | path => rfl
  | capability =>
      show encodeCapability (ResourceCapability.readBack value) w = encodeCapability value w
      unfold encodeCapability ResourceCapability.readBack
      simp only [predicates_sortTexts]
  | reservation => rfl

end ReadBack

end QoSFabric
