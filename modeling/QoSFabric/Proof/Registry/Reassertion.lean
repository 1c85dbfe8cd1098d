import QoSFabric.Proof.Codec.Records
import QoSFabric.Proof.Registry.Freshness
import QoSFabric.Proof.Registry.Shedding

/-!
# Assertions of a later epoch

A publisher that registers again after an epoch advance or a restart does so under a newer
incarnation, and the digest of a capability and of a reservation covers the incarnation. What the
publisher declared before is therefore a different definition now, and asserting it anew at the
generation it stands at is taken for an equivocation.
-/

namespace QoSFabric

open FileSystem Interaction Registry

variable {openings : Openings} {r r' : Registry} {d : Disk FileName} {D D' : Durable} {clock : UInt64}
  {events : List Event} {kind : EntityKind} {call : Call}

/-! ## What a digest covers -/

namespace EntityKind

/-- The publisher and the incarnation a definition is asserted under. -/
def authority : (kind : EntityKind) → kind.Carrier → Option (Text × PublisherIncarnation)
  | .class, _ | policy, _ | path, _ => none
  | capability, value =>
      some (ResourceCapability.publisher value, ResourceCapability.incarnation value)
  | reservation, value => some (Reservation.publisher value, Reservation.incarnation value)

/-- What a definition declares, without what its assertion adds. -/
def declared : (kind : EntityKind) → kind.Carrier → kind.Carrier
  | .class, value => asserted 0 .zero .none .class value
  | policy, value => asserted 0 .zero .none .policy value
  | path, value => asserted 0 .zero .none .path value
  | capability, value =>
      { (value : ResourceCapability) with
        epoch := 0, incarnation := 0, publishedAtMs := 0, expiresAtMs := 0
        predicates := sortTexts (ResourceCapability.predicates value)
        digest := .zero, provenance := .none }
  | reservation, value =>
      { (value : Reservation) with
        epoch := 0, incarnation := 0, expiresAtMs := 0, digest := .zero, provenance := .none }

def normalized : (kind : EntityKind) → kind.Carrier → kind.Carrier
  | .class, value => QoSClass.normalized value
  | policy, value => Policy.normalized value
  | path, value => Path.normalized value
  | capability, value => ResourceCapability.normalized value
  | reservation, value => Reservation.normalized value

def definition (kind : EntityKind) (value : kind.Carrier) : Option Bytes :=
  (kind.encode (kind.normalized value)
    (.empty : ByteWriter Limits.maxCanonicalRecordBytes)).data

/-- Two definitions that are different bytes with one SHA-256 digest. -/
def Collide (kind : EntityKind) (first second : kind.Carrier) : Prop :=
  ∃ a b, kind.definition first = some a ∧ kind.definition second = some b ∧ a ≠ b ∧
    sha256 a = sha256 b

theorem computeDigest_of_definition {value : kind.Carrier} {bytes : Bytes}
    (defines : kind.definition value = some bytes) : kind.computeDigest value = sha256 bytes := by
  cases kind <;> exact digestOfEncoding_of_data defines

@[simp] theorem definition_asserted (epoch : FabricEpoch) (digest : Digest256)
    (provenance : Provenance) (value : kind.Carrier) :
    kind.definition (kind.asserted epoch digest provenance value) = kind.definition value := by
  cases kind <;> rfl

end EntityKind

theorem u64_of_front {limit : Nat} {w : ByteWriter limit} {a b : UInt64}
    {first second : ByteWriter limit → ByteWriter limit} {bytes : Bytes} (appends : Appends first)
    (appends' : Appends second) (written : (first (w.u64 a)).data = some bytes)
    (written' : (second (w.u64 b)).data = some bytes) : a = b := by
  have number (n : UInt64) {before : Bytes} (data : (w.u64 n).data = some before) :
      ∃ front, w.data = some front ∧ before = front ++ LittleEndian.encode 8 n.toNat := by
    obtain ⟨front, held, fit⟩ := Option.bind_eq_some_iff.mp data
    split at fit
    · exact ⟨front, held, (Option.some.inj fit).symm⟩
    · cases fit
  obtain ⟨before, rest, data, rfl⟩ := appends _ _ written
  obtain ⟨before', rest', data', same⟩ := appends' _ _ written'
  obtain ⟨front, held, rfl⟩ := number a data
  obtain ⟨front', held', rfl⟩ := number b data'
  obtain rfl := Option.some.inj (held.symm.trans held')
  rw [List.append_assoc, List.append_assoc, List.append_cancel_left_eq] at same
  obtain ⟨codes, -⟩ := List.append_inj same (by
    rw [LittleEndian.length_encode, LittleEndian.length_encode])
  have numbers := congrArg LittleEndian.decode codes
  rw [LittleEndian.decode_encode_of_lt a.toNat_lt, LittleEndian.decode_encode_of_lt b.toNat_lt]
    at numbers
  exact UInt64.toNat_inj.mp numbers

theorem appends_capability (value : ResourceCapability) {limit : Nat} :
    Appends (emitAll [fun w : ByteWriter limit => w.u64 value.publishedAtMs,
      fun w => w.u64 value.expiresAtMs, fun w => w.u8 value.state.value,
      fun w => w.optionalU64 value.supportedRateBps, fun w => w.optionalU64 value.latencyBoundUs,
      fun w => w.optionalU64 value.jitterBoundUs, fun w => w.optionalU32 value.lossPpm,
      fun w => w.optionalU64 value.maxBurstBytes, fun w => w.optionalU64 value.burstWindowUs,
      fun w => w.optionalU64 value.mtuBytes, fun w => w.u8 value.maxIsolation.rank,
      fun w => w.u8 value.maxTreatment.rank, fun w => w.u32 value.maxPriorityRank,
      fun w => w.predicates value.predicates Limits.maxCapabilityPredicates,
      fun w => w.ident value.diversityDomain, fun w => w.provenance value.provenance]) := by
  apply Appends.all
  simp only [List.forall_mem_cons, List.not_mem_nil, false_implies, implies_true, and_true]
  have number (n : UInt64) : Appends fun w : ByteWriter limit => w.u64 n :=
    (codes_u64 (G := True) n).appends
  have byte (n : UInt8) : Appends fun w : ByteWriter limit => w.u8 n :=
    (codes_u8 (G := True) n).appends
  have optional (n : Option UInt64) : Appends fun w : ByteWriter limit => w.optionalU64 n :=
    (codes_optionalU64 (G := True) n "").appends
  exact ⟨number _, number _, byte _, optional _, optional _, optional _,
    (codes_optionalU32 (G := True) _ "").appends, optional _, optional _, optional _, byte _, byte _,
    (codes_u32 (G := True) _).appends, (codes_predicates (G := False) nofun nofun).appends,
    (codes_identifier (G := False) (by decide) nofun).appends,
    (codes_provenance (G := True) _ "").appends⟩

theorem appends_reservation (value : Reservation) {limit : Nat} :
    Appends (emitAll [fun w : ByteWriter limit => w.u64 value.expiresAtMs,
      fun w => w.provenance value.provenance]) := by
  apply Appends.all
  simp only [List.forall_mem_cons, List.not_mem_nil, false_implies, implies_true, and_true]
  exact ⟨(codes_u64 (G := True) _).appends, (codes_provenance (G := True) _ "").appends⟩

theorem definition_ne {first second : kind.Carrier} {publisher : Text}
    {older newer : PublisherIncarnation} (asserted : kind.authority first = some (publisher, older))
    (asserted' : kind.authority second = some (publisher, newer)) (lt : older < newer)
    (same : kind.declared first = kind.declared second) {bytes : Bytes}
    (defines : kind.definition first = some bytes) : kind.definition second ≠ some bytes := by
  intro defines'
  apply (UInt64.ne_of_lt lt)
  cases kind with
  | «class» => cases asserted
  | policy => cases asserted
  | path => cases asserted
  | capability =>
      obtain ⟨-, rfl⟩ := Prod.mk.inj (Option.some.inj asserted)
      obtain ⟨-, rfl⟩ := Prod.mk.inj (Option.some.inj asserted')
      -- the fields in front of the incarnation are declared, or the same in every digest
      let front (value : ResourceCapability) : ByteWriter Limits.maxCanonicalRecordBytes :=
        ByteWriter.empty.header tagCapability
          |>.ident value.resource
          |>.u64 value.generation
          |>.u64 0
          |>.ident value.publisher
      have fronts : front second = front first := (congrArg front same).symm
      have appends (value : ResourceCapability) :=
        @appends_capability value.normalized Limits.maxCanonicalRecordBytes
      exact u64_of_front (w := front first) (appends first) (appends second) defines
        (fronts ▸ defines')
  | reservation =>
      obtain ⟨-, rfl⟩ := Prod.mk.inj (Option.some.inj asserted)
      obtain ⟨-, rfl⟩ := Prod.mk.inj (Option.some.inj asserted')
      let front (value : Reservation) : ByteWriter Limits.maxCanonicalRecordBytes :=
        ByteWriter.empty.header tagReservation
          |>.ident value.resource
          |>.u64 value.generation
          |>.ident value.classId
          |>.u64 value.classGeneration
          |>.u64 value.reservedMinRateBps
          |>.u64 value.reservedBurstBytes
          |>.u64 0
          |>.ident value.publisher
      have fronts : front second = front first := (congrArg front same).symm
      have appends (value : Reservation) :=
        @appends_reservation value.normalized Limits.maxCanonicalRecordBytes
      exact u64_of_front (w := front first) (appends first) (appends second) defines
        (fronts ▸ defines')

theorem validate_normalized {value : kind.Carrier} (valid : kind.validate value = .ok ()) :
    kind.validate (kind.normalized value) = .ok () := by
  cases kind with
  | capability =>
      have valid : validateCapability value = .ok () := valid
      show validateCapability (ResourceCapability.normalized value) = .ok ()
      simp only [validateCapability, Proof.Engine.refuse_bind_eq_ok] at valid ⊢
      obtain ⟨resource, generation, publisher, incarnation, -, rest⟩ := valid
      exact ⟨resource, generation, publisher, incarnation, rfl, rest⟩
  | _ => exact valid

theorem definition_of_valid {value : kind.Carrier} (valid : kind.validate value = .ok ()) :
    ∃ bytes, kind.definition value = some bytes := by
  have clipped : (kind.provenance (kind.normalized value)).Clipped := by
    cases kind <;> exact Nat.zero_le _
  obtain ⟨bytes, written, -⟩ := within_entity (validate_normalized valid) clipped
  exact ⟨bytes, written⟩

/-! ## Incarnations held -/

/-- Evidence has been asserted under an incarnation that its publisher has reached, and in an earlier
epoch under an older one than the publisher holds now. -/
structure Registry.Surpassed (r : Registry) : Prop where
  fenced : r.Fenced
  reached : ∀ kind id held publisher incarnation, r.latest kind id = some held →
    kind.authority held = some (publisher, incarnation) → r.Reached publisher incarnation
  older : ∀ kind id held publisher incarnation, r.latest kind id = some held →
    kind.authority held = some (publisher, incarnation) → kind.epoch held < r.currentEpoch →
    ∀ lease, r.leases.lookup publisher = some lease → incarnation < lease.incarnation

@[simp] theorem authority_lasting (value : kind.Carrier) :
    kind.authority (kind.lasting value) = kind.authority value := by
  cases kind <;> rfl

@[simp] theorem epoch_lasting (value : kind.Carrier) :
    kind.epoch (kind.lasting value) = kind.epoch value := by
  cases kind <;> rfl

@[simp] theorem authority_published (epoch : FabricEpoch) (digest : Digest256)
    (provenance provenance' : Provenance) (value : kind.Carrier) :
    kind.authority (kind.withProvenance provenance
      (kind.asserted epoch digest provenance' value)) = kind.authority value := by
  cases kind <;> rfl

theorem authority_of_asserts {value : kind.Carrier} (asserts : r.asserts call = some ⟨kind, value⟩) :
    call.authority = kind.authority value := by
  cases call with
  | publishClass | publishPolicy | publishPath | publishCapability | publishReservation =>
      cases asserts
      rfl
  | _ => cases asserts

theorem Registry.Fenced.reached (fenced : r.Fenced) {publisher : Text} {lease : PublisherLease}
    (held : r.leases.lookup publisher = some lease) : r.Reached publisher lease.incarnation :=
  ⟨lease.incarnation, (fenced publisher lease held).1, UInt64.le_refl _⟩

namespace Registry.Surpassed

theorem effect {answer : Answer} (surpassed : r.Surpassed) (faithful : Faithful r D)
    (effect : Effect clock r D call answer r' D') : r'.Surpassed := by
  have fenced := invariant_fenced.effect surpassed.fenced trivial effect
  have reaches {publisher : Text} {incarnation : PublisherIncarnation}
      (reached : r.Reached publisher incarnation) : r'.Reached publisher incarnation :=
    (invariant_reached publisher incarnation).effect reached trivial effect
  -- a definition that is still the newest one
  have kept {kind : EntityKind} {id : Text} {held : kind.Carrier} {publisher : Text}
      {incarnation : PublisherIncarnation} (newest : r.latest kind id = some held)
      (asserted : kind.authority held = some (publisher, incarnation)) :
      r'.Reached publisher incarnation ∧ (kind.epoch held < r'.currentEpoch →
        ∀ lease, r'.leases.lookup publisher = some lease → incarnation < lease.incarnation) := by
    have reached := surpassed.reached _ _ _ _ _ newest asserted
    refine ⟨reaches reached, ?_⟩
    intro earlier lease leased
    cases effect.leases leased with
    | inl kept =>
        obtain ⟨before, -⟩ := kept
        have epoch : r'.currentEpoch = r.currentEpoch :=
          (fenced _ _ leased).2.symm.trans (surpassed.fenced _ _ before).2
        exact surpassed.older _ _ _ _ _ newest asserted (epoch ▸ earlier) lease before
    | inr grants =>
        obtain ⟨rfl, boot, ttlMs, origin, rfl, rfl⟩ := grants
        have given : (Event.called clock (.registerPublisher lease.publisher lease.incarnation boot
            ttlMs origin) (.granted (.ok lease))).grant lease.publisher = some lease.incarnation :=
          if_pos rfl
        exact (effect.granted given).2 incarnation reached
  cases asserts : r.asserts call with
  | none =>
      have latest := effect.latest faithful asserts
      refine ⟨fenced, ?_, ?_⟩
      · intro kind id held publisher incarnation newest asserted
        rw [latest] at newest
        exact (kept newest asserted).1
      · intro kind id held publisher incarnation newest asserted
        rw [latest] at newest
        exact (kept newest asserted).2
  | some published =>
      obtain ⟨kind, value⟩ := published
      obtain ⟨result, rfl, publishes⟩ := effect.publishes faithful asserts
      have abiding (abides : Abides r r') : r'.Surpassed := by
        refine ⟨fenced, ?_, ?_⟩
        · intro kind id held publisher incarnation newest asserted
          rw [abides.latest] at newest
          exact (kept newest asserted).1
        · intro kind id held publisher incarnation newest asserted
          rw [abides.latest] at newest
          exact (kept newest asserted).2
      cases publishes with
      | refused e abides => exact abiding abides
      | held abides => exact abiding abides
      | added valid next epoch newest others =>
          refine ⟨fenced, ?_, ?_⟩
          · intro other id held publisher incarnation latest asserted
            by_cases elsewhere : other ≠ kind ∨ id ≠ kind.entityId value
            · rw [others other id elsewhere] at latest
              exact (kept latest asserted).1
            · obtain ⟨rfl, rfl⟩ : other = kind ∧ id = kind.entityId value := by
                simpa only [not_or, not_not] using elsewhere
              obtain rfl := Option.some.inj (newest.symm.trans latest)
              rw [authority_published, ← authority_of_asserts asserts] at asserted
              obtain ⟨lease, leased, rfl, -⟩ := effect.authorized asserted
              exact reaches (surpassed.fenced.reached leased)
          · intro other id held publisher incarnation latest asserted
            by_cases elsewhere : other ≠ kind ∨ id ≠ kind.entityId value
            · rw [others other id elsewhere] at latest
              exact (kept latest asserted).2
            · obtain ⟨rfl, rfl⟩ : other = kind ∧ id = kind.entityId value := by
                simpa only [not_or, not_not] using elsewhere
              obtain rfl := Option.some.inj (newest.symm.trans latest)
              rw [epoch_withProvenance, epoch_asserted, epoch]
              intro earlier
              exact absurd earlier (UInt64.lt_irrefl _)

theorem fresh (options : RegistryOptions) (store : Store) (clock : UInt64) :
    (Registry.fresh options store clock).Surpassed where
  fenced _ _ held := by
    have held : (∅ : Table Text PublisherLease).lookup _ = _ := held
    rw [AList.lookup_empty] at held
    cases held
  reached _ _ _ _ _ newest := nomatch newest
  older _ _ _ _ _ newest := nomatch newest

theorem unleased (latest : ∀ kind id held, r'.latest kind id = some held →
      ∃ original, r.latest kind id = some original ∧ kind.authority original = kind.authority held)
    (reaches : ∀ publisher incarnation, r.Reached publisher incarnation →
      r'.Reached publisher incarnation) (surpassed : r.Surpassed) (empty : r'.leases = ∅) :
    r'.Surpassed := by
  have none (publisher : Text) (lease : PublisherLease) :
      r'.leases.lookup publisher ≠ some lease := by
    rw [empty, AList.lookup_empty]
    nofun
  refine ⟨fun publisher lease held => absurd held (none publisher lease), ?_,
    fun kind id held publisher incarnation _ _ _ lease leased => absurd leased (none _ _)⟩
  intro kind id held publisher incarnation newest asserted
  obtain ⟨original, before, same⟩ := latest kind id held newest
  exact reaches _ _ (surpassed.reached kind id original _ _ before (same.trans asserted))

end Registry.Surpassed

theorem carrying_surpassed (members : Option Registry) (event : Event) :
    Carrying members event Registry.Surpassed Registry.Surpassed where
  idle _ _ surpassed := surpassed
  claimed {r r' D D'} _ _ advancing surpassed := by
    refine surpassed.unleased ?_
      (fun publisher incarnation reached =>
        (invariant_reached publisher incarnation).advancing reached advancing) ?_
    · generalize r'.currentEpoch = next at advancing
      cases advancing with
      | done => exact fun _ _ held newest => ⟨held, newest, rfl⟩
    · generalize r'.currentEpoch = next at advancing
      cases advancing with
      | done => rfl
  effect _ _ faithful effect surpassed := surpassed.effect faithful effect
  recovered recovers _ _ recalls surpassed := by
    obtain ⟨loaded, load, rebuilt⟩ := recovers
    refine surpassed.unleased ?_
      (fun publisher incarnation reached => reached.congr (recalls.watermark publisher))
      (unread_of_recovered load rebuilt).leases
    intro kind id held newest
    obtain ⟨original, before, alike⟩ := recalls.newest newest
    refine ⟨original, before, ?_⟩
    rw [← authority_lasting, alike, authority_lasting]

theorem Run.surpassed (run : Run openings events (.up r d)) :
    ∃ D, Drives r.store d D ∧ Faithful r D ∧ r.Surpassed := by
  obtain ⟨D, refines, turns⟩ := run.turns
  have carries : Carries Registry.Surpassed (some r) D :=
    (turns.keeps (fun options store clock _ => .fresh options store clock) carrying_surpassed).1
  exact ⟨D, refines, turns.faithful.1, carries⟩

/-! ## Publications under a lease -/

/-- A call that asserts, under a lease and in a later epoch, what the newest definition of an
identifier declares. -/
structure Registry.Reasserts (r : Registry) (call : Call) (kind : EntityKind)
    (held value : kind.Carrier) : Prop where
  asserts : r.asserts call = some ⟨kind, value⟩
  leased : (kind.authority value).isSome
  clears : r.clears call = .ok ()
  newest : r.latest kind (kind.entityId value) = some held
  same : kind.declared held = kind.declared value
  later : kind.epoch held < r.currentEpoch

/-- A publication into a full window is preceded by a compaction, whose snapshot has to fit. -/
def Registry.Accommodates (r : Registry) (kind : EntityKind) (id : Text) : Prop :=
  r.windowFull kind id = true → ∃ bytes, r.prune.encodeSnapshotState = .ok bytes

/-- A publication is answered with the digest that is held, and leaves no marker. -/
def Harmless (r : Registry) (kind : EntityKind) (held : kind.Carrier) (answer : Answer)
    (site : Site) : Prop :=
  answer = .published (.ok ⟨kind.generation held, 0, kind.digest held⟩) ∧
    ∃ r' d', site = .up r' d' ∧ r'.conflicts = r.conflicts

theorem authority_of_declared {first second : kind.Carrier} {publisher : Text}
    {incarnation : PublisherIncarnation} (same : kind.declared first = kind.declared second)
    (asserted : kind.authority second = some (publisher, incarnation)) :
    ∃ other, kind.authority first = some (publisher, other) := by
  cases kind with
  | capability =>
      cases asserted
      have publishers := congrArg ResourceCapability.publisher same
      exact ⟨_, congrArg (fun publisher => some (publisher, _)) publishers⟩
  | reservation =>
      cases asserted
      have publishers := congrArg Reservation.publisher same
      exact ⟨_, congrArg (fun publisher => some (publisher, _)) publishers⟩
  | _ => cases asserted

theorem generation_of_declared {first second : kind.Carrier}
    (same : kind.declared first = kind.declared second) :
    kind.generation first = kind.generation second := by
  have generations := congrArg kind.generation same
  cases kind <;> exact generations

theorem cleared {value : kind.Carrier} (asserts : r.asserts call = some ⟨kind, value⟩)
    (clears : r.clears call = .ok ()) {publisher : Text} {incarnation : PublisherIncarnation}
    (asserted : kind.authority value = some (publisher, incarnation)) :
    kind.validate value = .ok () ∧ r.Authorizes r.nowMs publisher incarnation := by
  cases call with
  | publishCapability value =>
      cases asserts
      cases asserted
      unfold Registry.clears at clears
      cases valid : validateCapability value with
      | error e =>
          simp only [valid] at clears
          cases clears
      | ok =>
          simp only [valid] at clears
          exact ⟨valid, authorizes_of_authorize clears⟩
  | publishReservation value =>
      cases asserts
      cases asserted
      unfold Registry.clears at clears
      cases valid : validateReservation value with
      | error e =>
          simp only [valid] at clears
          cases clears
      | ok =>
          simp only [valid] at clears
          exact ⟨valid, authorizes_of_authorize clears⟩
  | publishClass | publishPolicy | publishPath =>
      cases asserts
      cases asserted
  | _ => cases asserts

theorem ends_recordConflict {marker : ConflictMarker} {result : Result PublicationResult}
    {d' : Disk FileName} (ends : (r.recordConflict marker).Ends Disk.world d (result, r') d') :
    ∃ e, result = .error e := by
  unfold recordConflict at ends
  split at ends
  · cases ends
    exact ⟨_, rfl⟩
  · obtain ⟨⟨journalled, r₁⟩, m, -, rest⟩ := Program.ends_bind.mp ends
    cases journalled <;> cases rest <;> exact ⟨_, rfl⟩

theorem admission_of_latest {held value : kind.Carrier} {digest : Digest256}
    (newest : r.latest kind (kind.entityId value) = some held)
    (generation : kind.generation held = kind.generation value) :
    admission kind (r.tables kind) value digest =
      if kind.digest held = digest then .held (kind.generation held)
      else .equivocated (kind.digest held) := by
  have last : ((r.tables kind).held (kind.entityId value)).getLast? = some held := newest
  unfold admission
  rw [getLast?_held, last]
  dsimp only
  rw [generation, if_neg (UInt64.lt_irrefl _), if_pos rfl]

theorem ends_publishAdmitted {held value : kind.Carrier} {result : Result PublicationResult}
    {d' : Disk FileName} (newest : r.latest kind (kind.entityId value) = some held)
    (generation : kind.generation held = kind.generation value)
    (ends : (r.publishAdmitted kind value).Ends Disk.world d (result, r') d') :
    (kind.contentDigest value = kind.digest held ∧ r' = r ∧
        result = .ok ⟨kind.generation held, 0, kind.digest held⟩) ∨
      kind.contentDigest value ≠ kind.digest held ∧ ∃ e, result = .error e := by
  unfold publishAdmitted at ends
  rw [← EntityKind.contentDigest] at ends
  dsimp only at ends
  rw [admission_of_latest newest generation] at ends
  by_cases same : kind.digest held = kind.contentDigest value
  · rw [if_pos same] at ends
    cases ends
    exact .inl ⟨same.symm, rfl, by rw [same]⟩
  · rw [if_neg same] at ends
    exact .inr ⟨Ne.symm same, ends_recordConflict ends⟩

theorem latest_withStore (r : Registry) (store : Store) (id : Text) :
    (r.withStore store).latest kind id = r.latest kind id := rfl

theorem positive_of_valid {value : kind.Carrier} (valid : kind.validate value = .ok ()) :
    kind.generation value ≠ 0 := by
  have positive : (kind.generation value == 0) = false := by
    cases kind <;>
      simp only [EntityKind.validate, validateQoSClass, validatePolicy, validatePath,
        validateCapability, validateReservation, Proof.Engine.refuse_bind_eq_ok] at valid <;>
      exact valid.2.1
  simpa using positive

theorem Drives.ends_publishEntity {held value : kind.Carrier} {result : Result PublicationResult}
    {d' : Disk FileName} (drives : Drives r.store d D) (sane : r.Sane)
    (valid : kind.validate value = .ok ())
    (newest : r.latest kind (kind.entityId value) = some held)
    (generation : kind.generation held = kind.generation value)
    (ends : (r.publishEntity kind value).Ends Disk.world d (result, r') d') :
    ((kind.contentDigest value = kind.digest held ∧ r.Accommodates kind (kind.entityId value)) ∧
        result = .ok ⟨kind.generation held, 0, kind.digest held⟩ ∧ r'.conflicts = r.conflicts) ∨
      ¬(kind.contentDigest value = kind.digest held ∧
        r.Accommodates kind (kind.entityId value)) ∧ ∃ e, result = .error e := by
  unfold publishEntity at ends
  rw [valid] at ends
  dsimp only at ends
  rw [if_neg (positive_of_valid valid)] at ends
  split at ends
  next full =>
    obtain ⟨⟨compacted, r₁⟩, m, compacts, rest⟩ := Program.ends_bind.mp ends
    rcases drives.ends_compactLocked compacts with
      ⟨⟨e, rfl⟩, unencoded, rfl⟩ | ⟨fits, rfl, handle, rfl, -⟩
    · cases rest
      refine .inr ⟨fun both => ?_, e, rfl⟩
      obtain ⟨bytes, encoded⟩ := both.2 full
      rw [encoded] at unencoded
      cases unencoded
    · generalize r.store.afresh handle = store at rest
      have accommodates : r.Accommodates kind (kind.entityId value) := fun _ => by
        cases encoded : r.prune.encodeSnapshotState with
        | error e =>
            rw [encoded] at fits
            cases fits
        | ok bytes => exact ⟨bytes, rfl⟩
      have kept : (r.prune.withStore store).conflicts = r.conflicts := by
        rw [conflicts_withStore, sane.recorded.conflicts_prune]
      have newest : (r.prune.withStore store).latest kind (kind.entityId value) = some held := by
        rw [latest_withStore, latest_prune sane.orderly]
        exact newest
      rcases ends_publishAdmitted newest generation rest with ⟨same, rfl, ok⟩ | ⟨differs, failed⟩
      · exact .inl ⟨⟨same, accommodates⟩, ok, kept⟩
      · exact .inr ⟨fun both => differs both.1, failed⟩
  next room =>
    have accommodates : r.Accommodates kind (kind.entityId value) := fun full => absurd full room
    rcases ends_publishAdmitted newest generation ends with ⟨same, rfl, ok⟩ | ⟨differs, failed⟩
    · exact .inl ⟨⟨same, accommodates⟩, ok, rfl⟩
    · exact .inr ⟨fun both => differs both.1, failed⟩

/-! ## Runs -/

theorem Registry.Reasserts.digest_iff {held value : kind.Carrier}
    (reasserts : r.Reasserts call kind held value) (sane : r.Sane) (surpassed : r.Surpassed) :
    kind.contentDigest value = kind.digest held ↔ kind.Collide held value := by
  obtain ⟨⟨publisher, incarnation⟩, asserted⟩ := Option.isSome_iff_exists.mp reasserts.leased
  obtain ⟨valid, lease, leased, rfl, -⟩ := cleared reasserts.asserts reasserts.clears asserted
  obtain ⟨older, before⟩ := authority_of_declared reasserts.same asserted
  have lt := surpassed.older _ _ _ _ _ reasserts.newest before reasserts.later lease leased
  have admitted := (sane.orderly.tables kind).admitted _ held
    (List.mem_of_getLast? reasserts.newest)
  obtain ⟨a, defines⟩ := definition_of_valid admitted.valid
  obtain ⟨b, defines'⟩ := definition_of_valid valid
  have ne : a ≠ b := by
    rintro rfl
    exact definition_ne before asserted lt reasserts.same defines defines'
  have digest : kind.digest held = sha256 a :=
    admitted.addressed.trans (EntityKind.computeDigest_of_definition defines)
  have digest' : kind.contentDigest value = sha256 b :=
    EntityKind.computeDigest_of_definition ((EntityKind.definition_asserted ..).trans defines')
  rw [digest, digest']
  constructor
  · intro same
    exact ⟨a, b, defines, defines', ne, same.symm⟩
  · rintro ⟨a', b', first, second, -, same⟩
    obtain rfl := Option.some.inj (defines.symm.trans first)
    obtain rfl := Option.some.inj (defines'.symm.trans second)
    exact same.symm

/-- An assertion of a later epoch is harmless only if SHA-256 gives what is held and what is asserted,
which are different bytes, one digest. -/
theorem reassertion_harmless_iff {held value : kind.Carrier} {answer : Answer} {site : Site}
    (run : Run openings events (.up r d)) (reasserts : r.Reasserts call kind held value)
    (step : Step openings (.up r d) (.called clock call answer) site) :
    Harmless r kind held answer site ↔
      kind.Collide held value ∧ r.Accommodates kind (kind.entityId value) := by
  obtain ⟨D, drives, faithful, surpassed⟩ := run.surpassed
  obtain ⟨⟨publisher, incarnation⟩, asserted⟩ := Option.isSome_iff_exists.mp reasserts.leased
  obtain ⟨valid, -⟩ := cleared reasserts.asserts reasserts.clears asserted
  cases step with
  | called ends =>
      rw [call_of_clears reasserts.asserts reasserts.clears] at ends
      obtain ⟨⟨result, r₁⟩, m, publishes, rest⟩ := Program.ends_bind.mp ends
      cases rest
      rw [← reasserts.digest_iff faithful.sane surpassed]
      rcases drives.ends_publishEntity faithful.sane valid reasserts.newest
        (generation_of_declared reasserts.same) publishes with ⟨both, rfl, kept⟩ | ⟨not, e, rfl⟩
      · exact ⟨fun _ => both, fun _ => ⟨rfl, _, _, rfl, kept⟩⟩
      · constructor
        · rintro ⟨answered, -⟩
          cases answered
        · intro both
          exact absurd both not

def returned : List Action :=
  leased ++ [.call 0 (.publishCapability leasedCapability), .call 0 (.advanceEpoch []),
    .call 0 (.registerPublisher (text "p1") 2 ⟨List.replicate 16 1, BootId.size_ones⟩ 10 [])]

/-- What the publisher declared, under its lease of the second epoch. -/
def returnedCapability : ResourceCapability :=
  { leasedCapability with epoch := 2, incarnation := 2 }

def reassertsReturned : Bool :=
  match (Site.down Disk.empty).rehearse returned with
  | some (_, .up r d) =>
      match r.latest .capability (text "r1"), r.clears (.publishCapability returnedCapability),
          (execute (r.call 0 (.publishCapability returnedCapability)) d).1.1 with
      | some held, .ok (), .published (.error _) =>
          decide (EntityKind.declared .capability held =
            EntityKind.declared .capability returnedCapability) &&
          decide (EntityKind.epoch .capability held < r.currentEpoch)
      | _, _, _ => false
  | _ => false

theorem exists_reasserted : ∃ events r d held value e site,
    Run .any events (.up r d) ∧
    r.Reasserts (.publishCapability returnedCapability) .capability held value ∧
    Step .any (.up r d)
      (.called 0 (.publishCapability returnedCapability) (.published (.error e))) site := by
  have reasserts : reassertsReturned = true := by decide +kernel
  unfold reassertsReturned at reasserts
  split at reasserts
  case h_2 => cases reasserts
  next events r d rehearsed =>
    split at reasserts
    case h_2 => cases reasserts
    next held e newest clears answered =>
      rw [Bool.and_eq_true, decide_eq_true_eq, decide_eq_true_eq] at reasserts
      have run := run_of_rehearse rehearsed
      cases executed : execute (r.call 0 (.publishCapability returnedCapability)) d with
      | mk outcome d' =>
          obtain ⟨answer, r'⟩ := outcome
          rw [executed] at answered
          obtain rfl : answer = _ := answered
          exact ⟨events, r, d, held, _, e, .up r' d', run,
            ⟨rfl, rfl, clears, newest, reasserts.1, reasserts.2⟩, .called (ends_of_execute executed)⟩

/-- A publisher that comes back and declares what it declared before is refused. -/
theorem reassertion_refused : ¬∀ openings events r d clock call kind held value answer site,
    Run openings events (.up r d) → r.Reasserts call kind held value →
    Step openings (.up r d) (.called clock call answer) site → Harmless r kind held answer site := by
  intro harmless
  obtain ⟨events, r, d, held, value, e, site, run, reasserts, step⟩ := exists_reasserted
  cases (harmless _ events r d 0 _ _ held value _ site run reasserts step).1

theorem reassertion_harmless_iff_returned : ∃ events r d held value e site,
    Run .any events (.up r d) ∧
    r.Reasserts (.publishCapability returnedCapability) .capability held value ∧
    Step .any (.up r d)
      (.called 0 (.publishCapability returnedCapability) (.published (.error e))) site ∧
    (Harmless r .capability held (.published (.error e)) site ↔
      EntityKind.Collide .capability held value ∧
        r.Accommodates .capability (EntityKind.entityId .capability value)) := by
  obtain ⟨events, r, d, held, value, e, site, run, reasserts, step⟩ := exists_reasserted
  exact ⟨events, r, d, held, value, e, site, run, reasserts, step,
    reassertion_harmless_iff run reasserts step⟩

end QoSFabric
