import QoSFabric.Proof.Engine.Sorted
import QoSFabric.Proof.Codec.Size
import QoSFabric.Proof.Engine.Evidence
import QoSFabric.Proof.Registry.Reassertion

/-!
# The order of lists

The canonical encoding sorts predicates and leaves the denied classes of a policy in the order they
are given. So the digest of a policy, and of every decision that names it, depends on that order;
the verdict and the digests of classes and capabilities depend on none.
-/

namespace QoSFabric

open Proof.Engine

structure QoSClass.Relisted (value other : QoSClass) : Prop where
  predicates : value.requiredPredicates.Perm other.requiredPredicates
  rest : { value with
    requiredPredicates := other.requiredPredicates, digest := other.digest } = other

structure ResourceCapability.Relisted (value other : ResourceCapability) : Prop where
  predicates : value.predicates.Perm other.predicates
  rest : { value with predicates := other.predicates, digest := other.digest } = other

structure Policy.Relisted (value other : Policy) : Prop where
  denied : value.deniedClasses.Perm other.deniedClasses
  rest : { value with deniedClasses := other.deniedClasses, digest := other.digest } = other

def QoSClass.rehashed (value : QoSClass) : QoSClass :=
  { value with digest := value.computeDigest }

def ResourceCapability.rehashed (value : ResourceCapability) : ResourceCapability :=
  { value with digest := value.computeDigest }

def Policy.rehashed (value : Policy) : Policy :=
  { value with digest := value.computeDigest }

theorem QoSClass.Relisted.computeDigest {value other : QoSClass} (relisted : value.Relisted other) :
    other.computeDigest = value.computeDigest := by
  rw [← QoSClass.computeDigest_sorted value .zero, ← QoSClass.computeDigest_sorted other .zero,
    sortTexts_eq_of_perm relisted.predicates, ← relisted.rest]

theorem ResourceCapability.Relisted.computeDigest {value other : ResourceCapability}
    (relisted : value.Relisted other) : other.computeDigest = value.computeDigest := by
  rw [← ResourceCapability.computeDigest_sorted value .zero,
    ← ResourceCapability.computeDigest_sorted other .zero,
    sortTexts_eq_of_perm relisted.predicates, ← relisted.rest]

theorem QoSClass.Relisted.sorted {value other : QoSClass} (relisted : value.Relisted other) :
    other.rehashed.sorted = value.rehashed.sorted := by
  unfold QoSClass.rehashed QoSClass.sorted
  dsimp only
  rw [relisted.computeDigest, sortTexts_eq_of_perm relisted.predicates, ← relisted.rest]

theorem ResourceCapability.Relisted.sorted {value other : ResourceCapability}
    (relisted : value.Relisted other) : other.rehashed.sorted = value.rehashed.sorted := by
  unfold ResourceCapability.rehashed ResourceCapability.sorted
  dsimp only
  rw [relisted.computeDigest, sortTexts_eq_of_perm relisted.predicates, ← relisted.rest]

theorem Policy.Relisted.listed {value other : Policy} (relisted : value.Relisted other)
    (digest : Digest256) : other.rehashed.listed digest = value.rehashed.listed digest := by
  unfold Policy.rehashed Policy.listed
  dsimp only
  rw [sortTexts_eq_of_perm relisted.denied, ← relisted.rest]

def readTexts (maxLen : Nat) : Decode (List Text) :=
  decodeCount 0xFFFFFFFF "" >>= Decode.times (.read (Read.str maxLen))

def readDenied : Decode (List Text) := do
  expectHeader tagPolicy
  let _ ← .read (Read.str Limits.maxIdentifierLen)
  let _ ← .read Read.u64
  let _ ← .read (Read.str Limits.maxLabelLen)
  let _ ← .read Read.presence
  let _ ← .read Read.u32
  let _ ← .read Read.u32
  let _ ← .read Read.u64
  let _ ← .read Read.u32
  let _ ← readTexts Limits.maxPredicateKeyLen
  let denied ← readTexts Limits.maxIdentifierLen
  let _ ← .read Read.u64
  let _ ← decodeProvenance ""
  pure denied

section Codec

variable {limit : Nat}

theorem codes_texts (texts : List Text) {maxLen : Nat} (bound : maxLen < 2 ^ 32) :
    Codes (fun w : ByteWriter limit => w.counted texts fun w value => w.str value maxLen)
      (readTexts maxLen) texts True := by
  intro w out written
  have small : ¬texts.length > 0xFFFFFFFF := by
    intro large
    dsimp only at written
    rw [ByteWriter.counted, if_pos large] at written
    cases written
  exact codes_list (fun _ => Nat.le_of_not_lt small) (fun value _ => codes_str value bound) w out
    written

theorem codes_keyTexts (keys : List Text) (maxCount : Nat) :
    Codes (fun w : ByteWriter limit => w.keys keys maxCount) (readTexts Limits.maxPredicateKeyLen)
      keys True := by
  intro w out written
  unfold ByteWriter.keys at written
  dsimp only at written
  split at written
  · cases written
  · exact codes_texts keys (by decide) w out written

theorem codes_denied (value : Policy) :
    Codes (encodePolicy value : ByteWriter limit → ByteWriter limit) readDenied value.deniedClasses
      True := by
  rw [encodePolicy_eq_spell]
  unfold readDenied
  show Codes (emitAll [fun w => w.header tagPolicy, fun w => w.ident value.id,
    fun w => w.u64 value.generation, fun w => w.str value.label Limits.maxLabelLen,
    fun w => w.presence value.degradePermitted, fun w => w.u32 value.maxRelaxationPpm,
    fun w => w.u32 value.maxStaleEpochs, fun w => w.u64 value.capabilityMaxAgeMs,
    fun w => w.u32 value.maxUnknownComponents,
    fun w => w.keys (sortTexts value.requiredPredicates) Limits.maxRequiredPredicates,
    fun w => w.counted value.deniedClasses (fun w id => w.ident id),
    fun w => w.u64 value.publishedEpoch, fun w => w.provenance value.provenance]) _ _ True
  apply Codes.step (codes_header _)
  apply Codes.step (codes_str _ (by decide))
  apply Codes.step (codes_u64 _)
  apply Codes.step (codes_str _ (by decide))
  apply Codes.step (codes_presence _)
  apply Codes.step (codes_u32 _)
  apply Codes.step (codes_u32 _)
  apply Codes.step (codes_u64 _)
  apply Codes.step (codes_u32 _)
  apply Codes.step (codes_keyTexts _ _)
  apply Codes.step (codes_texts _ (by decide))
  apply Codes.step (codes_u64 _)
  apply Codes.step (codes_provenance _ _)
  exact Codes.done

end Codec

theorem deniedClasses_eq_of_definition {value other : Policy} {bytes : Bytes}
    (defines : EntityKind.definition .policy value = some bytes)
    (defines' : EntityKind.definition .policy other = some bytes) :
    value.deniedClasses = other.deniedClasses := by
  have first := (codes_denied value.normalized).reads defines [] trivial
  have second := (codes_denied other.normalized).reads defines' [] trivial
  rcases first with read | ⟨refused, -⟩
  · rcases second with read' | ⟨refused, -⟩
    · exact (Prod.mk.inj (Except.ok.inj (read.symm.trans read'))).1
    · exact absurd trivial refused
  · exact absurd trivial refused

theorem Policy.Relisted.encoded {value other : Policy} (relisted : value.Relisted other) :
    EntityKind.definition .policy other = none ↔ EntityKind.definition .policy value = none := by
  have same : (EntityKind.definition .policy value).map List.length =
      (EntityKind.definition .policy other).map List.length := by
    rw [← relisted.rest]
    show (encodePolicy value.normalized
      (.empty : ByteWriter Limits.maxCanonicalRecordBytes)).SameSize _
    exact ((ByteWriter.SameSize.counted_perm relisted.denied _ (.refl _)).u64 _).provenance _
  rw [← Option.map_eq_none_iff (f := List.length), ← same, Option.map_eq_none_iff]

/-- What leaves the digest of a policy alone: the order of its denied classes is kept, the policy is
not encoded at all, or SHA-256 gives two encodings one digest. -/
def Policy.KeepsDigest (value other : Policy) : Prop :=
  value.deniedClasses = other.deniedClasses ∨ EntityKind.definition .policy value = none ∨
    EntityKind.Collide .policy value other

theorem Policy.computeDigest_eq (value : Policy) :
    value.computeDigest = ((EntityKind.definition .policy value).map sha256).getD .zero := by
  cases defines : EntityKind.definition .policy value with
  | none => exact digestOfEncoding_of_exceeded defines
  | some bytes => exact digestOfEncoding_of_data defines

theorem Policy.Relisted.digest_iff {value other : Policy} (relisted : value.Relisted other) :
    other.computeDigest = value.computeDigest ↔ value.KeepsDigest other := by
  have encoded := relisted.encoded
  rw [Policy.computeDigest_eq, Policy.computeDigest_eq]
  constructor
  · intro same
    cases defines : EntityKind.definition .policy value with
    | none => exact .inr (.inl defines)
    | some bytes =>
        obtain ⟨bytes', defines'⟩ : ∃ bytes', EntityKind.definition .policy other = some bytes' :=
          Option.ne_none_iff_exists'.mp fun failed => by simp [encoded.mp failed] at defines
        rw [defines, defines'] at same
        by_cases eq : bytes = bytes'
        · exact .inl (deniedClasses_eq_of_definition defines (eq ▸ defines'))
        · exact .inr (.inr ⟨bytes, bytes', defines, defines', eq, same.symm⟩)
  · rintro (order | failed | ⟨bytes, bytes', defines, defines', -, same⟩)
    · have eq : EntityKind.definition .policy other = EntityKind.definition .policy value := by
        rw [← relisted.rest, ← order]
        rfl
      rw [eq]
    · rw [failed, encoded.mpr failed]
    · rw [defines, defines']
      exact same.symm

namespace EvaluationInputs

/-- Inputs that differ in the order in which their records list things, whatever digests these
carry. -/
structure Relisted (inputs other : EvaluationInputs) : Prop where
  klass : inputs.klass.Relisted other.klass
  policy : inputs.policy.Relisted other.policy
  capabilities : List.Forall₂ (Option.Rel ResourceCapability.Relisted) inputs.capabilities
    other.capabilities
  rest : { inputs with
    klass := other.klass, policy := other.policy, capabilities := other.capabilities } = other

def rehashed (inputs : EvaluationInputs) : EvaluationInputs :=
  { inputs with
    klass := inputs.klass.rehashed
    policy := inputs.policy.rehashed
    capabilities := inputs.capabilities.map (Option.map ResourceCapability.rehashed) }

namespace Relisted

variable {inputs other : EvaluationInputs}

theorem map_capabilities {β : Type} {f : ResourceCapability → β} (relisted : inputs.Relisted other)
    (same : ∀ {value other : ResourceCapability}, value.Relisted other → f other = f value) :
    other.capabilities.map (Option.map f) = inputs.capabilities.map (Option.map f) := by
  have slots := relisted.capabilities
  generalize inputs.capabilities = capabilities at slots
  generalize other.capabilities = others at slots
  induction slots with
  | nil => rfl
  | cons slot _ ih =>
      rw [List.map_cons, List.map_cons, ih]
      congr 1
      cases slot with
      | none => rfl
      | some capability => exact congrArg some (same capability)

theorem sorted (relisted : inputs.Relisted other) (digest : Digest256) :
    other.rehashed.sorted digest = inputs.rehashed.sorted digest := by
  have capabilities := relisted.map_capabilities
    (f := ResourceCapability.sorted ∘ ResourceCapability.rehashed) ResourceCapability.Relisted.sorted
  unfold EvaluationInputs.sorted rehashed
  dsimp only
  simp only [List.map_map, Option.map_comp_map]
  rw [capabilities, relisted.klass.sorted, relisted.policy.listed, ← relisted.rest]

theorem outcome (relisted : inputs.Relisted other) :
    (evaluate other.rehashed).map ContractDecision.outcome =
      (evaluate inputs.rehashed).map ContractDecision.outcome := by
  rw [← outcome_sorted other.rehashed .zero, ← outcome_sorted inputs.rehashed .zero,
    relisted.sorted]

theorem evaluate_eq (relisted : inputs.Relisted other)
    (kept : inputs.policy.KeepsDigest other.policy) :
    evaluate other.rehashed = evaluate inputs.rehashed := by
  have digest : other.rehashed.policy.digest = inputs.rehashed.policy.digest :=
    relisted.policy.digest_iff.mpr kept
  rw [← evaluate_sorted other.rehashed, ← evaluate_sorted inputs.rehashed, digest, relisted.sorted]

end Relisted

/-- The order in which the records list things makes no difference: not to their digests, and not to
the verdict or to the digest of the decision. -/
structure OrderFree (inputs other : EvaluationInputs) : Prop where
  klass : other.klass.computeDigest = inputs.klass.computeDigest
  policy : other.policy.computeDigest = inputs.policy.computeDigest
  capabilities : other.capabilities.map (Option.map ResourceCapability.computeDigest) =
    inputs.capabilities.map (Option.map ResourceCapability.computeDigest)
  outcome : (evaluate other.rehashed).map ContractDecision.outcome =
    (evaluate inputs.rehashed).map ContractDecision.outcome
  decision : (evaluate other.rehashed).map ContractDecision.decisionDigest =
    (evaluate inputs.rehashed).map ContractDecision.decisionDigest

end EvaluationInputs

/-- The order of the lists makes no difference exactly where the policy keeps its digest. -/
theorem order_free_iff {inputs other : EvaluationInputs} (relisted : inputs.Relisted other) :
    inputs.OrderFree other ↔ inputs.policy.KeepsDigest other.policy := by
  constructor
  · exact fun free => relisted.policy.digest_iff.mp free.policy
  · intro kept
    exact
      { klass := relisted.klass.computeDigest
        policy := relisted.policy.digest_iff.mpr kept
        capabilities := relisted.map_capabilities ResourceCapability.Relisted.computeDigest
        outcome := relisted.outcome
        decision := congrArg _ (relisted.evaluate_eq kept) }

/-- Inputs whose class and capability list some predicates, under a policy that denies classes. -/
def listing (predicates denied : List Text) : EvaluationInputs :=
  { plainInputs with
    klass := { plainClass with requiredPredicates := predicates }
    policy := { plainPolicy with deniedClasses := denied }
    capabilities := [some { plainCapability with predicates := predicates }] }

theorem listing_relisted {predicates predicates' denied denied' : List Text}
    (perm : predicates.Perm predicates') (denies : denied.Perm denied') :
    (listing predicates denied).Relisted (listing predicates' denied') where
  klass := ⟨perm, rfl⟩
  policy := ⟨denies, rfl⟩
  capabilities := .cons (.some ⟨perm, rfl⟩) .nil
  rest := rfl

theorem order_free_iff_predicates :
    (listing [text "wan", text "lan"] [text "tin", text "lead"]).OrderFree
      (listing [text "lan", text "wan"] [text "tin", text "lead"]) :=
  (order_free_iff (listing_relisted (.swap ..) (.refl _))).mpr (.inl rfl)

/-- The same two classes, denied in the other order, are another policy. -/
theorem denied_order_counts :
    ¬∀ inputs other : EvaluationInputs, inputs.Relisted other → inputs.OrderFree other := by
  intro free
  have same := (free _ _ (listing_relisted (.refl [])
    (.swap (text "tin") (text "lead") []))).policy
  revert same
  decide +kernel

end QoSFabric
