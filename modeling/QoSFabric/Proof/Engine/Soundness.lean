import QoSFabric.Proof.Engine.Obligations
import Mathlib.Data.List.Perm.Subperm

/-!
# Soundness of a clean verdict

A clean verdict is sound for every obligation that the budget leaves in the plan. What falls past
the budget is never looked at, and the largest predicate sets the validators admit push predicates
and the declared resource state past it.
-/

namespace QoSFabric.Proof.Engine

open Outcome

def Declares (inputs : EvaluationInputs) (declared : ResourceCapability → Option UInt64)
    (values : List UInt64) : Prop :=
  inputs.capabilities.map (fun slot => slot.bind declared) = values.map some

def Fulfils (inputs : EvaluationInputs) (declared : ResourceCapability → Option UInt64)
    (meets : UInt64 → List UInt64 → Prop) (required : Option UInt64) : Prop :=
  ∀ r, required = some r → ∃ values, Declares inputs declared values ∧ meets r values

def Weakest (required : UInt64) (values : List UInt64) : Prop := ∀ v ∈ values, required ≤ v

def Worst (required : UInt64) (values : List UInt64) : Prop := ∀ v ∈ values, v ≤ required

def Total (fixed required : UInt64) (values : List UInt64) : Prop :=
  fixed.toNat + (values.map UInt64.toNat).sum ≤ required.toNat

def Lossy (required : UInt64) (values : List UInt64) : Prop :=
  1000000 * (1 - deliveredShare values) ≤ required.toNat

def EveryCapability (inputs : EvaluationInputs) (holds : ResourceCapability → Prop) : Prop :=
  ∀ index < inputs.path.components.length,
    ∃ capability, inputs.capabilities[index]? = some (some capability) ∧ holds capability

theorem EveryCapability.imp {inputs : EvaluationInputs} {holds weaker : ResourceCapability → Prop}
    (h : EveryCapability inputs holds) (imp : ∀ capability, holds capability → weaker capability) :
    EveryCapability inputs weaker := by
  intro index bound
  obtain ⟨capability, slot, held⟩ := h index bound
  exact ⟨capability, slot, imp capability held⟩

structure Sound (inputs : EvaluationInputs) : Prop where
  predicates : ∀ key, requires inputs.klass inputs.policy key →
    EveryCapability inputs (key ∈ ·.predicates)
  notDegraded : EveryCapability inputs (·.state ≠ .degraded)
  minRate : Fulfils inputs (·.supportedRateBps) Weakest inputs.klass.minRateBps
  maxRate : Fulfils inputs (·.supportedRateBps) Weakest inputs.klass.maxRateBps
  peakRate : Fulfils inputs (·.supportedRateBps) Weakest inputs.klass.peakRateBps
  latency : Fulfils inputs (·.latencyBoundUs) (Total inputs.path.fixedLatencyUs)
    inputs.klass.maxLatencyUs
  jitter : Fulfils inputs (·.jitterBoundUs) (Total inputs.path.fixedJitterUs)
    inputs.klass.maxJitterUs
  loss : Fulfils inputs (·.lossPpm.map UInt32.toUInt64) Lossy
    (inputs.klass.maxLossPpm.map UInt32.toUInt64)
  burstBytes : Fulfils inputs (·.maxBurstBytes) Weakest inputs.klass.burstBytes
  burstInterval : Fulfils inputs (·.burstWindowUs) Worst inputs.klass.burstIntervalUs
  mtu : Fulfils inputs (·.mtuBytes) Weakest inputs.klass.minMtuBytes
  isolation : EveryCapability inputs (inputs.klass.isolation.rank ≤ ·.maxIsolation.rank)
  treatment : EveryCapability inputs (inputs.klass.treatment.rank ≤ ·.maxTreatment.rank)
  priority : EveryCapability inputs (inputs.klass.minPriorityRank ≤ ·.maxPriorityRank)
  diversity : inputs.klass.minDisjointPaths.toNat ≤
    (inputs.path.components.map PathComponent.diversityDomain).dedup.length

section Met

variable {inputs : EvaluationInputs} {plan : List ObligationPlan}

theorem resolve_capability (accepted : Accepted inputs)
    (resolved : ∀ r ∈ resolve inputs, Resolution.Resolved r) :
    (resolve inputs).map Resolution.capability = inputs.capabilities := by
  have length : (resolve inputs).length = inputs.path.components.length := by simp [resolve]
  refine List.ext_getElem (by simp [length, accepted.capabilities]) fun index bound bound' => ?_
  have inPath : index < inputs.path.components.length := by simpa [length] using bound
  have found : inputs.path.components[index]? = some inputs.path.components[index] :=
    List.getElem?_eq_getElem inPath
  have inResolved : index < (resolve inputs).length := by simpa using bound
  have here : (resolve inputs)[index] = resolveAt inputs inputs.path.components[index] index := by
    simp [resolve]
  obtain ⟨capability, slot, valid, domain⟩ :=
    resolved_iff.mp (resolved _ (mem_resolve.mpr ⟨index, _, found, rfl⟩))
  have held := getElem?_of_getD slot
  rw [List.getElem?_eq_getElem bound', Option.some.injEq] at held
  rw [List.getElem_map, here, resolveAt_of_resolves slot valid domain, held]

theorem everyCapability_of_resolved
    (resolved : ∀ r ∈ resolve inputs, Resolution.Resolved r)
    {holds : ResourceCapability → Prop}
    (h : ∀ r ∈ resolve inputs, ∀ capability, r.capability = some capability → holds capability) :
    EveryCapability inputs holds := by
  intro index bound
  have found := List.getElem?_eq_getElem bound
  have mem := mem_resolve.mpr ⟨index, _, found, rfl⟩
  obtain ⟨capability, slot, valid, domain⟩ := resolved_iff.mp (resolved _ mem)
  refine ⟨capability, getElem?_of_getD slot, h _ mem capability ?_⟩
  rw [resolveAt_of_resolves slot valid domain]

theorem declares_of_present (accepted : Accepted inputs)
    (resolved : ∀ r ∈ resolve inputs, Resolution.Resolved r) {item : ObligationPlan}
    {declared : ResourceCapability → Option UInt64} {detail : String}
    (spec : ∀ capability r, capabilityValue item capability r inputs.klass inputs.policy
      inputs.currentEpoch inputs.nowMs = .ofOption (declared capability) detail)
    (present : ∀ v ∈ declaredValues inputs item, v.present = true) :
    Declares inputs declared ((declaredValues inputs item).map RawValue.value) := by
  rw [Declares, ← resolve_capability accepted resolved, declaredValues]
  simp only [List.map_map]
  apply List.map_congr_left
  intro r mem
  obtain ⟨capability, held, -⟩ := resolved_capability mem (resolved r mem)
  have here := present _ (List.mem_map_of_mem mem)
  simp only [componentValue, held, spec] at here
  simp only [Function.comp, held, Option.bind_some, componentValue, spec]
  cases value : declared capability with
  | none => simp [value, RawValue.ofOption, RawValue.missing] at here
  | some v => rfl

theorem fulfils_of_meets (accepted : Accepted inputs)
    (resolved : ∀ r ∈ resolve inputs, Resolution.Resolved r) (kind : ObligationKind)
    (ordinary : Ordinary kind) {declared : ResourceCapability → Option UInt64} {detail : String}
    {required : Option UInt64} {meets : UInt64 → List UInt64 → Prop}
    (spec : ∀ r capability resolution, capabilityValue (plain kind r) capability resolution
      inputs.klass inputs.policy inputs.currentEpoch inputs.nowMs =
        .ofOption (declared capability) detail)
    (composes : ∀ r values, Composes kind.aggregate (fixedOverhead inputs.path kind) r values →
      meets r values)
    (met : ∀ item ∈ push kind required, Meets inputs plan item) :
    Fulfils inputs declared meets required := by
  intro r eq
  have met := met (plain kind r) (by simp [push, eq])
  have unfolded : (∀ v ∈ declaredValues inputs (plain kind r), v.present = true) ∧
      Composes kind.aggregate (fixedOverhead inputs.path kind) r
        ((declaredValues inputs (plain kind r)).map RawValue.value) := by
    cases kind
    case disjointPaths => exact absurd rfl ordinary.1
    case resourceState => exact absurd rfl ordinary.2
    all_goals exact met
  exact ⟨_, declares_of_present accepted resolved (spec r) unfolded.1, composes r _ unfolded.2⟩

theorem rank_declared (rank : UInt64) :
    RawValue.declared rank = .ofOption (some rank) "" := rfl

theorem everyCapability_of_fulfils (accepted : Accepted inputs)
    {declared : ResourceCapability → UInt64} {required : UInt64}
    (h : Fulfils inputs (fun capability => some (declared capability)) Weakest (some required)) :
    EveryCapability inputs (required ≤ declared ·) := by
  obtain ⟨values, declares, weakest⟩ := h required rfl
  intro index bound
  rw [← accepted.capabilities] at bound
  have slot := congrArg (·[index]?) declares
  simp only [List.getElem?_map, List.getElem?_eq_getElem bound, Option.map_some] at slot
  obtain ⟨v, found, eq⟩ := Option.map_eq_some_iff.mp slot.symm
  obtain ⟨capability, held, value⟩ := Option.bind_eq_some_iff.mp eq.symm
  refine ⟨capability, by rw [List.getElem?_eq_getElem bound, held], ?_⟩
  have reached := weakest v (List.mem_of_getElem? found)
  rwa [← Option.some.inj value] at reached

theorem diversity_domains (inputs : EvaluationInputs) (plan : List ObligationPlan)
    (resolutions : List Resolution) (d : Diversity) (nodup : d.domains.Nodup) :
    (resolutions.foldl (countDomain inputs plan) d).domains.Nodup ∧
      ∀ domain ∈ (resolutions.foldl (countDomain inputs plan) d).domains,
        domain ∈ d.domains ∨ domain ∈ resolutions.map Resolution.declaredDomain := by
  induction resolutions generalizing d with
  | nil => exact ⟨nodup, fun _ mem => .inl mem⟩
  | cons r rest ih =>
      have step : (countDomain inputs plan d r).domains.Nodup ∧
          ∀ domain ∈ (countDomain inputs plan d r).domains,
            domain ∈ d.domains ∨ domain = r.declaredDomain := by
        unfold countDomain
        split
        · exact ⟨nodup, fun _ mem => .inl mem⟩
        · split
          · exact ⟨nodup, fun _ mem => .inl mem⟩
          · split
            · split
              · exact ⟨nodup, fun _ mem => .inl mem⟩
              · next absent =>
                  refine ⟨?_, by simp⟩
                  simpa [List.nodup_append, nodup] using
                    fun a mem eq => absent (by simpa [eq] using mem)
            · exact ⟨nodup, fun _ mem => .inl mem⟩
            · exact ⟨nodup, fun _ mem => .inl mem⟩
      obtain ⟨nodup, within⟩ := ih _ step.1
      refine ⟨nodup, fun domain mem => ?_⟩
      rw [List.map_cons, List.mem_cons]
      rcases within domain mem with h | h
      · rcases step.2 domain h with h | h
        · exact .inl h
        · exact .inr (.inl h)
      · exact .inr (.inr h)

theorem declaredDomain_mem {domain : Text}
    (mem : domain ∈ (resolve inputs).map Resolution.declaredDomain) :
    domain ∈ inputs.path.components.map PathComponent.diversityDomain := by
  obtain ⟨r, resolution, rfl⟩ := List.mem_map.mp mem
  obtain ⟨index, component, found, rfl⟩ := mem_resolve.mp resolution
  refine List.mem_map.mpr ⟨component, List.mem_of_getElem? found, ?_⟩
  unfold resolveAt resolveComponent
  dsimp only
  repeat' split
  all_goals rfl

theorem diversity_of_meets {required : UInt64}
    (met : required ≤ UInt64.ofNat (diversity inputs plan (resolve inputs)).domains.length) :
    required.toNat ≤
      (inputs.path.components.map PathComponent.diversityDomain).dedup.length := by
  obtain ⟨nodup, within⟩ := diversity_domains inputs plan (resolve inputs) ⟨[], false⟩ List.nodup_nil
  have subset : (diversity inputs plan (resolve inputs)).domains ⊆
      (inputs.path.components.map PathComponent.diversityDomain).dedup := by
    intro domain mem
    rcases within domain mem with h | h
    · simp at h
    · exact List.mem_dedup.mpr (declaredDomain_mem h)
  calc required.toNat
      ≤ (UInt64.ofNat (diversity inputs plan (resolve inputs)).domains.length).toNat :=
        UInt64.le_iff_toNat_le.mp met
    _ ≤ (diversity inputs plan (resolve inputs)).domains.length := by
        rw [UInt64.toNat_ofNat']
        exact Nat.mod_le _ _
    _ ≤ _ := (nodup.subperm subset).length_le

theorem lossy_of_composes {required : UInt64} {values : List UInt64}
    (h : ∃ delivery, deliverAll values = some delivery ∧ ppm - delivery ≤ required) :
    Lossy required values := by
  obtain ⟨delivery, eq, le⟩ := h
  obtain ⟨final, run, bound, share⟩ := deliverAll_spec values
  obtain rfl : final = delivery := Option.some.inj (run.symm.trans eq)
  have bound' : final ≤ ppm := UInt64.le_iff_toNat_le.mpr (by rw [ppm_toNat]; exact bound)
  have le := UInt64.le_iff_toNat_le.mp le
  rw [UInt64.toNat_sub_of_le _ _ bound', ppm_toNat] at le
  have exact : (1000000 : ℚ) ≤ required.toNat + final.toNat := by
    exact_mod_cast (by omega : 1000000 ≤ required.toNat + final.toNat)
  unfold Lossy
  linarith

theorem predicate_declared (resolved : ∀ r ∈ resolve inputs, Resolution.Resolved r) {key : Text} :
    Meets inputs plan (predicatePlan key) ↔
      ∀ r ∈ resolve inputs, ∀ capability, r.capability = some capability →
        key ∈ capability.predicates := by
  show ((∀ v ∈ declaredValues inputs (predicatePlan key), v.present = true) ∧
    ∀ v ∈ (declaredValues inputs (predicatePlan key)).map RawValue.value, 1 ≤ v) ↔ _
  simp only [declaredValues, List.map_map, List.forall_mem_map, ← forall₂_and]
  refine forall₂_congr fun r mem => ?_
  obtain ⟨capability, held, -⟩ := resolved_capability mem (resolved r mem)
  by_cases declared : key ∈ capability.predicates
  · simp [componentValue, held, capabilityValue, predicatePlan, declared, RawValue.declared]
  · simp [componentValue, held, capabilityValue, predicatePlan, declared, RawValue.missing]

theorem state_available (resolved : ∀ r ∈ resolve inputs, Resolution.Resolved r)
    {required : UInt64} :
    Meets inputs plan (plain .resourceState required) ↔
      ∀ r ∈ resolve inputs, ∀ capability, r.capability = some capability →
        capability.state ≠ .degraded := by
  show (∀ r ∈ resolve inputs, r.selfDeclaredDegraded = false) ↔ _
  refine forall₂_congr fun r mem => ?_
  obtain ⟨capability, held, degraded⟩ := resolved_capability mem (resolved r mem)
  simp [held, degraded]

theorem sound_of_met (accepted : Accepted inputs)
    (resolved : ∀ r ∈ resolve inputs, Resolution.Resolved r)
    (met : ∀ item ∈ pushedPlan inputs.klass inputs.policy, Meets inputs plan item) :
    Sound inputs := by
  have of : ∀ kind, ∀ item ∈ pushedOf inputs.klass inputs.policy kind, Meets inputs plan item := by
    intro kind item mem
    refine met item (mem_pushedPlan.mpr ?_)
    rwa [kind_of_mem_pushedOf mem]
  have fulfils := @fulfils_of_meets inputs plan accepted resolved
  refine ⟨?_, ?_,
    fulfils .minRate ⟨by decide, by decide⟩ (fun _ _ _ => rfl) (fun _ _ h => h) (of .minRate),
    fulfils .maxRate ⟨by decide, by decide⟩ (fun _ _ _ => rfl) (fun _ _ h => h) (of .maxRate),
    fulfils .peakRate ⟨by decide, by decide⟩ (fun _ _ _ => rfl) (fun _ _ h => h) (of .peakRate),
    fulfils .latency ⟨by decide, by decide⟩ (fun _ _ _ => rfl) (fun _ _ h => h) (of .latency),
    fulfils .jitter ⟨by decide, by decide⟩ (fun _ _ _ => rfl) (fun _ _ h => h) (of .jitter),
    fulfils .loss ⟨by decide, by decide⟩ (fun _ _ _ => rfl) (fun _ _ => lossy_of_composes) (of .loss),
    fulfils .burstBytes ⟨by decide, by decide⟩ (fun _ _ _ => rfl) (fun _ _ h => h) (of .burstBytes),
    fulfils .burstInterval ⟨by decide, by decide⟩ (fun _ _ _ => rfl) (fun _ _ h => h) (of .burstInterval),
    fulfils .mtu ⟨by decide, by decide⟩ (fun _ _ _ => rfl) (fun _ _ h => h) (of .mtu), ?_, ?_, ?_, ?_⟩
  · intro key required
    have mem : predicatePlan key ∈ pushedOf inputs.klass inputs.policy .predicate :=
      List.mem_map_of_mem (mem_mergedPredicates.mpr required)
    exact everyCapability_of_resolved resolved
      ((predicate_declared resolved).mp (of .predicate _ mem))
  · have mem : plain .resourceState stateAvailable ∈
        pushedOf inputs.klass inputs.policy .resourceState := by simp [pushedOf, push]
    exact everyCapability_of_resolved resolved
      ((state_available resolved).mp (of .resourceState _ mem))
  · have met := fulfils .isolation ⟨by decide, by decide⟩
      (fun _ capability _ => rank_declared capability.maxIsolation.rank.toUInt64) (fun _ _ h => h)
      (of .isolation)
    exact (everyCapability_of_fulfils accepted met).imp fun _ => UInt8.toUInt64_le.mp
  · have met := fulfils .treatment ⟨by decide, by decide⟩
      (fun _ capability _ => rank_declared capability.maxTreatment.rank.toUInt64) (fun _ _ h => h)
      (of .treatment)
    exact (everyCapability_of_fulfils accepted met).imp fun _ => UInt8.toUInt64_le.mp
  · have met := fulfils .priorityRank ⟨by decide, by decide⟩
      (fun _ capability _ => rank_declared capability.maxPriorityRank.toUInt64) (fun _ _ h => h)
      (of .priorityRank)
    exact (everyCapability_of_fulfils accepted met).imp fun _ => UInt32.toUInt64_le.mp
  · have mem : plain .disjointPaths inputs.klass.minDisjointPaths.toUInt64 ∈
        pushedOf inputs.klass inputs.policy .disjointPaths := by simp [pushedOf, push]
    have reached : inputs.klass.minDisjointPaths.toUInt64.toNat ≤ _ :=
      diversity_of_meets (of .disjointPaths _ mem)
    rwa [UInt32.toNat_toUInt64] at reached

end Met

theorem pushed_met {inputs : EvaluationInputs} (h : Supports inputs)
    (met : ∀ item ∈ clipped inputs.klass inputs.policy,
      Meets inputs (buildPlan inputs.klass inputs.policy) item) :
    ∀ item ∈ pushedPlan inputs.klass inputs.policy,
      Meets inputs (buildPlan inputs.klass inputs.policy) item := by
  intro item mem
  rcases (mem_pushedPlan_iff (validateQoSClass_ok h.accepted.klass)
    (validatePolicy_ok h.accepted.policy)).mp mem with kept | dropped
  · exact h.met item kept
  · exact met item dropped

theorem clipped_met_of_sound {inputs : EvaluationInputs} {plan : List ObligationPlan}
    (resolved : ∀ r ∈ resolve inputs, Resolution.Resolved r) (sound : Sound inputs) :
    ∀ item ∈ clipped inputs.klass inputs.policy, Meets inputs plan item := by
  have evidence : ∀ {holds : ResourceCapability → Prop}, EveryCapability inputs holds →
      ∀ r ∈ resolve inputs, ∀ capability, r.capability = some capability → holds capability := by
    intro holds every r mem capability held
    obtain ⟨index, component, found, rfl⟩ := mem_resolve.mp mem
    obtain ⟨slotted, slot, valid, domain⟩ := resolved_iff.mp (resolved _ mem)
    rw [resolveAt_of_resolves slot valid domain, Option.some.injEq] at held
    obtain ⟨bound, -⟩ := List.getElem?_eq_some_iff.mp found
    obtain ⟨other, same, h⟩ := every index bound
    rw [getElem?_of_getD slot, Option.some.injEq, Option.some.injEq] at same
    rwa [← held, same]
  intro item mem
  have pushed := mem_pushedPlan.mp (List.mem_of_mem_drop mem)
  rcases kind_of_mem_clipped mem with kind | kind
  · rw [kind] at pushed
    obtain ⟨key, required, rfl⟩ := List.mem_map.mp pushed
    exact (predicate_declared resolved).mpr
      (evidence (sound.predicates key (mem_mergedPredicates.mp required)))
  · rw [kind] at pushed
    obtain rfl : item = plain .resourceState stateAvailable := by
      simpa [pushedOf, push] using pushed
    exact (state_available resolved).mpr (evidence sound.notDegraded)

theorem sound_of_clipped_met {inputs : EvaluationInputs} {decision : ContractDecision}
    (evaluated : evaluate inputs = .ok decision) (clean : decision.outcome = supported)
    (met : Supports inputs → ∀ item ∈ clipped inputs.klass inputs.policy,
      Meets inputs (buildPlan inputs.klass inputs.policy) item) : Sound inputs := by
  have supports := evaluate_supported_iff.mp ⟨decision, evaluated, clean⟩
  exact sound_of_met supports.accepted supports.resolved (pushed_met supports (met supports))

/-- A clean verdict is sound exactly when the path also meets what falls past the budget, or does
not earn the verdict in the first place. -/
theorem evaluate_supported_sound_iff (inputs : EvaluationInputs) :
    (∀ decision, evaluate inputs = .ok decision → decision.outcome = supported → Sound inputs) ↔
      (Supports inputs → ∀ item ∈ clipped inputs.klass inputs.policy,
        Meets inputs (buildPlan inputs.klass inputs.policy) item) := by
  constructor
  · intro sound supports
    obtain ⟨decision, evaluated, clean⟩ := evaluate_supported_iff.mpr supports
    exact clipped_met_of_sound supports.resolved (sound decision evaluated clean)
  · exact fun met decision evaluated clean => sound_of_clipped_met evaluated clean met

theorem clipped_eq_nil {klass : QoSClass} {policy : Policy}
    (fits : (pushedPlan klass policy).length ≤ Limits.maxObligations) :
    clipped klass policy = [] :=
  List.drop_of_length_le fits

theorem clipped_eq_nil_of_validated {inputs : EvaluationInputs} (h : Supports inputs)
    (validated : ∀ capability, some capability ∈ inputs.capabilities →
      capability.predicates.length ≤ Limits.maxCapabilityPredicates) :
    clipped inputs.klass inputs.policy = [] := by
  refine clipped_eq_nil (Nat.le_of_not_lt fun above => ?_)
  have validClass := validateQoSClass_ok h.accepted.klass
  have validPolicy := validatePolicy_ok h.accepted.policy
  have head := length_pathKinds_le inputs.klass inputs.policy
  obtain ⟨r, mem⟩ := List.exists_mem_of_ne_nil _ (resolve_ne_nil h.accepted)
  obtain ⟨capability, held, -⟩ := resolved_capability mem (h.resolved r mem)
  have few : capability.predicates.length ≤ 64 := by
    apply validated
    rw [← resolve_capability h.accepted h.resolved, ← held]
    exact List.mem_map_of_mem mem
  have long : 114 ≤ (mergedPredicates inputs.klass inputs.policy).length := by
    rw [pushedPlan_split] at above
    simp only [List.length_append, List.length_map, List.length_cons, List.length_nil] at above
    change 128 < _ at above
    omega
  have kept : ∀ key ∈ (mergedPredicates inputs.klass inputs.policy).take 114,
      key ∈ capability.predicates := by
    intro key keyMem
    refine (predicate_declared h.resolved).mp (h.met (predicatePlan key) ?_) r mem capability held
    rw [buildPlan_eq validClass validPolicy, pushedPlan_split, List.take_append]
    apply List.mem_append_right
    rw [List.take_append]
    apply List.mem_append_left
    rw [← List.map_take]
    refine List.mem_map_of_mem (List.take_subset_take_left _ ?_ keyMem)
    change 114 ≤ 128 - _
    omega
  have nodup : ((mergedPredicates inputs.klass inputs.policy).take 114).Nodup :=
    (mergedPredicates_nodup validClass).sublist (List.take_sublist _ _)
  have count := (nodup.subperm kept).length_le
  rw [List.length_take] at count
  omega

theorem evaluate_supported_sound_of_validated {inputs : EvaluationInputs}
    {decision : ContractDecision} (evaluated : evaluate inputs = .ok decision)
    (clean : decision.outcome = supported)
    (validated : ∀ capability, some capability ∈ inputs.capabilities →
      capability.predicates.length ≤ Limits.maxCapabilityPredicates) :
    Sound inputs := by
  refine sound_of_clipped_met evaluated clean ?_
  intro supports item mem
  rw [clipped_eq_nil_of_validated supports validated] at mem
  cases mem

def keyRange (first count : Nat) : List Text :=
  (List.range count).map fun i =>
    [UInt8.ofNat (97 + (first + i) / 26), UInt8.ofNat (97 + (first + i) % 26)]

def largestClass : QoSClass := { plainClass with requiredPredicates := keyRange 0 64 }

def largestPolicy : Policy := { plainPolicy with requiredPredicates := keyRange 64 64 }

def degradedCapability : ResourceCapability :=
  { plainCapability with state := .degraded, predicates := keyRange 0 128 }

/-- A valid class and policy with the most predicates, over one degraded resource. -/
def largestInputs : EvaluationInputs :=
  { plainInputs with
    klass := largestClass
    policy := largestPolicy
    capabilities := [some degradedCapability] }

theorem evaluate_largest_unsound :
    ¬∀ decision, evaluate largestInputs = .ok decision → decision.outcome = supported →
      Sound largestInputs := by
  have clean : (findings largestInputs).outcome ≤ supported := by decide +kernel
  obtain ⟨decision, evaluated, below⟩ := (evaluate_le (by decide)).mpr
    ((findings_le (by decide)).mp clean)
  intro sound
  obtain ⟨capability, held, notDegraded⟩ :=
    (sound decision evaluated (le_supported.mp below)).notDegraded 0 (by decide)
  obtain rfl : degradedCapability = capability := by simpa [largestInputs] using held
  exact notDegraded rfl

end QoSFabric.Proof.Engine
