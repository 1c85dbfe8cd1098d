import QoSFabric.Model.Engine
import QoSFabric.Proof.Codec.Definitions
import QoSFabric.Proof.Engine.Plan

namespace QoSFabric

def Policy.listed (value : Policy) (digest : Digest256) : Policy :=
  { value with deniedClasses := sortTexts value.deniedClasses, digest := digest }

def Resolution.sorted (resolution : Resolution) : Resolution :=
  { resolution with capability := resolution.capability.map ResourceCapability.sorted }

def EvaluationInputs.sorted (inputs : EvaluationInputs) (digest : Digest256) : EvaluationInputs :=
  { inputs with
    klass := inputs.klass.sorted
    policy := inputs.policy.listed digest
    capabilities := inputs.capabilities.map (Option.map ResourceCapability.sorted) }

namespace Proof.Engine

variable {inputs : EvaluationInputs} {digest : Digest256} {plan : List ObligationPlan}
  {resolutions : List Resolution}

theorem sortTexts_eq_of_perm {texts texts' : List Text} (perm : texts.Perm texts') :
    sortTexts texts = sortTexts texts' := by
  have perms : (sortTexts texts).Perm (sortTexts texts') :=
    ((sortTexts_perm texts).trans perm).trans (sortTexts_perm texts').symm
  exact perms.eq_of_pairwise (fun _ _ _ _ => List.le_antisymm) (sortTexts_pairwise texts)
    (sortTexts_pairwise texts')

theorem validateQoSClass_sorted (value : QoSClass) :
    validateQoSClass value.sorted = validateQoSClass value :=
  validateQoSClass_readBack value

theorem validatePolicy_listed (value : Policy) :
    validatePolicy (value.listed digest) = validatePolicy value := by
  have all : (sortTexts value.deniedClasses).all isValid = value.deniedClasses.all isValid :=
    (sortTexts_perm value.deniedClasses).all_eq
  unfold validatePolicy Policy.listed
  dsimp only
  rw [length_sortTexts, all, sortTexts_sortTexts]

theorem intake_sorted : intake (inputs.sorted digest) = intake inputs := by
  have klass : validateQoSClass (inputs.sorted digest).klass = validateQoSClass inputs.klass :=
    validateQoSClass_sorted inputs.klass
  have policy : validatePolicy (inputs.sorted digest).policy = validatePolicy inputs.policy :=
    validatePolicy_listed inputs.policy
  have length : (inputs.sorted digest).capabilities.length = inputs.capabilities.length :=
    List.length_map _
  unfold intake
  rw [klass, policy, length]
  rfl

theorem conflicts_sorted (f : Findings) :
    conflicts (inputs.sorted digest) f = conflicts inputs f := by
  have denied :
      (inputs.sorted digest).policy.deniedClasses.any (· == (inputs.sorted digest).klass.id) =
        inputs.policy.deniedClasses.any (· == inputs.klass.id) :=
    (sortTexts_perm inputs.policy.deniedClasses).any_eq
  unfold conflicts
  rw [denied]
  rfl

theorem mergeStep_perm {merged merged' : List Text} (perm : merged.Perm merged') (key : Text) :
    (mergeStep merged key).Perm (mergeStep merged' key) := by
  unfold mergeStep
  rw [perm.contains_eq]
  split
  · exact perm
  · exact perm.append_right [key]

theorem foldl_mergeStep_perm (keys : List Text) {merged merged' : List Text}
    (perm : merged.Perm merged') :
    (keys.foldl mergeStep merged).Perm (keys.foldl mergeStep merged') := by
  induction keys generalizing merged merged' with
  | nil => exact perm
  | cons key keys ih => exact ih (mergeStep_perm perm key)

theorem mergedPredicates_sorted (klass : QoSClass) (policy : Policy) :
    mergedPredicates klass.sorted (policy.listed digest) = mergedPredicates klass policy :=
  sortTexts_eq_of_perm (foldl_mergeStep_perm policy.requiredPredicates
    (sortTexts_perm klass.requiredPredicates))

theorem buildPlan_sorted (klass : QoSClass) (policy : Policy) :
    buildPlan klass.sorted (policy.listed digest) = buildPlan klass policy := by
  unfold buildPlan sortedPlan pushedPlan
  rw [mergedPredicates_sorted]
  rfl

theorem resolveComponent_sorted (policy : Policy) (currentEpoch : FabricEpoch) (nowMs : UInt64)
    (index : Nat) (component : PathComponent) (slot : Option ResourceCapability)
    (reservation : Option Reservation) :
    resolveComponent (policy.listed digest) currentEpoch nowMs index component
        (slot.map ResourceCapability.sorted) reservation =
      (resolveComponent policy currentEpoch nowMs index component slot reservation).sorted := by
  cases slot with
  | none => rfl
  | some capability =>
      have same : invalidation (policy.listed digest) currentEpoch nowMs component
          capability.sorted = invalidation policy currentEpoch nowMs component capability := rfl
      have domain : contradictsDomain component capability.sorted =
          contradictsDomain component capability := rfl
      simp only [resolveComponent, Option.map_some, same, domain]
      cases invalidation policy currentEpoch nowMs component capability with
      | some found => rfl
      | none => cases contradictsDomain component capability <;> rfl

theorem resolve_sorted :
    resolve (inputs.sorted digest) = (resolve inputs).map Resolution.sorted := by
  unfold resolve
  rw [List.map_map]
  apply List.map_congr_left
  rintro ⟨component, index⟩ -
  have slot : (inputs.sorted digest).capabilities.getD index none =
      (inputs.capabilities.getD index none).map ResourceCapability.sorted := by
    simp only [EvaluationInputs.sorted, List.getD_eq_getElem?_getD, List.getElem?_map]
    cases inputs.capabilities[index]? <;> rfl
  show resolveAt (inputs.sorted digest) component index = (resolveAt inputs component index).sorted
  unfold resolveAt
  rw [slot]
  exact resolveComponent_sorted ..

theorem contradictions_sorted (f : Findings) :
    contradictions (resolutions.map Resolution.sorted) f = contradictions resolutions f := by
  unfold contradictions
  rw [List.foldl_map]
  rfl

theorem capabilityValue_sorted (item : ObligationPlan) (capability : ResourceCapability)
    (resolution : Resolution) (klass : QoSClass) (policy : Policy) (currentEpoch : FabricEpoch)
    (nowMs : UInt64) :
    capabilityValue item capability.sorted resolution.sorted klass.sorted (policy.listed digest)
        currentEpoch nowMs =
      capabilityValue item capability resolution klass policy currentEpoch nowMs := by
  have contains : capability.sorted.predicates.contains item.predicate =
      capability.predicates.contains item.predicate :=
    (sortTexts_perm capability.predicates).contains_eq
  unfold capabilityValue
  rw [contains]
  rfl

theorem componentValue_sorted (item : ObligationPlan) (resolution : Resolution) (klass : QoSClass)
    (policy : Policy) (currentEpoch : FabricEpoch) (nowMs : UInt64) :
    componentValue item resolution.sorted klass.sorted (policy.listed digest) currentEpoch nowMs =
      componentValue item resolution klass policy currentEpoch nowMs := by
  have mapped : resolution.sorted.capability =
      resolution.capability.map ResourceCapability.sorted := rfl
  unfold componentValue
  rw [mapped]
  cases resolution.capability with
  | none => rfl
  | some capability => exact capabilityValue_sorted ..

theorem scratch_sorted (item : ObligationPlan) :
    scratch (inputs.sorted digest) (resolutions.map Resolution.sorted) item =
      scratch inputs resolutions item := by
  unfold scratch
  rw [List.map_map]
  apply List.map_congr_left
  intro resolution _
  have value : componentValue item resolution.sorted (inputs.sorted digest).klass
      (inputs.sorted digest).policy (inputs.sorted digest).currentEpoch
      (inputs.sorted digest).nowMs =
        componentValue item resolution inputs.klass inputs.policy inputs.currentEpoch
          inputs.nowMs := componentValue_sorted ..
  show scratchValue (inputs.sorted digest) item resolution.sorted =
    scratchValue inputs item resolution
  unfold scratchValue
  rw [value]
  rfl

theorem blocked_sorted :
    blocked (resolutions.map Resolution.sorted) =
      (blocked resolutions).map (Prod.map id Resolution.sorted) := by
  unfold blocked
  rw [← List.map_reverse, List.find?_map, List.find?_map, List.find?_map]
  have stale : ((fun r : Resolution => r.status == .stale) ∘ Resolution.sorted) =
      fun r => r.status == .stale := rfl
  have unavailable :
      ((fun r : Resolution => r.status == .unavailable || r.status == .violated) ∘
        Resolution.sorted) = fun r => r.status == .unavailable || r.status == .violated := rfl
  have unknown : ((fun r : Resolution => r.status == .unknown) ∘ Resolution.sorted) =
      fun r => r.status == .unknown := rfl
  rw [stale, unavailable, unknown]
  cases resolutions.reverse.find? (·.status == .stale) with
  | some resolution => rfl
  | none =>
      cases resolutions.find? fun r => r.status == .unavailable || r.status == .violated with
      | some resolution => rfl
      | none => cases resolutions.find? (·.status == .unknown) <;> rfl

theorem resourceAt_sorted (index : Nat) :
    resourceAt (resolutions.map Resolution.sorted) index = resourceAt resolutions index := by
  unfold resourceAt
  rw [List.getElem?_map, Option.map_map]
  rfl

theorem qualifiesFor_sorted (resolution : Resolution) (other : ObligationPlan) :
    qualifiesFor (inputs.sorted digest) resolution.sorted other =
      qualifiesFor inputs resolution other := by
  have value : componentValue other resolution.sorted (inputs.sorted digest).klass
      (inputs.sorted digest).policy (inputs.sorted digest).currentEpoch
      (inputs.sorted digest).nowMs =
        componentValue other resolution inputs.klass inputs.policy inputs.currentEpoch
          inputs.nowMs := componentValue_sorted ..
  unfold qualifiesFor
  dsimp only
  rw [value]
  rfl

theorem qualify_sorted (resolution : Resolution) (plan : List ObligationPlan) :
    qualify (inputs.sorted digest) resolution.sorted plan = qualify inputs resolution plan := by
  induction plan with
  | nil => rfl
  | cons other rest ih => simp only [qualify, qualifiesFor_sorted, ih]

theorem countDomain_sorted (d : Diversity) (resolution : Resolution) :
    countDomain (inputs.sorted digest) plan d resolution.sorted =
      countDomain inputs plan d resolution := by
  unfold countDomain
  rw [qualify_sorted]
  rfl

theorem diversity_sorted :
    diversity (inputs.sorted digest) plan (resolutions.map Resolution.sorted) =
      diversity inputs plan resolutions := by
  unfold diversity
  rw [List.foldl_map]
  congr 1
  funext d resolution
  exact countDomain_sorted d resolution

theorem assessDiversity_sorted (item : ObligationPlan) :
    assessDiversity (inputs.sorted digest) plan (resolutions.map Resolution.sorted) item =
      assessDiversity inputs plan resolutions item := by
  unfold assessDiversity
  rw [diversity_sorted]
  rfl

theorem any_degraded_sorted :
    (resolutions.map Resolution.sorted).any Resolution.selfDeclaredDegraded =
      resolutions.any Resolution.selfDeclaredDegraded := by
  rw [List.any_map]
  rfl

theorem assessState_sorted (item : ObligationPlan) :
    assessState (inputs.sorted digest) (resolutions.map Resolution.sorted) item =
      assessState inputs resolutions item := by
  unfold assessState
  rw [scratch_sorted, any_degraded_sorted, blocked_sorted]
  simp only [resourceAt_sorted]
  cases blocked resolutions <;> rfl

theorem assessOrdinary_sorted (item : ObligationPlan) :
    assessOrdinary (inputs.sorted digest) (resolutions.map Resolution.sorted) item =
      assessOrdinary inputs resolutions item := by
  unfold assessOrdinary
  rw [blocked_sorted]
  cases blocked resolutions with
  | some found => rfl
  | none =>
      simp only [Option.map_none, scratch_sorted, resourceAt_sorted]
      cases (scratch inputs resolutions item).findIdx? (!·.present) with
      | some i => rfl
      | none => simp only [assessComposition, resourceAt_sorted]; rfl

theorem assess_sorted (item : ObligationPlan) :
    assess (inputs.sorted digest) plan (resolutions.map Resolution.sorted) item =
      assess inputs plan resolutions item := by
  unfold assess
  rw [assessDiversity_sorted, assessState_sorted, assessOrdinary_sorted]

theorem assessAll_sorted : assessAll (inputs.sorted digest) = assessAll inputs := by
  unfold assessAll
  rw [show buildPlan (inputs.sorted digest).klass (inputs.sorted digest).policy =
    buildPlan inputs.klass inputs.policy from buildPlan_sorted .., resolve_sorted]
  exact List.map_congr_left fun item _ => assess_sorted item

theorem findings_sorted : findings (inputs.sorted digest) = findings inputs := by
  unfold findings
  rw [assessAll_sorted, intake_sorted, conflicts_sorted, resolve_sorted, contradictions_sorted]
  rfl

theorem componentAuthority_sorted (resolution : Resolution) :
    componentAuthority resolution.sorted = componentAuthority resolution := by
  unfold componentAuthority
  show (Option.map _ (resolution.capability.map ResourceCapability.sorted)).toList ++ _ = _
  rw [Option.map_map]
  rfl

theorem authority_sorted :
    authority (inputs.sorted inputs.policy.digest) (resolutions.map Resolution.sorted) =
      authority inputs resolutions := by
  unfold authority
  rw [List.flatMap_map]
  simp only [componentAuthority_sorted]
  rfl

theorem map_assessment_sorted :
    (resolutions.map Resolution.sorted).map Resolution.assessment =
      resolutions.map Resolution.assessment := by
  rw [List.map_map]
  rfl

theorem countStatus_sorted (wanted : ComponentStatus) :
    countStatus Resolution.status wanted (resolutions.map Resolution.sorted) =
      countStatus Resolution.status wanted resolutions := by
  unfold countStatus
  rw [List.countP_map]
  rfl

theorem evaluate_sorted (inputs : EvaluationInputs) :
    evaluate (inputs.sorted inputs.policy.digest) = evaluate inputs := by
  unfold evaluate
  rw [intake_sorted, findings_sorted, assessAll_sorted, resolve_sorted]
  simp only [authority_sorted, map_assessment_sorted, countStatus_sorted]
  rfl

theorem outcome_sorted (inputs : EvaluationInputs) (digest : Digest256) :
    (evaluate (inputs.sorted digest)).map ContractDecision.outcome =
      (evaluate inputs).map ContractDecision.outcome := by
  unfold evaluate
  rw [intake_sorted, findings_sorted]
  split <;> rfl

end Proof.Engine

end QoSFabric
