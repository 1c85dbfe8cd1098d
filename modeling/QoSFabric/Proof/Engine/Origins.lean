import QoSFabric.Proof.Engine.Dispute
import QoSFabric.Proof.Engine.Sorted

namespace QoSFabric

def QoSClass.erased (value : QoSClass) : QoSClass :=
  { value.sorted with provenance := .none }

def Policy.erased (value : Policy) : Policy :=
  { value with requiredPredicates := sortTexts value.requiredPredicates, provenance := .none }

def Path.erased (value : Path) : Path :=
  { value with provenance := .none }

def ResourceCapability.erased (value : ResourceCapability) : ResourceCapability :=
  { value.sorted with provenance := .none }

def Reservation.erased (value : Reservation) : Reservation :=
  { value with provenance := .none }

def Resolution.erased (resolution : Resolution) : Resolution :=
  { resolution with
    capability := resolution.capability.map ResourceCapability.erased
    reservation := resolution.reservation.map Reservation.erased }

def EvaluationInputs.erased (inputs : EvaluationInputs) : EvaluationInputs :=
  { inputs with
    klass := inputs.klass.erased
    policy := inputs.policy.erased
    path := inputs.path.erased
    capabilities := inputs.capabilities.map (Option.map ResourceCapability.erased)
    reservations := inputs.reservations.map (Option.map Reservation.erased)
    evaluator := [] }

def AuthorityEntry.erased (entry : AuthorityEntry) : AuthorityEntry :=
  { entry with source := [] }

/-- A decision but for the origins it names, for who evaluated it, and for its own digest. -/
def ContractDecision.erased (decision : ContractDecision) : ContractDecision :=
  { decision with
    authority := decision.authority.map AuthorityEntry.erased
    decisionDigest := .zero
    provenance := .none }

namespace Proof.Engine

variable {inputs : EvaluationInputs} {plan : List ObligationPlan} {resolutions : List Resolution}

theorem validateQoSClass_erased (value : QoSClass) :
    validateQoSClass value.erased = validateQoSClass value :=
  validateQoSClass_sorted value

theorem validatePolicy_erased (value : Policy) :
    validatePolicy value.erased = validatePolicy value :=
  validatePolicy_readBack value

theorem intake_erased : intake inputs.erased = intake inputs := by
  have klass : validateQoSClass inputs.erased.klass = validateQoSClass inputs.klass :=
    validateQoSClass_erased inputs.klass
  have policy : validatePolicy inputs.erased.policy = validatePolicy inputs.policy :=
    validatePolicy_erased inputs.policy
  have path : validatePath inputs.erased.path = validatePath inputs.path := rfl
  have capabilities : inputs.erased.capabilities.length = inputs.capabilities.length :=
    List.length_map _
  have reservations : inputs.erased.reservations.length = inputs.reservations.length :=
    List.length_map _
  have supplied : inputs.erased.reservations.isEmpty = inputs.reservations.isEmpty :=
    List.isEmpty_map
  unfold intake
  rw [klass, policy, path, capabilities, reservations, supplied]
  rfl

theorem mergeStep_comm (merged : List Text) (a b : Text) :
    (mergeStep (mergeStep merged a) b).Perm (mergeStep (mergeStep merged b) a) := by
  by_cases eq : a = b
  · rw [eq]
  · unfold mergeStep
    by_cases first : a ∈ merged <;> by_cases second : b ∈ merged <;>
      simp [first, second, eq, Ne.symm eq]
    exact List.Perm.append_left merged (.swap b a [])

theorem foldl_mergeStep_perm_keys {keys keys' : List Text} (perm : keys.Perm keys')
    (merged : List Text) : (keys.foldl mergeStep merged).Perm (keys'.foldl mergeStep merged) := by
  induction perm generalizing merged with
  | nil => exact .refl _
  | cons key _ ih => exact ih (mergeStep merged key)
  | swap a b keys => exact foldl_mergeStep_perm keys (mergeStep_comm merged b a)
  | trans _ _ ih ih' => exact (ih merged).trans (ih' merged)

theorem mergedPredicates_erased (klass : QoSClass) (policy : Policy) :
    mergedPredicates klass.erased policy.erased = mergedPredicates klass policy :=
  sortTexts_eq_of_perm
    ((foldl_mergeStep_perm _ (sortTexts_perm klass.requiredPredicates)).trans
      (foldl_mergeStep_perm_keys (sortTexts_perm policy.requiredPredicates) _))

theorem buildPlan_erased (klass : QoSClass) (policy : Policy) :
    buildPlan klass.erased policy.erased = buildPlan klass policy := by
  unfold buildPlan sortedPlan pushedPlan
  rw [mergedPredicates_erased]
  rfl

theorem resolveComponent_erased (policy : Policy) (currentEpoch : FabricEpoch) (nowMs : UInt64)
    (index : Nat) (component : PathComponent) (slot : Option ResourceCapability)
    (reservation : Option Reservation) :
    resolveComponent policy.erased currentEpoch nowMs index component
        (slot.map ResourceCapability.erased) (reservation.map Reservation.erased) =
      (resolveComponent policy currentEpoch nowMs index component slot reservation).erased := by
  cases slot with
  | none => rfl
  | some capability =>
      have same : invalidation policy.erased currentEpoch nowMs component
          capability.erased = invalidation policy currentEpoch nowMs component capability := rfl
      have domain : contradictsDomain component capability.erased =
          contradictsDomain component capability := rfl
      simp only [resolveComponent, Option.map_some, same, domain]
      cases invalidation policy currentEpoch nowMs component capability with
      | some found => rfl
      | none => cases contradictsDomain component capability <;> rfl

theorem getD_map_map {α : Type} (f : α → α) (slots : List (Option α)) (index : Nat) :
    (slots.map (Option.map f)).getD index none = (slots.getD index none).map f := by
  simp only [List.getD_eq_getElem?_getD, List.getElem?_map]
  cases slots[index]? <;> rfl

theorem resolve_erased : resolve inputs.erased = (resolve inputs).map Resolution.erased := by
  unfold resolve
  rw [List.map_map]
  apply List.map_congr_left
  rintro ⟨component, index⟩ -
  have capability : inputs.erased.capabilities.getD index none =
      (inputs.capabilities.getD index none).map ResourceCapability.erased := getD_map_map ..
  have reservation : inputs.erased.reservations.getD index none =
      (inputs.reservations.getD index none).map Reservation.erased := getD_map_map ..
  show resolveAt inputs.erased component index = (resolveAt inputs component index).erased
  unfold resolveAt
  rw [capability, reservation]
  exact resolveComponent_erased ..

theorem contradictions_erased (f : Findings) :
    contradictions (resolutions.map Resolution.erased) f = contradictions resolutions f := by
  unfold contradictions
  rw [List.foldl_map]
  rfl

theorem capabilityValue_erased (item : ObligationPlan) (capability : ResourceCapability)
    (resolution : Resolution) (klass : QoSClass) (policy : Policy) (currentEpoch : FabricEpoch)
    (nowMs : UInt64) :
    capabilityValue item capability.erased resolution.erased klass.erased policy.erased
        currentEpoch nowMs =
      capabilityValue item capability resolution klass policy currentEpoch nowMs := by
  have contains : capability.erased.predicates.contains item.predicate =
      capability.predicates.contains item.predicate :=
    (sortTexts_perm capability.predicates).contains_eq
  have mapped : resolution.erased.reservation = resolution.reservation.map Reservation.erased := rfl
  unfold capabilityValue
  rw [contains, mapped]
  cases resolution.reservation <;> rfl

theorem componentValue_erased (item : ObligationPlan) (resolution : Resolution) (klass : QoSClass)
    (policy : Policy) (currentEpoch : FabricEpoch) (nowMs : UInt64) :
    componentValue item resolution.erased klass.erased policy.erased currentEpoch nowMs =
      componentValue item resolution klass policy currentEpoch nowMs := by
  have mapped : resolution.erased.capability =
      resolution.capability.map ResourceCapability.erased := rfl
  unfold componentValue
  rw [mapped]
  cases resolution.capability with
  | none => rfl
  | some capability => exact capabilityValue_erased ..

theorem scratch_erased (item : ObligationPlan) :
    scratch inputs.erased (resolutions.map Resolution.erased) item =
      scratch inputs resolutions item := by
  unfold scratch
  rw [List.map_map]
  apply List.map_congr_left
  intro resolution _
  have value : componentValue item resolution.erased inputs.erased.klass inputs.erased.policy
      inputs.erased.currentEpoch inputs.erased.nowMs =
        componentValue item resolution inputs.klass inputs.policy inputs.currentEpoch
          inputs.nowMs := componentValue_erased ..
  show scratchValue inputs.erased item resolution.erased = scratchValue inputs item resolution
  unfold scratchValue
  rw [value]
  rfl

theorem blocked_erased :
    blocked (resolutions.map Resolution.erased) =
      (blocked resolutions).map (Prod.map id Resolution.erased) := by
  unfold blocked
  rw [← List.map_reverse, List.find?_map, List.find?_map, List.find?_map]
  have stale : ((fun r : Resolution => r.status == .stale) ∘ Resolution.erased) =
      fun r => r.status == .stale := rfl
  have unavailable :
      ((fun r : Resolution => r.status == .unavailable || r.status == .violated) ∘
        Resolution.erased) = fun r => r.status == .unavailable || r.status == .violated := rfl
  have unknown : ((fun r : Resolution => r.status == .unknown) ∘ Resolution.erased) =
      fun r => r.status == .unknown := rfl
  rw [stale, unavailable, unknown]
  cases resolutions.reverse.find? (·.status == .stale) with
  | some resolution => rfl
  | none =>
      cases resolutions.find? fun r => r.status == .unavailable || r.status == .violated with
      | some resolution => rfl
      | none => cases resolutions.find? (·.status == .unknown) <;> rfl

theorem resourceAt_erased (index : Nat) :
    resourceAt (resolutions.map Resolution.erased) index = resourceAt resolutions index := by
  unfold resourceAt
  rw [List.getElem?_map, Option.map_map]
  rfl

theorem qualifiesFor_erased (resolution : Resolution) (other : ObligationPlan) :
    qualifiesFor inputs.erased resolution.erased other = qualifiesFor inputs resolution other := by
  have value : componentValue other resolution.erased inputs.erased.klass inputs.erased.policy
      inputs.erased.currentEpoch inputs.erased.nowMs =
        componentValue other resolution inputs.klass inputs.policy inputs.currentEpoch
          inputs.nowMs := componentValue_erased ..
  unfold qualifiesFor
  dsimp only
  rw [value]
  rfl

theorem qualify_erased (resolution : Resolution) (plan : List ObligationPlan) :
    qualify inputs.erased resolution.erased plan = qualify inputs resolution plan := by
  induction plan with
  | nil => rfl
  | cons other rest ih => simp only [qualify, qualifiesFor_erased, ih]

theorem countDomain_erased (d : Diversity) (resolution : Resolution) :
    countDomain inputs.erased plan d resolution.erased = countDomain inputs plan d resolution := by
  unfold countDomain
  rw [qualify_erased]
  rfl

theorem diversity_erased :
    diversity inputs.erased plan (resolutions.map Resolution.erased) =
      diversity inputs plan resolutions := by
  unfold diversity
  rw [List.foldl_map]
  congr 1
  funext d resolution
  exact countDomain_erased d resolution

theorem assessDiversity_erased (item : ObligationPlan) :
    assessDiversity inputs.erased plan (resolutions.map Resolution.erased) item =
      assessDiversity inputs plan resolutions item := by
  unfold assessDiversity
  rw [diversity_erased]
  rfl

theorem any_degraded_erased :
    (resolutions.map Resolution.erased).any Resolution.selfDeclaredDegraded =
      resolutions.any Resolution.selfDeclaredDegraded := by
  rw [List.any_map]
  rfl

theorem assessState_erased (item : ObligationPlan) :
    assessState inputs.erased (resolutions.map Resolution.erased) item =
      assessState inputs resolutions item := by
  unfold assessState
  rw [scratch_erased, any_degraded_erased, blocked_erased]
  simp only [resourceAt_erased]
  cases blocked resolutions <;> rfl

theorem assessOrdinary_erased (item : ObligationPlan) :
    assessOrdinary inputs.erased (resolutions.map Resolution.erased) item =
      assessOrdinary inputs resolutions item := by
  unfold assessOrdinary
  rw [blocked_erased]
  cases blocked resolutions with
  | some found => rfl
  | none =>
      simp only [Option.map_none, scratch_erased, resourceAt_erased]
      cases (scratch inputs resolutions item).findIdx? (!·.present) with
      | some i => rfl
      | none => simp only [assessComposition, resourceAt_erased]; rfl

theorem assess_erased (item : ObligationPlan) :
    assess inputs.erased plan (resolutions.map Resolution.erased) item =
      assess inputs plan resolutions item := by
  unfold assess
  rw [assessDiversity_erased, assessState_erased, assessOrdinary_erased]

theorem assessAll_erased : assessAll inputs.erased = assessAll inputs := by
  unfold assessAll
  rw [show buildPlan inputs.erased.klass inputs.erased.policy =
    buildPlan inputs.klass inputs.policy from buildPlan_erased .., resolve_erased]
  exact List.map_congr_left fun item _ => assess_erased item

theorem findings_erased : findings inputs.erased = findings inputs := by
  unfold findings
  rw [assessAll_erased, intake_erased, resolve_erased, contradictions_erased]
  rfl

theorem componentAuthority_erased (resolution : Resolution) :
    (componentAuthority resolution.erased).map AuthorityEntry.erased =
      (componentAuthority resolution).map AuthorityEntry.erased := by
  unfold componentAuthority Resolution.erased
  cases resolution.capability <;> cases resolution.reservation <;> rfl

theorem authority_erased :
    (authority inputs.erased (resolutions.map Resolution.erased)).map AuthorityEntry.erased =
      (authority inputs resolutions).map AuthorityEntry.erased := by
  unfold authority
  rw [List.flatMap_map, List.map_take, List.map_take, List.map_append, List.map_append,
    List.map_flatMap, List.map_flatMap]
  simp only [componentAuthority_erased]
  rfl

theorem map_assessment_erased :
    (resolutions.map Resolution.erased).map Resolution.assessment =
      resolutions.map Resolution.assessment := by
  rw [List.map_map]
  rfl

theorem countStatus_erased (wanted : ComponentStatus) :
    countStatus Resolution.status wanted (resolutions.map Resolution.erased) =
      countStatus Resolution.status wanted resolutions := by
  unfold countStatus
  rw [List.countP_map]
  rfl

theorem erased_sealed (decision : ContractDecision) : decision.sealed.erased = decision.erased :=
  rfl

theorem evaluate_erased (inputs : EvaluationInputs) :
    (evaluate inputs.erased).map ContractDecision.erased =
      (evaluate inputs).map ContractDecision.erased := by
  unfold evaluate
  rw [intake_erased, findings_erased, assessAll_erased, resolve_erased]
  split
  · rfl
  · simp only [map_assessment_erased, countStatus_erased, Except.map, erased_sealed]
    unfold ContractDecision.erased
    rw [authority_erased]
    rfl

theorem conflicts_marked {markers : List ConflictMarker}
    (same : markers.find? (markerApplies inputs) = inputs.conflicts.find? (markerApplies inputs))
    (f : Findings) : conflicts (marked inputs markers) f = conflicts inputs f := by
  have found : (marked inputs markers).conflicts.find? (markerApplies (marked inputs markers)) =
      inputs.conflicts.find? (markerApplies inputs) := same
  unfold conflicts
  rw [found]
  rfl

theorem evaluate_marked_eq {markers : List ConflictMarker}
    (same : markers.find? (markerApplies inputs) = inputs.conflicts.find? (markerApplies inputs)) :
    evaluate (marked inputs markers) = evaluate inputs := by
  have finding : findings (marked inputs markers) = findings inputs := by
    unfold findings
    rw [assessAll_marked, resolve_marked, conflicts_marked same]
    rfl
  unfold evaluate
  rw [finding, assessAll_marked, resolve_marked]
  rfl

theorem evaluate_congr {inputs other : EvaluationInputs}
    (same : other.erased = marked inputs.erased other.conflicts)
    (markers : other.conflicts.find? (markerApplies inputs) =
      inputs.conflicts.find? (markerApplies inputs)) :
    (evaluate other).map ContractDecision.erased = (evaluate inputs).map ContractDecision.erased := by
  rw [← evaluate_erased other, ← evaluate_erased inputs, same,
    @evaluate_marked_eq inputs.erased _ markers]

end Proof.Engine

end QoSFabric
