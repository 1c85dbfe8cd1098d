import QoSFabric.Proof.Engine.Findings
import QoSFabric.Proof.Engine.Plan

/-!
# Live evidence

A verdict is positive only when every phase found nothing worse than a permitted degradation. The
isolation obligation is in every plan and is composed over all components, so a component whose
evidence is missing, stale, unavailable or contradictory always reaches it.
-/

namespace QoSFabric.Proof.Engine

open Outcome

/-- Intake finds nothing to reject. -/
structure Accepted (inputs : EvaluationInputs) : Prop where
  request : validateRequest inputs.request = .ok ()
  klass : validateQoSClass inputs.klass = .ok ()
  policy : validatePolicy inputs.policy = .ok ()
  path : validatePath inputs.path = .ok ()
  classId : inputs.klass.id = inputs.request.classId
  policyId : inputs.policy.id = inputs.request.policy
  pathId : inputs.path.id = inputs.request.path
  classPin : pinned inputs.request.classGeneration inputs.klass.generation = false
  policyPin : pinned inputs.request.policyGeneration inputs.policy.generation = false
  pathPin : pinned inputs.request.pathGeneration inputs.path.generation = false
  capabilities : inputs.capabilities.length = inputs.path.components.length
  reservations : inputs.reservations = [] ∨
    inputs.reservations.length = inputs.path.components.length

def Concerns (inputs : EvaluationInputs) (marker : ConflictMarker) : Prop :=
  match marker.scope with
  | .class => marker.id = inputs.klass.id
  | .policy => marker.id = inputs.policy.id
  | .path => marker.id = inputs.path.id
  | .capability | .reservation =>
      ∃ component ∈ inputs.path.components, marker.id = component.resource
  | .count => False

structure Unconflicted (inputs : EvaluationInputs) : Prop where
  notDenied : inputs.klass.id ∉ inputs.policy.deniedClasses
  unmarked : ∀ marker ∈ inputs.conflicts, ¬Concerns inputs marker

structure Current (inputs : EvaluationInputs) : Prop where
  klass : ∀ latest, inputs.currency.latestClassGeneration = some latest →
    latest = inputs.klass.generation
  policy : ∀ latest, inputs.currency.latestPolicyGeneration = some latest →
    latest = inputs.policy.generation
  path : ∀ latest, inputs.currency.latestPathGeneration = some latest →
    latest = inputs.path.generation
  observed : inputs.request.observedEpoch = 0 ∨
    epochBehind inputs.request.observedEpoch inputs.policy inputs.currentEpoch = false

section Phases

variable {inputs : EvaluationInputs} {level : Outcome}

private theorem not_le_of_low {outcome : Outcome} (low : level ≤ supportedDegraded)
    (high : ¬outcome ≤ supportedDegraded) : ¬outcome ≤ level := by
  revert low high
  cases level <;> cases outcome <;> decide

theorem intake_le (rejects : ¬rejected ≤ level) :
    (intake inputs).outcome ≤ level ↔ Accepted inputs := by
  simp only [intake, find_le, check_le, clean_le, rejects, or_false, imp_false, true_and,
    Bool.not_eq_true, bne_eq_false_iff_eq, Bool.and_eq_false_iff, Bool.not_eq_false',
    List.isEmpty_iff]
  constructor
  · rintro ⟨⟨⟨⟨⟨⟨⟨⟨⟨⟨⟨h₁, h₂⟩, h₃⟩, h₄⟩, h₅⟩, h₆⟩, h₇⟩, h₈⟩, h₉⟩, h₁₀⟩, h₁₁⟩, h₁₂⟩
    exact ⟨h₁, h₂, h₃, h₄, h₅, h₆, h₇, h₈, h₉, h₁₀, h₁₁, h₁₂⟩
  · rintro ⟨h₁, h₂, h₃, h₄, h₅, h₆, h₇, h₈, h₉, h₁₀, h₁₁, h₁₂⟩
    exact ⟨⟨⟨⟨⟨⟨⟨⟨⟨⟨⟨h₁, h₂⟩, h₃⟩, h₄⟩, h₅⟩, h₆⟩, h₇⟩, h₈⟩, h₉⟩, h₁₀⟩, h₁₁⟩, h₁₂⟩

theorem markerApplies_iff {marker : ConflictMarker} :
    markerApplies inputs marker = true ↔ Concerns inputs marker := by
  unfold markerApplies Concerns
  cases marker.scope <;> simp

theorem conflicts_le {f : Findings} (conflicting : ¬conflict ≤ level) :
    (conflicts inputs f).outcome ≤ level ↔ f.outcome ≤ level ∧ Unconflicted inputs := by
  have denied : inputs.policy.deniedClasses.any (· == inputs.klass.id) = true ↔
      inputs.klass.id ∈ inputs.policy.deniedClasses := by simp
  unfold conflicts
  cases found : inputs.conflicts.find? (markerApplies inputs) with
  | none =>
      simp only [find_le, conflicting, imp_false, denied]
      rw [List.find?_eq_none] at found
      constructor
      · rintro ⟨clean, notDenied⟩
        exact ⟨clean, notDenied, fun marker mem concerns =>
          found marker mem (markerApplies_iff.mpr concerns)⟩
      · rintro ⟨clean, h⟩
        exact ⟨clean, h.notDenied⟩
  | some marker =>
      simp only [merge_le, conflicting, and_false, false_iff, not_and]
      intro _ h
      have concerns := markerApplies_iff.mp (List.find?_some found)
      exact h.unmarked marker (List.mem_of_find?_eq_some found) concerns

theorem contradictions_le {resolutions : List Resolution} {f : Findings}
    (conflicting : ¬conflict ≤ level) :
    (contradictions resolutions f).outcome ≤ level ↔
      f.outcome ≤ level ∧ ∀ r ∈ resolutions, ¬r.domainContradiction = true := by
  exact foldl_le (fun f r => by simp [find_le, conflicting]) resolutions f

theorem superseded_eq_false {latest : Option Generation} {generation : Generation} :
    superseded latest generation = false ↔ ∀ g, latest = some g → g = generation := by
  cases latest <;> simp [superseded]

theorem currency_le {f : Findings} (outdated : ¬stale ≤ level) :
    (currency inputs f).outcome ≤ level ↔ f.outcome ≤ level ∧ Current inputs := by
  simp only [currency, find_le, outdated, imp_false, Bool.not_eq_true, superseded_eq_false,
    Bool.and_eq_false_iff, bne_eq_false_iff_eq, and_assoc]
  constructor
  · rintro ⟨clean, h₁, h₂, h₃, h₄⟩
    exact ⟨clean, h₁, h₂, h₃, h₄⟩
  · rintro ⟨clean, h₁, h₂, h₃, h₄⟩
    exact ⟨clean, h₁, h₂, h₃, h₄⟩

theorem overflows_le {assessed : List Assessed} {f : Findings} (rejects : ¬rejected ≤ level) :
    (overflows assessed f).outcome ≤ level ↔
      f.outcome ≤ level ∧ ∀ a ∈ assessed, ¬a.overflowed = true := by
  exact foldl_le (fun f a => by simp [find_le, rejects]) assessed f

theorem rollUp_le {obligations : List ObligationAssessment} {f : Findings} :
    (rollUp obligations f).outcome ≤ level ↔
      f.outcome ≤ level ∧ ∀ a ∈ obligations, a.status.outcome ≤ level := by
  have step : ∀ (f : Findings) (a : ObligationAssessment),
      (f.merge a.status.outcome).outcome ≤ level ↔
        f.outcome ≤ level ∧ a.status.outcome ≤ level := fun _ _ => merge_le
  rw [rollUp, foldl_le step]

structure Clear (inputs : EvaluationInputs) (level : Outcome) : Prop where
  accepted : Accepted inputs
  unconflicted : Unconflicted inputs
  consistent : ∀ r ∈ resolve inputs, ¬r.domainContradiction = true
  current : Current inputs
  bounded : ∀ a ∈ assessAll inputs, ¬a.overflowed = true
  met : ∀ a ∈ assessAll inputs, a.assessment.status.outcome ≤ level

theorem findings_le (low : level ≤ supportedDegraded) :
    (findings inputs).outcome ≤ level ↔ Clear inputs level := by
  have rejects : ¬rejected ≤ level := not_le_of_low low (by decide)
  have conflicting : ¬conflict ≤ level := not_le_of_low low (by decide)
  have outdated : ¬stale ≤ level := not_le_of_low low (by decide)
  simp only [findings, rollUp_le, overflows_le rejects, currency_le outdated,
    contradictions_le conflicting, conflicts_le conflicting, intake_le rejects, List.forall_mem_map]
  constructor
  · rintro ⟨⟨⟨⟨⟨h₁, h₂⟩, h₃⟩, h₄⟩, h₅⟩, h₆⟩
    exact ⟨h₁, h₂, h₃, h₄, h₅, h₆⟩
  · rintro ⟨h₁, h₂, h₃, h₄, h₅, h₆⟩
    exact ⟨⟨⟨⟨⟨h₁, h₂⟩, h₃⟩, h₄⟩, h₅⟩, h₆⟩

theorem rejection_outcome (f : Findings) : (rejection inputs f).outcome = rejected := rfl

theorem sealed_outcome (decision : ContractDecision) :
    decision.sealed.outcome = decision.outcome := rfl

theorem sealed_obligations (decision : ContractDecision) :
    decision.sealed.obligations = decision.obligations := rfl

theorem sealed_degradations (decision : ContractDecision) :
    decision.sealed.degradations = decision.degradations := rfl

theorem evaluate_le (low : level ≤ supportedDegraded) :
    (∃ decision, evaluate inputs = .ok decision ∧ decision.outcome ≤ level) ↔
      Clear inputs level := by
  have rejects : ¬rejected ≤ level := not_le_of_low low (by decide)
  unfold evaluate
  split
  · next refused =>
      have notAccepted : ¬Accepted inputs := by
        rwa [← intake_le rejects, refused]
      simp only [Except.ok.injEq, exists_eq_left', rejection_outcome, rejects, false_iff]
      exact fun clear => notAccepted clear.accepted
  · simp only [Except.ok.injEq, exists_eq_left', sealed_outcome]
    exact findings_le low

theorem evaluate_ok (inputs : EvaluationInputs) : ∃ decision, evaluate inputs = .ok decision := by
  unfold evaluate
  split
  · exact ⟨_, rfl⟩
  · exact ⟨_, rfl⟩

theorem evaluate_refused {decision : ContractDecision} (refused : ¬Accepted inputs)
    (evaluated : evaluate inputs = .ok decision) : decision = rejection inputs (intake inputs) := by
  have rejects : (intake inputs).outcome = .rejected := by
    rw [← intake_le (show ¬rejected ≤ conflict by decide)] at refused
    generalize (intake inputs).outcome = outcome at refused
    revert refused
    cases outcome <;> decide
  unfold evaluate at evaluated
  rw [if_pos rejects] at evaluated
  exact (Except.ok.inj evaluated).symm

structure Reports (inputs : EvaluationInputs) (decision : ContractDecision) : Prop where
  outcome : decision.outcome = (findings inputs).outcome
  obligations : decision.obligations = (assessAll inputs).map Assessed.assessment
  degradations : decision.degradations = degradations decision.obligations

theorem evaluate_reports {decision : ContractDecision} (accepted : Accepted inputs)
    (evaluated : evaluate inputs = .ok decision) : Reports inputs decision := by
  have notRefused : (intake inputs).outcome ≠ .rejected := by
    intro refused
    have clean := (intake_le (show ¬rejected ≤ supported by decide)).mpr accepted
    rw [refused] at clean
    exact absurd clean (by decide)
  unfold evaluate at evaluated
  rw [if_neg notRefused] at evaluated
  obtain rfl := Except.ok.inj evaluated
  constructor
  · rw [sealed_outcome]
  · rw [sealed_obligations]
  · rw [sealed_obligations, sealed_degradations]

end Phases

structure LiveCapability (inputs : EvaluationInputs) (component : PathComponent)
    (capability : ResourceCapability) : Prop where
  resource : capability.resource = component.resource
  generation : capability.generation = component.capabilityGeneration
  epoch : inputs.currentEpoch.toNat ≤
    capability.epoch.toNat + inputs.policy.maxStaleEpochs.toNat
  unexpired : capability.expiresAtMs = 0 ∨ inputs.nowMs ≤ capability.expiresAtMs
  notFuture : capability.publishedAtMs ≤ inputs.nowMs
  fresh : inputs.nowMs.toNat - capability.publishedAtMs.toNat ≤
    inputs.policy.capabilityMaxAgeMs.toNat
  state : capability.state = .available ∨ capability.state = .degraded
  domain : capability.diversityDomain = [] ∨
    capability.diversityDomain = component.diversityDomain

theorem epoch_le_of_not_epochBehind {epoch currentEpoch : FabricEpoch} {policy : Policy}
    (h : epochBehind epoch policy currentEpoch = false) :
    currentEpoch.toNat ≤ epoch.toNat + policy.maxStaleEpochs.toNat := by
  simp only [epochBehind, decide_eq_false_iff_not, UInt64.not_lt, UInt64.le_iff_toNat_le,
    UInt64.toNat_add, UInt32.toNat_toUInt64] at h
  exact Nat.le_trans h (Nat.mod_le _ _)

theorem liveCapability {inputs : EvaluationInputs} {component : PathComponent}
    {capability : ResourceCapability}
    (valid : invalidation inputs.policy inputs.currentEpoch inputs.nowMs component capability = none)
    (domain : contradictsDomain component capability = false) :
    LiveCapability inputs component capability := by
  unfold invalidation at valid
  repeat (split at valid; · cases valid)
  next resource generation epoch expired future age unavailable unknown =>
    have notFuture : capability.publishedAtMs ≤ inputs.nowMs := UInt64.not_lt.mp future
    refine ⟨not_not.mp resource, not_not.mp generation,
      epoch_le_of_not_epochBehind (Bool.not_eq_true _ ▸ epoch), ?_, notFuture, ?_, ?_, ?_⟩
    · by_cases never : capability.expiresAtMs = 0
      · exact .inl never
      · exact .inr (UInt64.not_lt.mp fun late => expired ⟨never, late⟩)
    · have age := UInt64.le_iff_toNat_le.mp (UInt64.not_lt.mp age)
      rwa [UInt64.toNat_sub_of_le _ _ notFuture] at age
    · cases state : capability.state <;> simp_all
    · simp only [contradictsDomain, Bool.and_eq_false_iff, Bool.not_eq_false',
        List.isEmpty_iff, bne_eq_false_iff_eq] at domain
      exact domain

/-- A component resolves when its evidence survives every invalidation. -/
def Resolves (inputs : EvaluationInputs) (component : PathComponent)
    (slot : Option ResourceCapability) : Prop :=
  ∃ capability, slot = some capability ∧
    invalidation inputs.policy inputs.currentEpoch inputs.nowMs component capability = none ∧
    contradictsDomain component capability = false

def Resolution.Resolved (r : Resolution) : Prop :=
  r.status = .satisfied ∨ r.status = .degraded

theorem invalidation_status {policy : Policy} {currentEpoch nowMs : UInt64}
    {component : PathComponent} {capability : ResourceCapability} {status : ComponentStatus}
    {reason : Text}
    (h : invalidation policy currentEpoch nowMs component capability = some (status, reason)) :
    status = .unknown ∨ status = .stale ∨ status = .unavailable := by
  unfold invalidation at h
  split_ifs at h <;> simp_all

theorem resolveAt_of_resolves {inputs : EvaluationInputs} {component : PathComponent} {index : Nat}
    {capability : ResourceCapability}
    (slot : inputs.capabilities.getD index none = some capability)
    (valid : invalidation inputs.policy inputs.currentEpoch inputs.nowMs component capability = none)
    (domain : contradictsDomain component capability = false) :
    resolveAt inputs component index =
      { unresolved index component (inputs.reservations.getD index none) with
        capability := some capability
        observedGeneration := some capability.generation
        observedIncarnation := some capability.incarnation
        selfDeclaredDegraded := capability.state == .degraded
        status := if capability.state == .degraded then .degraded else .satisfied } := by
  unfold resolveAt resolveComponent
  rw [slot]
  simp only [valid, domain, Bool.false_eq_true, if_false]

theorem resolved_iff {inputs : EvaluationInputs} {component : PathComponent} {index : Nat} :
    Resolution.Resolved (resolveAt inputs component index) ↔
      Resolves inputs component (inputs.capabilities.getD index none) := by
  unfold resolveAt resolveComponent Resolves Resolution.Resolved
  cases slot : inputs.capabilities.getD index none with
  | none => simp [unresolved]
  | some capability =>
      cases invalid : invalidation inputs.policy inputs.currentEpoch inputs.nowMs component
          capability with
      | some finding =>
          rcases invalidation_status invalid with h | h | h <;> simp [h, invalid]
      | none =>
          cases domain : contradictsDomain component capability with
          | true => simp [domain, invalid]
          | false =>
              simp only [Option.some.injEq, exists_eq_left', invalid, domain, and_self, iff_true]
              cases capability.state == .degraded <;> simp

theorem blocked_eq_none {resolutions : List Resolution} :
    blocked resolutions = none ↔ ∀ r ∈ resolutions, Resolution.Resolved r := by
  unfold blocked
  constructor
  · intro h r mem
    split at h
    · cases h
    · next notStale =>
        split at h
        · cases h
        · next notUnavailable =>
            rw [Option.map_eq_none_iff, List.find?_eq_none] at h
            rw [List.find?_eq_none] at notStale notUnavailable
            have h₁ := notStale r (by simpa using mem)
            have h₂ := notUnavailable r mem
            have h₃ := h r mem
            unfold Resolution.Resolved
            cases status : r.status <;> simp_all
  · intro resolved
    have never : ∀ status : ComponentStatus, status ≠ .satisfied → status ≠ .degraded →
        ∀ r ∈ resolutions, r.status ≠ status := by
      rintro status h₁ h₂ r mem rfl
      exact (resolved r mem).elim h₁ h₂
    have notStale : resolutions.reverse.find? (·.status == .stale) = none := by
      rw [List.find?_eq_none]
      intro r mem
      simpa using never .stale (by decide) (by decide) r (by simpa using mem)
    have notUnavailable : resolutions.find?
        (fun r => r.status == .unavailable || r.status == .violated) = none := by
      rw [List.find?_eq_none]
      intro r mem
      simpa using ⟨never .unavailable (by decide) (by decide) r mem,
        never .violated (by decide) (by decide) r mem⟩
    have notUnknown : resolutions.find? (·.status == .unknown) = none := by
      rw [List.find?_eq_none]
      intro r mem
      simpa using never .unknown (by decide) (by decide) r mem
    simp only [notStale, notUnavailable, notUnknown, Option.map_none]

theorem blocked_status {resolutions : List Resolution} {status : ObligationStatus}
    {r : Resolution} (h : blocked resolutions = some (status, r)) :
    ¬status.outcome ≤ supportedDegraded := by
  unfold blocked at h
  split at h
  · cases h; decide
  · split at h
    · cases h; decide
    · obtain ⟨_, -, h⟩ := Option.map_eq_some_iff.mp h
      cases h; decide

theorem isolation_mem_buildPlan {inputs : EvaluationInputs} (accepted : Accepted inputs) :
    plain .isolation inputs.klass.isolation.rank.toUInt64 ∈
      buildPlan inputs.klass inputs.policy := by
  apply mem_buildPlan (validateQoSClass_ok accepted.klass) (validatePolicy_ok accepted.policy)
  · exact mem_pushedPlan.mpr (by simp [plain, pushedOf, push])
  · show ObligationKind.isolation ∈ pathKinds
    decide

theorem all_resolved {inputs : EvaluationInputs} {level : Outcome}
    (low : level ≤ supportedDegraded) (clear : Clear inputs level) :
    ∀ r ∈ resolve inputs, Resolution.Resolved r := by
  rw [← blocked_eq_none]
  have item := isolation_mem_buildPlan clear.accepted
  have met := clear.met _ (List.mem_map_of_mem item)
  cases h : blocked (resolve inputs) with
  | none => rfl
  | some finding =>
      simp only [assess, plain, assessOrdinary, h, blame] at met
      exact absurd met (not_le_of_low low (blocked_status h))

theorem mem_assessAll {inputs : EvaluationInputs} {a : Assessed} :
    a ∈ assessAll inputs ↔ ∃ item ∈ buildPlan inputs.klass inputs.policy,
      assess inputs (buildPlan inputs.klass inputs.policy) (resolve inputs) item = a :=
  List.mem_map

theorem mem_resolve {inputs : EvaluationInputs} {r : Resolution} :
    r ∈ resolve inputs ↔ ∃ index component, inputs.path.components[index]? = some component ∧
      resolveAt inputs component index = r := by
  constructor
  · intro mem
    obtain ⟨⟨component, index⟩, found, rfl⟩ := List.mem_map.mp mem
    exact ⟨index, component, List.mem_zipIdx_iff_getElem?.mp found, rfl⟩
  · rintro ⟨index, component, found, rfl⟩
    exact List.mem_map.mpr ⟨(component, index), List.mem_zipIdx_iff_getElem?.mpr found, rfl⟩

theorem length_resolve {inputs : EvaluationInputs} :
    (resolve inputs).length = inputs.path.components.length := by
  unfold resolve
  rw [List.length_map, List.length_zipIdx]

structure LiveEvidence (inputs : EvaluationInputs) : Prop where
  components : ∀ (index : Nat) (component : PathComponent),
    inputs.path.components[index]? = some component →
      ∃ capability, inputs.capabilities[index]? = some (some capability) ∧
        LiveCapability inputs component capability
  klass : ∀ latest, inputs.currency.latestClassGeneration = some latest →
    latest = inputs.klass.generation
  policy : ∀ latest, inputs.currency.latestPolicyGeneration = some latest →
    latest = inputs.policy.generation
  path : ∀ latest, inputs.currency.latestPathGeneration = some latest →
    latest = inputs.path.generation
  unmarked : ∀ marker ∈ inputs.conflicts, ¬Concerns inputs marker
  notDenied : inputs.klass.id ∉ inputs.policy.deniedClasses

theorem getElem?_of_getD {α : Type} {items : List (Option α)} {index : Nat} {a : α}
    (h : items.getD index none = some a) : items[index]? = some (some a) := by
  rw [List.getD_eq_getElem?_getD] at h
  cases found : items[index]? with
  | none => simp [found] at h
  | some slot => simpa [found] using h

theorem Clear.live {inputs : EvaluationInputs} (clear : Clear inputs supportedDegraded) {index : Nat}
    {component : PathComponent} (found : inputs.path.components[index]? = some component) :
    ∃ capability, inputs.capabilities[index]? = some (some capability) ∧
      LiveCapability inputs component capability := by
  have resolved := all_resolved (by decide) clear _ (mem_resolve.mpr ⟨index, component, found, rfl⟩)
  obtain ⟨capability, slot, valid, domain⟩ := resolved_iff.mp resolved
  exact ⟨capability, getElem?_of_getD slot, liveCapability valid domain⟩

theorem clear_of_positive {inputs : EvaluationInputs} {decision : ContractDecision}
    (evaluated : evaluate inputs = .ok decision) (positive : decision.outcome.isPositive = true) :
    Clear inputs supportedDegraded :=
  (evaluate_le (by decide)).mp ⟨decision, evaluated, le_supportedDegraded.mpr positive⟩

theorem evaluate_positive_live {inputs : EvaluationInputs} {decision : ContractDecision}
    (evaluated : evaluate inputs = .ok decision) (positive : decision.outcome.isPositive = true) :
    LiveEvidence inputs := by
  have clear := clear_of_positive evaluated positive
  refine ⟨?_, clear.current.klass, clear.current.policy, clear.current.path,
    clear.unconflicted.unmarked, clear.unconflicted.notDenied⟩
  intro index component found
  exact clear.live found

def plainClass : QoSClass where
  id := text "gold"
  generation := 1
  label := []
  minRateBps := none
  maxRateBps := none
  peakRateBps := none
  maxLatencyUs := none
  maxJitterUs := none
  maxLossPpm := none
  burstBytes := none
  burstIntervalUs := none
  minMtuBytes := none
  isolation := .none
  treatment := .bestEffort
  minPriorityRank := 0
  minDisjointPaths := 1
  requiresReservation := false
  requiredPredicates := []
  allowDegrade := false
  degradeMaxRelaxationPpm := 0
  violationPolicy := .degradeThenReject
  publishedEpoch := 0
  digest := .zero
  provenance := .none

def plainPolicy : Policy where
  id := text "strict"
  generation := 1
  label := []
  degradePermitted := false
  maxRelaxationPpm := 0
  maxStaleEpochs := 0
  capabilityMaxAgeMs := 1000
  maxUnknownComponents := 0
  requiredPredicates := []
  deniedClasses := []
  publishedEpoch := 0
  digest := .zero
  provenance := .none

def plainPath : Path where
  id := text "east"
  generation := 1
  components := [⟨text "r1", 1, text "d1", .member⟩]
  fixedLatencyUs := 0
  fixedJitterUs := 0
  epoch := 0
  digest := .zero
  provenance := .none

def plainCapability : ResourceCapability where
  resource := text "r1"
  generation := 1
  epoch := 0
  publisher := text "p1"
  incarnation := 1
  publishedAtMs := 0
  expiresAtMs := 0
  state := .available
  supportedRateBps := none
  latencyBoundUs := none
  jitterBoundUs := none
  lossPpm := none
  maxBurstBytes := none
  burstWindowUs := none
  mtuBytes := none
  maxIsolation := .none
  maxTreatment := .bestEffort
  maxPriorityRank := 0
  predicates := []
  diversityDomain := text "d1"
  digest := .zero
  provenance := .none

def plainRequest : ContractRequest where
  contract := text "c1"
  contractGeneration := 1
  subject := text "s1"
  subjectGeneration := 1
  classId := text "gold"
  classGeneration := 0
  path := text "east"
  pathGeneration := 0
  policy := text "strict"
  policyGeneration := 0
  priority := text "normal"
  priorityGeneration := 1
  observedEpoch := 0
  requestMs := 0
  provenance := .none

def plainInputs : EvaluationInputs where
  request := plainRequest
  klass := plainClass
  policy := plainPolicy
  path := plainPath
  capabilities := [some plainCapability]
  reservations := []
  currency := ⟨none, none, none⟩
  conflicts := []
  currentEpoch := 0
  nowMs := 0
  evaluator := []

/-- Two resources with requirements, the newest definitions, and a marker against another class. -/
def firmInputs : EvaluationInputs :=
  { plainInputs with
    klass := { plainClass with
      minRateBps := some 1000, maxLatencyUs := some 500, maxLossPpm := some 40
      requiredPredicates := [text "encrypted"] }
    policy := { plainPolicy with maxStaleEpochs := 2, deniedClasses := [text "lead"] }
    path := { plainPath with
      components := [⟨text "r1", 1, text "d1", .member⟩, ⟨text "r2", 1, text "d2", .member⟩]
      epoch := 3 }
    capabilities := [
      some { plainCapability with
        epoch := 2, publishedAtMs := 10, expiresAtMs := 900, supportedRateBps := some 2000
        latencyBoundUs := some 200, lossPpm := some 10, predicates := [text "encrypted"] },
      some { plainCapability with
        resource := text "r2", diversityDomain := text "d2"
        epoch := 1, publishedAtMs := 20, expiresAtMs := 0, supportedRateBps := some 1000
        latencyBoundUs := some 300, lossPpm := some 20, predicates := [text "encrypted"] }]
    currency := ⟨some 1, some 1, some 1⟩
    conflicts := [⟨.class, text "lead", 1, .zero, .zero, 2, []⟩]
    currentEpoch := 3
    nowMs := 100 }

theorem evaluate_positive_live_firm : LiveEvidence firmInputs := by
  have clean : (findings firmInputs).outcome ≤ supportedDegraded := by decide +kernel
  obtain ⟨decision, evaluated, positive⟩ := (evaluate_le (by decide)).mpr
    ((findings_le (by decide)).mp clean)
  exact evaluate_positive_live evaluated (le_supportedDegraded.mp positive)

end QoSFabric.Proof.Engine
