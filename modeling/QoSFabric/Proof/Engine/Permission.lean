import QoSFabric.Proof.Engine.Gist

/-!
# Degradation without a window

The branches for declared states and for path diversity ask whether degradation is permitted, and
not whether a window is open. Of the obligations only the ordinary ones look at the window.
-/

namespace QoSFabric.Proof.Engine

open Outcome

variable {inputs : EvaluationInputs}

/-- Degradation is not permitted, or one of the two windows is shut. -/
def Forbidden (klass : QoSClass) (policy : Policy) : Prop :=
  klass.allowDegrade = false ∨ policy.degradePermitted = false ∨ klass.violationPolicy = .reject ∨
    klass.degradeMaxRelaxationPpm = 0 ∨ policy.maxRelaxationPpm = 0

theorem forbidden_iff {klass : QoSClass} {policy : Policy} :
    Forbidden klass policy ↔ permittedWindow klass policy = 0 := by
  unfold Forbidden permittedWindow
  rw [← UInt32.toNat_inj, ← UInt32.toNat_inj]
  split
  next permitted =>
    simp only [permitted, Bool.true_eq_false, false_or]
    rw [Nat.min_eq_zero_iff]
    rfl
  next refused =>
    simp only [iff_true]
    by_contra none
    simp only [not_or, Bool.not_eq_false] at none
    exact refused ⟨none.1, none.2.1, none.2.2.1⟩

/-- A decision that shows no degradation anywhere. -/
structure Undegraded (decision : ContractDecision) : Prop where
  obligations : ∀ a ∈ decision.obligations, a.status ≠ .degraded
  degradations : decision.degradations = []
  outcome : decision.outcome ≠ .supportedDegraded

/-- Every component is live and one declares itself degraded, in the sight of the plan. -/
structure DeclaredDegraded (inputs : EvaluationInputs) : Prop where
  planned : plain .resourceState stateAvailable ∈ buildPlan inputs.klass inputs.policy
  resolved : ∀ r ∈ resolve inputs, Resolution.Resolved r
  degraded : ∃ r ∈ resolve inputs, r.status = .degraded

/-- Too few failure domains count, with no evidence outstanding, where violations are reported. -/
structure ThinlyReported (inputs : EvaluationInputs) : Prop where
  reportOnly : inputs.klass.violationPolicy = .reportOnly
  proven : ∀ r ∈ resolve inputs, ¬Unproven inputs (buildPlan inputs.klass inputs.policy) r
  thin : (domains inputs (buildPlan inputs.klass inputs.policy) (resolve inputs)).length <
    inputs.klass.minDisjointPaths.toNat

theorem grade_undegraded (accepted : Accepted inputs)
    (shut : permittedWindow inputs.klass inputs.policy = 0) {item : ObligationPlan}
    (planned : item ∈ buildPlan inputs.klass inputs.policy) (value : UInt64) :
    grade inputs item value ≠ .degraded := by
  unfold grade
  have small : item.assessment.requiredValue.toNat ≤ 2 ^ 40 := planned_required_le accepted planned
  rcases verdict_cases accepted.klass small value with
    ⟨-, met⟩ | ⟨-, -, violated⟩ | ⟨-, covered, -⟩
  · rw [met]
    decide
  · rw [violated]
    decide
  · exact absurd shut (Nat.ne_of_gt covered.2)

theorem stopping_undegraded {statuses : List ComponentStatus} {status : ObligationStatus}
    (stopped : stopping statuses = some status) : status ≠ .degraded := by
  unfold stopping at stopped
  split_ifs at stopped <;> cases stopped <;> decide

theorem ordinaryGist_undegraded (accepted : Accepted inputs)
    (shut : permittedWindow inputs.klass inputs.policy = 0) {item : ObligationPlan}
    (planned : item ∈ buildPlan inputs.klass inputs.policy) (statuses : List ComponentStatus)
    (values : List RawValue) :
    (ordinaryGist inputs item (stopping statuses) values).status ≠ .degraded := by
  unfold ordinaryGist
  cases stopped : stopping statuses with
  | some status => exact stopping_undegraded stopped
  | none =>
      dsimp only
      split
      · unfold compositionGist
        repeat' split
        · decide
        · decide
        · exact grade_undegraded accepted shut planned _
      · decide

theorem diversityFloor_shut {required : UInt64} (positive : 0 < required) :
    diversityFloor required 0 = required := by
  have none : (checkedMul required (0 : UInt32).toUInt64).getD 0 / ppm = 0 := by
    rw [checkedMul, if_pos (.inr rfl)]
    rfl
  have least : min 0 (required - 1) = 0 := if_pos (UInt64.zero_le)
  unfold diversityFloor
  dsimp only
  rw [none, least, UInt64.sub_zero, if_neg]
  rw [UInt64.not_lt, UInt64.le_iff_toNat_le]
  exact UInt64.lt_iff_toNat_lt.mp positive

theorem diversityGist_degraded_iff (accepted : Accepted inputs)
    (shut : permittedWindow inputs.klass inputs.policy = 0) :
    (diversityGist inputs inputs.klass.minDisjointPaths.toUInt64
        (domains inputs (buildPlan inputs.klass inputs.policy) (resolve inputs)).length
        (diversity inputs (buildPlan inputs.klass inputs.policy) (resolve inputs)).anyUnknown).status =
        .degraded ↔
      degradationPermitted inputs.klass inputs.policy = true ∧ ThinlyReported inputs := by
  have positive : 0 < inputs.klass.minDisjointPaths.toUInt64 := by
    have least := UInt32.lt_iff_toNat_lt.mp (validateQoSClass_ok accepted.klass).disjointPaths
    rw [UInt64.lt_iff_toNat_lt, UInt32.toNat_toUInt64]
    exact least
  rw [← relaxationWindow_eq_zero] at shut
  unfold diversityGist diversityStatus
  rw [shut, diversityFloor_shut positive]
  simp only [count_ge_iff accepted, UInt32.toNat_toUInt64]
  by_cases enough : inputs.klass.minDisjointPaths.toNat ≤
      (domains inputs (buildPlan inputs.klass inputs.policy) (resolve inputs)).length
  · rw [if_pos enough]
    refine iff_of_false (by decide) fun degraded => ?_
    exact Nat.not_lt.mpr enough degraded.2.thin
  rw [if_neg enough, decide_eq_false enough, Bool.false_or]
  by_cases outstanding :
      (diversity inputs (buildPlan inputs.klass inputs.policy) (resolve inputs)).anyUnknown = true
  · rw [if_pos outstanding]
    refine iff_of_false (by decide) fun degraded => ?_
    obtain ⟨r, mem, unproven⟩ := diversity_anyUnknown.mp outstanding
    exact degraded.2.proven r mem unproven
  rw [if_neg outstanding]
  have proven : ∀ r ∈ resolve inputs, ¬Unproven inputs (buildPlan inputs.klass inputs.policy) r :=
    fun r mem unproven => outstanding (diversity_anyUnknown.mpr ⟨r, mem, unproven⟩)
  cases permitted : degradationPermitted inputs.klass inputs.policy with
  | false =>
      rw [Bool.false_and]
      exact iff_of_false (by decide) fun degraded => Bool.false_ne_true degraded.1
  | true =>
      rw [Bool.true_and]
      by_cases only : reportOnly inputs.klass inputs.policy = true
      · rw [if_pos only]
        exact iff_of_true rfl ⟨rfl, (reportOnly_iff permitted).mp only, proven, Nat.not_le.mp enough⟩
      · rw [if_neg only]
        exact iff_of_false (by decide) fun degraded =>
          only ((reportOnly_iff permitted).mpr degraded.2.reportOnly)

theorem selfDeclared_of_resolved {r : Resolution} (mem : r ∈ resolve inputs)
    (resolved : Resolution.Resolved r) : r.selfDeclaredDegraded = true ↔ r.status = .degraded := by
  obtain ⟨index, component, -, rfl⟩ := mem_resolve.mp mem
  obtain ⟨capability, slot, valid, domain⟩ := resolved_iff.mp resolved
  rw [resolveAt_of_resolves slot valid domain]
  dsimp only
  split
  next degraded => exact iff_of_true degraded rfl
  next available => exact iff_of_false available (by decide)

theorem stateGist_degraded_iff {item : ObligationPlan} (kind : item.kind = .resourceState) :
    (stateGist inputs (stopping ((resolve inputs).map Resolution.status))
        (worstState (scratch inputs (resolve inputs) item) 0 (stateAvailable, 0)).1
        ((resolve inputs).any Resolution.selfDeclaredDegraded)).status = .degraded ↔
      degradationPermitted inputs.klass inputs.policy = true ∧
        (∀ r ∈ resolve inputs, Resolution.Resolved r) ∧
        ∃ r ∈ resolve inputs, r.status = .degraded := by
  cases stopped : stopping ((resolve inputs).map Resolution.status) with
  | some status =>
      refine iff_of_false (stopping_undegraded stopped) fun degraded => ?_
      rw [stopping_eq_none.mpr degraded.2.1] at stopped
      cases stopped
  | none =>
      have resolved := stopping_eq_none.mp stopped
      have declared : (∃ r ∈ resolve inputs, r.status = .degraded) ↔
          (resolve inputs).any Resolution.selfDeclaredDegraded = true := by
        rw [List.any_eq_true]
        exact exists_congr fun r => and_congr_right fun mem =>
          (selfDeclared_of_resolved mem (resolved r mem)).symm
      have worst : stateAvailable ≤ (worstState (declaredValues inputs item) 0 (stateAvailable, 0)).1 ↔
          ¬(resolve inputs).any Resolution.selfDeclaredDegraded = true := by
        rw [worstState_available resolved kind, List.any_eq_true]
        simp
      rw [scratch_eq resolved, declared]
      simp only [stateGist, ge_iff_le, worst]
      cases (resolve inputs).any Resolution.selfDeclaredDegraded with
      | false => simp
      | true =>
          cases degradationPermitted inputs.klass inputs.policy with
          | false => simp
          | true => simpa using resolved

theorem outcome_le_supported {status : ObligationStatus} (positive : status.outcome ≤ supportedDegraded)
    (undegraded : status ≠ .degraded) : status.outcome ≤ supported := by
  revert positive undegraded
  cases status <;> decide

theorem undegraded_of_obligations {decision : ContractDecision} (accepted : Accepted inputs)
    (evaluated : evaluate inputs = .ok decision)
    (none : ∀ a ∈ decision.obligations, a.status ≠ .degraded) : Undegraded decision := by
  have reports := evaluate_reports accepted evaluated
  refine ⟨none, ?_, ?_⟩
  · rw [reports.degradations, degradations, List.filter_eq_nil_iff.mpr, List.map_nil, List.take_nil]
    intro a mem
    rw [beq_iff_eq]
    exact none a mem
  · intro degraded
    rw [reports.outcome] at degraded
    have reached : (findings inputs).outcome ≤ supportedDegraded := by rw [degraded]; decide
    have clear := (findings_le (by decide)).mp reached
    have lower : (findings inputs).outcome ≤ supported := by
      refine (findings_le (by decide)).mpr ⟨clear.accepted, clear.unconflicted, clear.consistent,
        clear.current, clear.bounded, fun a mem => outcome_le_supported (clear.met a mem) ?_⟩
      apply none
      rw [reports.obligations]
      exact List.mem_map_of_mem mem
    rw [degraded] at lower
    exact absurd lower (by decide)

theorem eq_of_pushed {klass : QoSClass} {policy : Policy} {item : ObligationPlan}
    (mem : item ∈ pushedPlan klass policy) :
    (item.kind = .disjointPaths → item = plain .disjointPaths klass.minDisjointPaths.toUInt64) ∧
      (item.kind = .resourceState → item = plain .resourceState stateAvailable) := by
  have pushed := mem_pushedPlan.mp mem
  constructor
  · intro kind
    rw [kind] at pushed
    exact List.mem_singleton.mp pushed
  · intro kind
    rw [kind] at pushed
    exact List.mem_singleton.mp pushed

theorem assessGist_degraded_iff (accepted : Accepted inputs)
    (shut : permittedWindow inputs.klass inputs.policy = 0) {item : ObligationPlan}
    (planned : item ∈ buildPlan inputs.klass inputs.policy) :
    (assessGist inputs (buildPlan inputs.klass inputs.policy) (resolve inputs) item).status =
        .degraded ↔
      degradationPermitted inputs.klass inputs.policy = true ∧
        (item.kind = .disjointPaths ∧ ThinlyReported inputs ∨
          item.kind = .resourceState ∧ DeclaredDegraded inputs) := by
  have pushed := (mem_pushedPlan_iff (validateQoSClass_ok accepted.klass)
    (validatePolicy_ok accepted.policy)).mpr (.inl planned)
  have ordinary := ordinaryGist_undegraded accepted shut planned
    ((resolve inputs).map Resolution.status) (scratch inputs (resolve inputs) item)
  unfold assessGist
  cases kind : item.kind
  case disjointPaths =>
    have same := (eq_of_pushed pushed).1 kind
    simpa [same, plain] using diversityGist_degraded_iff accepted shut
  case resourceState =>
    have same := (eq_of_pushed pushed).2 kind
    rw [stateGist_degraded_iff kind]
    constructor
    · rintro ⟨permitted, resolved, degraded⟩
      exact ⟨permitted, .inr ⟨rfl, same ▸ planned, resolved, degraded⟩⟩
    · rintro ⟨permitted, thin | declared⟩
      · cases thin.1
      · exact ⟨permitted, declared.2.resolved, declared.2.degraded⟩
  all_goals simp [ordinary]

theorem diversity_mem_buildPlan (accepted : Accepted inputs) :
    plain .disjointPaths inputs.klass.minDisjointPaths.toUInt64 ∈
      buildPlan inputs.klass inputs.policy := by
  apply mem_buildPlan (validateQoSClass_ok accepted.klass) (validatePolicy_ok accepted.policy)
  · exact mem_pushedPlan.mpr (by simp [plain, pushedOf, push])
  · show ObligationKind.disjointPaths ∈ pathKinds
    decide

/-- No obligation is degraded when degradation is forbidden, unless a permission without a window is
taken for a window by one of the two branches that do not look. -/
theorem undegraded_iff {decision : ContractDecision} (accepted : Accepted inputs)
    (forbidden : Forbidden inputs.klass inputs.policy)
    (evaluated : evaluate inputs = .ok decision) :
    Undegraded decision ↔ ¬(degradationPermitted inputs.klass inputs.policy = true ∧
      (DeclaredDegraded inputs ∨ ThinlyReported inputs)) := by
  have shut := forbidden_iff.mp forbidden
  have reports := evaluate_reports accepted evaluated
  have judged (item : ObligationPlan) (planned : item ∈ buildPlan inputs.klass inputs.policy) :=
    assessGist_degraded_iff accepted shut planned
  have status (item : ObligationPlan) : (assess inputs (buildPlan inputs.klass inputs.policy)
      (resolve inputs) item).assessment.status = (assessGist inputs
        (buildPlan inputs.klass inputs.policy) (resolve inputs) item).status :=
    congrArg Gist.status (assess_gist _ _ item)
  have degraded : (∀ a ∈ decision.obligations, a.status ≠ .degraded) ↔
      ∀ item ∈ buildPlan inputs.klass inputs.policy,
        ¬(degradationPermitted inputs.klass inputs.policy = true ∧
          (item.kind = .disjointPaths ∧ ThinlyReported inputs ∨
            item.kind = .resourceState ∧ DeclaredDegraded inputs)) := by
    rw [reports.obligations]
    simp only [assessAll, List.forall_mem_map]
    exact forall₂_congr fun item planned => not_congr (by rw [status, judged item planned])
  constructor
  · rintro undegraded ⟨permitted, declared | thin⟩
    · exact degraded.mp undegraded.obligations _ declared.planned ⟨permitted, .inr ⟨rfl, declared⟩⟩
    · exact degraded.mp undegraded.obligations _ (diversity_mem_buildPlan accepted)
        ⟨permitted, .inl ⟨rfl, thin⟩⟩
  · intro clear
    apply undegraded_of_obligations accepted evaluated
    rw [degraded]
    rintro item - ⟨permitted, thin | declared⟩
    · exact clear ⟨permitted, .inr thin.2⟩
    · exact clear ⟨permitted, .inl declared.2⟩

/-- The policy permits degradation under a ceiling of zero, and the one resource is degraded. -/
def windowlessInputs : EvaluationInputs :=
  { plainInputs with
    klass := { plainClass with allowDegrade := true, degradeMaxRelaxationPpm := 100000 }
    policy := { plainPolicy with degradePermitted := true }
    capabilities := [some { plainCapability with state := .degraded }] }

theorem windowlessInputs_accepted : Accepted windowlessInputs := by
  rw [← intake_le (show ¬Outcome.rejected ≤ .supported by decide)]
  decide +kernel

theorem windowlessInputs_forbidden : Forbidden windowlessInputs.klass windowlessInputs.policy :=
  .inr (.inr (.inr (.inr rfl)))

theorem undegraded_iff_windowless : ∃ decision, evaluate windowlessInputs = .ok decision ∧
    (Undegraded decision ↔
      ¬(degradationPermitted windowlessInputs.klass windowlessInputs.policy = true ∧
        (DeclaredDegraded windowlessInputs ∨ ThinlyReported windowlessInputs))) := by
  obtain ⟨decision, evaluated⟩ := evaluate_ok windowlessInputs
  exact ⟨decision, evaluated,
    undegraded_iff windowlessInputs_accepted windowlessInputs_forbidden evaluated⟩

theorem windowless_degrades : ¬∀ inputs decision, Accepted inputs →
    Forbidden inputs.klass inputs.policy → evaluate inputs = .ok decision → Undegraded decision := by
  intro holds
  obtain ⟨decision, evaluated⟩ := evaluate_ok windowlessInputs
  have undegraded := holds windowlessInputs decision windowlessInputs_accepted
    windowlessInputs_forbidden evaluated
  apply undegraded.outcome
  rw [(evaluate_reports windowlessInputs_accepted evaluated).outcome]
  decide +kernel

end QoSFabric.Proof.Engine
