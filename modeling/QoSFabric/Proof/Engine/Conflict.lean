import QoSFabric.Proof.Engine.Evidence

namespace QoSFabric.Proof.Engine

open Outcome

variable {inputs : EvaluationInputs}

structure Admissible (inputs : EvaluationInputs) : Prop where
  accepted : Accepted inputs
  bounded : ∀ a ∈ assessAll inputs, ¬a.overflowed = true

def Consistent (inputs : EvaluationInputs) : Prop :=
  ∀ r ∈ resolve inputs, ¬r.domainContradiction = true

theorem assessComposition_overflowed {resolutions : List Resolution} {item : ObligationPlan}
    {composition : Composition} :
    (assessComposition inputs resolutions item composition).overflowed = composition.overflow := by
  unfold assessComposition
  cases overflow : composition.overflow with
  | true => rfl
  | false =>
      rw [if_neg Bool.false_ne_true]
      cases composition.value with
      | none => rfl
      | some composed =>
          dsimp only
          split <;> rfl

theorem assess_overflowed_congr {inputs' : EvaluationInputs} {plan : List ObligationPlan}
    {resolutions : List Resolution} {item : ObligationPlan}
    (values : scratch inputs' resolutions item = scratch inputs resolutions item)
    (path : inputs'.path = inputs.path) :
    (assess inputs' plan resolutions item).overflowed =
      (assess inputs plan resolutions item).overflowed := by
  have ordinary : (assessOrdinary inputs' resolutions item).overflowed =
      (assessOrdinary inputs resolutions item).overflowed := by
    unfold assessOrdinary
    rw [values, path]
    cases blocked resolutions with
    | some finding => rfl
    | none =>
        dsimp only
        cases (scratch inputs resolutions item).findIdx? (!·.present) with
        | some i => rfl
        | none =>
            dsimp only
            rw [assessComposition_overflowed, assessComposition_overflowed]
  unfold assess
  cases item.kind with
  | disjointPaths => rfl
  | resourceState => rfl
  | _ => exact ordinary

theorem status_outcome_le_stale (status : ObligationStatus) : status.outcome ≤ stale := by
  cases status <;> decide

theorem rollUp_le_of_stale_le {level : Outcome} {obligations : List ObligationAssessment}
    {f : Findings} (high : stale ≤ level) :
    (rollUp obligations f).outcome ≤ level ↔ f.outcome ≤ level := by
  rw [rollUp_le]
  exact and_iff_left fun a _ => Outcome.le_trans (status_outcome_le_stale a.status) high

theorem currency_le_of_stale_le {level : Outcome} {f : Findings} (high : stale ≤ level) :
    (currency inputs f).outcome ≤ level ↔ f.outcome ≤ level := by
  simp only [currency, find_le, high, implies_true, and_true]

theorem conflicts_le_conflict {f : Findings} :
    (conflicts inputs f).outcome ≤ conflict ↔ f.outcome ≤ conflict := by
  have reached : conflict ≤ conflict := by decide
  unfold conflicts
  cases inputs.conflicts.find? (markerApplies inputs) with
  | none => simp only [find_le, reached, implies_true, and_true]
  | some marker => simp only [merge_le, note_outcome, find_le, reached, implies_true, and_true]

theorem contradictions_le_conflict {resolutions : List Resolution} {f : Findings} :
    (contradictions resolutions f).outcome ≤ conflict ↔ f.outcome ≤ conflict := by
  have reached : conflict ≤ conflict := by decide
  have step : ∀ (f : Findings) (r : Resolution),
      (f.find r.domainContradiction .conflict
        (text "failure-domain contradiction for resource " ++ r.resource)).outcome ≤ conflict ↔
      f.outcome ≤ conflict ∧ True := by
    intro f r
    simp only [find_le, reached, implies_true]
  rw [contradictions, foldl_le step]
  exact and_iff_left fun _ _ => trivial

theorem findings_le_conflict : (findings inputs).outcome ≤ conflict ↔ Admissible inputs := by
  have rejects : ¬rejected ≤ conflict := by decide
  simp only [findings, rollUp_le_of_stale_le (show stale ≤ conflict by decide),
    overflows_le rejects, currency_le_of_stale_le (show stale ≤ conflict by decide),
    contradictions_le_conflict, conflicts_le_conflict, intake_le rejects]
  exact ⟨fun h => ⟨h.1, h.2⟩, fun h => ⟨h.accepted, h.bounded⟩⟩

theorem findings_le_stale : (findings inputs).outcome ≤ stale ↔
    Admissible inputs ∧ Unconflicted inputs ∧ Consistent inputs := by
  have rejects : ¬rejected ≤ stale := by decide
  have conflicting : ¬conflict ≤ stale := by decide
  simp only [findings, rollUp_le_of_stale_le (show stale ≤ stale by decide),
    overflows_le rejects, currency_le_of_stale_le (show stale ≤ stale by decide),
    contradictions_le conflicting, conflicts_le conflicting, intake_le rejects]
  constructor
  · rintro ⟨⟨⟨accepted, unconflicted⟩, consistent⟩, bounded⟩
    exact ⟨⟨accepted, bounded⟩, unconflicted, consistent⟩
  · rintro ⟨⟨accepted, bounded⟩, unconflicted, consistent⟩
    exact ⟨⟨⟨accepted, unconflicted⟩, consistent⟩, bounded⟩

theorem eq_conflict_iff {outcome : Outcome} :
    outcome = conflict ↔ outcome ≤ conflict ∧ ¬outcome ≤ stale := by
  cases outcome <;> decide

theorem evaluate_conflict {decision : ContractDecision} (evaluated : evaluate inputs = .ok decision) :
    decision.outcome = conflict ↔
      Admissible inputs ∧ ¬(Unconflicted inputs ∧ Consistent inputs) := by
  unfold evaluate at evaluated
  split at evaluated
  · next refused =>
      have rejects : ¬rejected ≤ conflict := by decide
      have notAccepted : ¬Accepted inputs := by
        rwa [← intake_le rejects, refused]
      cases evaluated
      rw [rejection_outcome]
      exact iff_of_false (by decide) fun disputed => notAccepted disputed.1.accepted
  · cases evaluated
    rw [sealed_outcome]
    dsimp only
    rw [eq_conflict_iff, findings_le_conflict, findings_le_stale]
    constructor
    · rintro ⟨admissible, undisputed⟩
      exact ⟨admissible, fun clean => undisputed ⟨admissible, clean⟩⟩
    · rintro ⟨admissible, disputed⟩
      exact ⟨admissible, fun clean => disputed clean.2⟩

end QoSFabric.Proof.Engine
