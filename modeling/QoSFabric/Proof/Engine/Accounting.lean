import QoSFabric.Proof.Engine.Gist
import QoSFabric.Proof.Engine.Dispute

/-!
# Accounting

A decision assesses every obligation of the plan once and in order, lists and counts what the
assessments say, and its outcome is the worst of everything that was found.
-/

namespace QoSFabric.Proof.Engine

open Outcome

variable {inputs : EvaluationInputs} {decision : ContractDecision} {level : Outcome}

structure Terms where
  kind : ObligationKind
  id : Text
  requiredValue : UInt64
  relaxable : Bool
  direction : CompareDirection
  aggregate : AggregateKind

def terms (a : ObligationAssessment) : Terms :=
  ⟨a.kind, a.id, a.requiredValue, a.relaxable, a.direction, a.aggregate⟩

theorem terms_assessDiversity (plan : List ObligationPlan) (resolutions : List Resolution)
    (item : ObligationPlan) :
    terms (assessDiversity inputs plan resolutions item) = terms item.assessment := by
  unfold assessDiversity
  dsimp only
  repeat' split
  all_goals rfl

theorem terms_assessState (resolutions : List Resolution) (item : ObligationPlan) :
    terms (assessState inputs resolutions item) = terms item.assessment := by
  unfold assessState
  dsimp only
  repeat' split
  all_goals rfl

theorem terms_assessShortfall (a : ObligationAssessment) (composed : UInt64) :
    terms (assessShortfall inputs a composed) = terms a := by
  unfold assessShortfall
  dsimp only
  repeat' split
  all_goals rfl

theorem terms_assessOrdinary (resolutions : List Resolution) (item : ObligationPlan) :
    terms (assessOrdinary inputs resolutions item).assessment = terms item.assessment := by
  unfold assessOrdinary assessComposition
  dsimp only
  repeat' split
  all_goals first
    | rfl
    | exact terms_assessShortfall _ _

theorem terms_assess (plan : List ObligationPlan) (resolutions : List Resolution)
    (item : ObligationPlan) :
    terms (assess inputs plan resolutions item).assessment = terms item.assessment := by
  unfold assess
  split
  · exact terms_assessDiversity plan resolutions item
  · exact terms_assessState resolutions item
  · exact terms_assessOrdinary resolutions item

def Precedes (a b : ObligationAssessment) : Prop :=
  a.kind.value < b.kind.value ∨ a.kind = b.kind ∧ a.id < b.id

theorem precedes_of_planLess {a b : ObligationPlan} (less : planLess a b = true) :
    Precedes a.assessment b.assessment := by
  unfold planLess at less
  split at less
  · exact .inl (of_decide_eq_true less)
  next same => exact .inr ⟨not_not.mp same, of_decide_eq_true less⟩

theorem precedes_congr {a b a' b' : ObligationAssessment} (first : terms a' = terms a)
    (second : terms b' = terms b) (precedes : Precedes a b) : Precedes a' b' := by
  have kind := congrArg Terms.kind first
  have kind' := congrArg Terms.kind second
  have id := congrArg Terms.id first
  have id' := congrArg Terms.id second
  dsimp only [terms] at kind kind' id id'
  unfold Precedes
  rw [kind, kind', id, id']
  exact precedes

theorem derived_eq (accepted : Accepted inputs) :
    deriveObligations inputs.klass inputs.policy =
      .ok ((buildPlan inputs.klass inputs.policy).map ObligationPlan.assessment) := by
  unfold deriveObligations
  rw [accepted.klass, accepted.policy]
  rfl

theorem terms_obligations :
    ((assessAll inputs).map Assessed.assessment).map terms =
      ((buildPlan inputs.klass inputs.policy).map ObligationPlan.assessment).map terms := by
  unfold assessAll
  rw [List.map_map, List.map_map, List.map_map]
  exact List.map_congr_left fun item _ => terms_assess _ _ item

theorem obligations_pairwise (accepted : Accepted inputs) :
    ((assessAll inputs).map Assessed.assessment).Pairwise Precedes := by
  have sorted := (pushedPlan_pairwise (validateQoSClass_ok accepted.klass)
    (validatePolicy_ok accepted.policy)).sublist (List.take_sublist Limits.maxObligations _)
  rw [← buildPlan_eq (validateQoSClass_ok accepted.klass) (validatePolicy_ok accepted.policy)]
    at sorted
  unfold assessAll
  rw [List.pairwise_map, List.pairwise_map]
  exact sorted.imp fun less =>
    precedes_congr (terms_assess _ _ _) (terms_assess _ _ _) (precedes_of_planLess less)

theorem assessOrdinary_degraded {resolutions : List Resolution} {item : ObligationPlan}
    (degraded : (assessOrdinary inputs resolutions item).assessment.status = .degraded) :
    item.kind.relaxable = true := by
  revert degraded
  unfold assessOrdinary
  cases stopped : blocked resolutions with
  | some finding =>
      intro degraded
      have low := blocked_status stopped
      rw [show finding.1 = .degraded from degraded] at low
      exact absurd (show ObligationStatus.degraded.outcome ≤ supportedDegraded by decide) low
  | none =>
      dsimp only
      split
      · exact nofun
      unfold assessComposition
      dsimp only
      split
      · exact nofun
      split
      · exact nofun
      split
      · exact nofun
      dsimp only
      unfold assessShortfall
      dsimp only
      split
      · exact nofun
      next relaxable =>
        intro _
        have relaxable' : ¬(!item.kind.relaxable) = true := relaxable
        simpa using relaxable'

theorem assess_degraded {plan : List ObligationPlan} {resolutions : List Resolution}
    {item : ObligationPlan}
    (degraded : (assess inputs plan resolutions item).assessment.status = .degraded) :
    item.kind ≠ .predicate := by
  intro predicate
  have ordinary : Ordinary item.kind := by
    rw [predicate]
    exact ⟨by decide, by decide⟩
  rw [assess_ordinary ordinary] at degraded
  have relaxable := assessOrdinary_degraded degraded
  rw [predicate] at relaxable
  cases relaxable

theorem unpredicated_le (accepted : Accepted inputs) :
    (buildPlan inputs.klass inputs.policy).countP (·.kind ≠ .predicate) ≤ 15 := by
  rw [buildPlan_eq (validateQoSClass_ok accepted.klass) (validatePolicy_ok accepted.policy)]
  refine Nat.le_trans ((List.take_sublist _ _).countP_le) ?_
  rw [pushedPlan_split, List.countP_append, List.countP_append]
  have predicates : ((mergedPredicates inputs.klass inputs.policy).map predicatePlan).countP
      (·.kind ≠ .predicate) = 0 := by
    rw [List.countP_eq_zero]
    intro item mem
    obtain ⟨key, -, rfl⟩ := List.mem_map.mp mem
    exact fun other => of_decide_eq_true other rfl
  have others := Nat.le_trans (List.countP_le_length (p := (·.kind ≠ .predicate)))
    (length_pathKinds_le inputs.klass inputs.policy)
  have state := List.countP_le_length (p := (·.kind ≠ .predicate))
    (l := [plain .resourceState stateAvailable])
  rw [List.length_singleton] at state
  omega

theorem degradations_eq (accepted : Accepted inputs) :
    degradations ((assessAll inputs).map Assessed.assessment) =
      (((assessAll inputs).map Assessed.assessment).filter (·.status == .degraded)).map
        degradationOf := by
  unfold degradations
  apply List.take_of_length_le
  rw [List.length_map, ← List.countP_eq_length_filter, List.countP_map]
  unfold assessAll
  rw [List.countP_map]
  refine Nat.le_trans (List.countP_mono_left ?_) (Nat.le_trans (unpredicated_le accepted)
    (show 15 ≤ Limits.maxDegradations by decide))
  intro item _ degraded
  exact decide_eq_true (assess_degraded (beq_iff_eq.mp degraded))

theorem violated_toNat (inputs : EvaluationInputs) :
    (countStatus ObligationAssessment.status .violated
      ((assessAll inputs).map Assessed.assessment)).toNat =
      ((assessAll inputs).map Assessed.assessment).countP (·.status == .violated) := by
  have plan : (buildPlan inputs.klass inputs.policy).length ≤ Limits.maxObligations :=
    List.length_take_le _ _
  have count := List.countP_le_length (p := (·.status == .violated))
    (l := (assessAll inputs).map Assessed.assessment)
  unfold assessAll at count
  rw [List.length_map, List.length_map] at count
  exact UInt32.toNat_ofNat_of_lt' (Nat.lt_of_le_of_lt (Nat.le_trans count plan) (by decide))

inductive Finds (inputs : EvaluationInputs) (obligations : List ObligationAssessment) :
    Outcome → Prop where
  | clean : Finds inputs obligations .supported
  | status {a : ObligationAssessment} (mem : a ∈ obligations) :
      Finds inputs obligations a.status.outcome
  | conflict (conflicted : ¬Unconflicted inputs) : Finds inputs obligations .conflict
  | contradiction {r : Resolution} (mem : r ∈ resolve inputs)
      (contradicts : r.domainContradiction = true) : Finds inputs obligations .conflict
  | currency (outdated : ¬Current inputs) : Finds inputs obligations .stale
  | overflow {a : Assessed} (mem : a ∈ assessAll inputs) (overflowed : a.overflowed = true) :
      Finds inputs obligations .rejected

theorem conflicts_le_iff {f : Findings} : (conflicts inputs f).outcome ≤ level ↔
    f.outcome ≤ level ∧ (¬Unconflicted inputs → conflict ≤ level) := by
  by_cases reached : conflict ≤ level
  · unfold conflicts
    cases inputs.conflicts.find? (markerApplies inputs) with
    | none => simp only [find_le, reached, implies_true, and_true]
    | some marker => simp only [merge_le, note_outcome, find_le, reached, implies_true, and_true]
  · rw [conflicts_le reached]
    simp only [reached, imp_false, not_not]

theorem currency_le_iff {f : Findings} : (currency inputs f).outcome ≤ level ↔
    f.outcome ≤ level ∧ (¬Current inputs → stale ≤ level) := by
  by_cases reached : stale ≤ level
  · rw [currency_le_of_stale_le reached]
    simp only [reached, implies_true, and_true]
  · rw [currency_le reached]
    simp only [reached, imp_false, not_not]

theorem findings_le_finds (accepted : Accepted inputs) : (findings inputs).outcome ≤ level ↔
    ∀ finding, Finds inputs ((assessAll inputs).map Assessed.assessment) finding →
      finding ≤ level := by
  unfold findings
  dsimp only
  rw [intake_clean accepted]
  simp only [rollUp_le, overflows_le_iff, currency_le_iff, contradictions_le_iff, conflicts_le_iff]
  constructor
  · rintro ⟨⟨⟨⟨⟨clean, conflict⟩, contradiction⟩, currency⟩, overflow⟩, status⟩ finding finds
    cases finds with
    | clean => exact clean
    | status mem => exact status _ mem
    | conflict conflicted => exact conflict conflicted
    | contradiction mem contradicts => exact contradiction _ mem contradicts
    | currency outdated => exact currency outdated
    | overflow mem overflowed => exact overflow _ mem overflowed
  · intro low
    exact ⟨⟨⟨⟨⟨clean_le, fun conflicted => low _ (.conflict conflicted)⟩,
      fun r mem contradicts => low _ (.contradiction mem contradicts)⟩,
      fun outdated => low _ (.currency outdated)⟩,
      fun a mem overflowed => low _ (.overflow mem overflowed)⟩, fun a mem => low _ (.status mem)⟩

theorem exists_below {outcome : Outcome} (worse : outcome ≠ .supported) :
    ∃ level, ¬outcome ≤ level ∧ ∀ finding, finding ≤ outcome → finding ≠ outcome →
      finding ≤ level := by
  cases outcome with
  | supported => exact absurd rfl worse
  | supportedDegraded => exact ⟨.supported, by decide, fun finding => by cases finding <;> decide⟩
  | unknown => exact ⟨.supportedDegraded, by decide, fun finding => by cases finding <;> decide⟩
  | unsupported => exact ⟨.unknown, by decide, fun finding => by cases finding <;> decide⟩
  | stale => exact ⟨.unsupported, by decide, fun finding => by cases finding <;> decide⟩
  | conflict => exact ⟨.stale, by decide, fun finding => by cases finding <;> decide⟩
  | rejected => exact ⟨.conflict, by decide, fun finding => by cases finding <;> decide⟩

theorem outcome_worst (accepted : Accepted inputs) :
    Finds inputs ((assessAll inputs).map Assessed.assessment) (findings inputs).outcome ∧
      ∀ finding, Finds inputs ((assessAll inputs).map Assessed.assessment) finding →
        finding ≤ (findings inputs).outcome := by
  have upper := (findings_le_finds accepted).mp (Outcome.le_refl _)
  refine ⟨?_, upper⟩
  by_contra missing
  by_cases clean : (findings inputs).outcome = .supported
  · rw [clean] at missing
    exact missing .clean
  · obtain ⟨level, above, below⟩ := exists_below clean
    apply above
    rw [findings_le_finds accepted]
    intro finding finds
    exact below finding (upper finding finds) fun same => missing (same ▸ finds)

/-- Every obligation is assessed once, every degradation and violation is accounted for, and the
outcome is the worst of all findings. -/
structure Accounts (inputs : EvaluationInputs) (decision : ContractDecision) : Prop where
  derived : ∃ derived, deriveObligations inputs.klass inputs.policy = .ok derived ∧
    decision.obligations.map terms = derived.map terms
  increasing : decision.obligations.Pairwise Precedes
  degradations : decision.degradations =
    (decision.obligations.filter (·.status == .degraded)).map degradationOf
  violated : decision.violatedObligations.toNat =
    decision.obligations.countP (·.status == .violated)
  finds : Finds inputs decision.obligations decision.outcome
  worst : ∀ finding, Finds inputs decision.obligations finding → finding ≤ decision.outcome

theorem conclude_violated (f : Findings) : (conclude inputs f).violatedObligations =
    countStatus ObligationAssessment.status .violated
      ((assessAll inputs).map Assessed.assessment) := rfl

theorem evaluate_accounts (accepted : Accepted inputs) (evaluated : evaluate inputs = .ok decision) :
    Accounts inputs decision := by
  have reports := evaluate_reports accepted evaluated
  have violated : decision.violatedObligations = countStatus ObligationAssessment.status .violated
      ((assessAll inputs).map Assessed.assessment) := by
    rw [evaluate_accepted accepted] at evaluated
    rw [← Except.ok.inj evaluated, conclude_violated]
  obtain ⟨finds, worst⟩ := outcome_worst accepted
  constructor
  · refine ⟨_, derived_eq accepted, ?_⟩
    rw [reports.obligations, terms_obligations]
  · rw [reports.obligations]
    exact obligations_pairwise accepted
  · rw [reports.degradations, reports.obligations]
    exact degradations_eq accepted
  · rw [violated, reports.obligations]
    exact violated_toNat inputs
  · rw [reports.outcome, reports.obligations]
    exact finds
  · rw [reports.outcome, reports.obligations]
    exact worst

theorem evaluate_accounts_relaxed : ∃ decision, evaluate relaxedInputs = .ok decision ∧
    Accounts relaxedInputs decision := by
  obtain ⟨decision, evaluated⟩ := evaluate_ok relaxedInputs
  exact ⟨decision, evaluated, evaluate_accounts relaxedInputs_accepted evaluated⟩

end QoSFabric.Proof.Engine
