import QoSFabric.Proof.Engine.Accounting
import Mathlib.Data.List.MinMax

/-!
# Binding obligations

A verdict that rests on evidence names the obligation that makes it, except for one: authority that
has been superseded makes the verdict stale although no obligation is.
-/

namespace QoSFabric.Proof.Engine

open Outcome

variable {inputs : EvaluationInputs} {decision : ContractDecision}
  {obligations : List ObligationAssessment} {status : ObligationStatus}

theorem selectBest_eq_argmin (rank : ObligationAssessment → ℕ)
    (obligations : List ObligationAssessment) (status : ObligationStatus) :
    selectBest (fun a b => rank a < rank b) obligations status =
      (obligations.filter (·.status == status)).argmin rank := by
  unfold selectBest List.argmin
  rw [List.foldl_filter]
  congr 1
  funext best a
  by_cases same : a.status = status
  · rw [if_neg (not_not.mpr same), if_pos (beq_iff_eq.mpr same)]
    cases best with
    | none => rfl
    | some b =>
        unfold List.argAux
        dsimp only
        simp only [decide_eq_true_eq]
  · rw [if_pos same, if_neg (by rwa [beq_iff_eq])]

theorem selectBest_eq_argmax (rank : ObligationAssessment → ℕ)
    (obligations : List ObligationAssessment) (status : ObligationStatus) :
    selectBest (fun a b => rank a > rank b) obligations status =
      (obligations.filter (·.status == status)).argmax rank := by
  unfold selectBest List.argmax
  rw [List.foldl_filter]
  congr 1
  funext best a
  by_cases same : a.status = status
  · rw [if_neg (not_not.mpr same), if_pos (beq_iff_eq.mpr same)]
    cases best with
    | none => rfl
    | some b =>
        unfold List.argAux
        dsimp only
        simp only [decide_eq_true_eq, gt_iff_lt]
  · rw [if_pos same, if_neg (by rwa [beq_iff_eq])]

theorem mem_filter_status {a : ObligationAssessment} :
    a ∈ obligations.filter (·.status == status) ↔ a ∈ obligations ∧ a.status = status := by
  rw [List.mem_filter, beq_iff_eq]

theorem leastHeadroom (obligations : List ObligationAssessment) (status : ObligationStatus) :
    selectBest (fun a b => a.headroomPpm < b.headroomPpm) obligations status =
      (obligations.filter (·.status == status)).argmin fun a => a.headroomPpm.toNat := by
  rw [← selectBest_eq_argmin]
  congr 1

theorem largestRelaxation (obligations : List ObligationAssessment) (status : ObligationStatus) :
    selectBest (fun a b => a.relaxationAppliedPpm > b.relaxationAppliedPpm) obligations status =
      (obligations.filter (·.status == status)).argmax fun a => a.relaxationAppliedPpm.toNat := by
  rw [← selectBest_eq_argmax]
  congr 1

/-- The obligation a verdict comes from: it has a status that alone yields the outcome and, of those
with its status, the least headroom or the largest relaxation. -/
structure Binds (obligations : List ObligationAssessment) (outcome : Outcome)
    (a : ObligationAssessment) : Prop where
  mem : a ∈ obligations
  status : a.status.outcome = outcome
  headroom : outcome = .supported → ∀ b ∈ obligations, b.status = a.status →
    a.headroomPpm ≤ b.headroomPpm
  relaxation : outcome = .supportedDegraded → ∀ b ∈ obligations, b.status = a.status →
    b.relaxationAppliedPpm ≤ a.relaxationAppliedPpm

theorem Binds.of_status {outcome : Outcome} {a : ObligationAssessment} (mem : a ∈ obligations)
    (status : a.status.outcome = outcome) (negative : outcome.isPositive = false) :
    Binds obligations outcome a where
  mem := mem
  status := status
  headroom supported := by
    rw [supported] at negative
    cases negative
  relaxation degraded := by
    rw [degraded] at negative
    cases negative

theorem select_binds {outcome : Outcome} {a : ObligationAssessment}
    (negative : outcome.isPositive = false) (yields : status.outcome = outcome)
    (found : select obligations status = some a) : Binds obligations outcome a := by
  unfold select at found
  have same : a.status = status := by simpa using List.find?_some found
  exact .of_status (List.mem_of_find?_eq_some found) (same ▸ yields) negative

theorem select_isSome {a : ObligationAssessment} (mem : a ∈ obligations) (same : a.status = status) :
    ∃ b, select obligations status = some b := by
  rw [← Option.isSome_iff_exists, select, List.find?_isSome]
  exact ⟨a, mem, beq_iff_eq.mpr same⟩

theorem bindingObligation_binds {outcome : Outcome} {a : ObligationAssessment}
    (found : bindingObligation outcome obligations = some a) : Binds obligations outcome a := by
  unfold bindingObligation at found
  split at found
  · exact select_binds rfl rfl found
  · rcases Option.or_eq_some_iff.mp found with first | ⟨-, second⟩
    · exact select_binds rfl rfl first
    · exact select_binds rfl rfl second
  · exact select_binds rfl rfl found
  · rw [largestRelaxation] at found
    obtain ⟨mem, same⟩ := mem_filter_status.mp (List.argmax_mem found)
    refine ⟨mem, by rw [same]; rfl, nofun, fun _ b other alike => ?_⟩
    rw [UInt32.le_iff_toNat_le]
    exact List.le_of_mem_argmax (f := fun a : ObligationAssessment => a.relaxationAppliedPpm.toNat)
      (mem_filter_status.mpr ⟨other, alike.trans same⟩) found
  · rw [leastHeadroom] at found
    obtain ⟨mem, same⟩ := mem_filter_status.mp (List.argmin_mem found)
    refine ⟨mem, by rw [same]; rfl, fun _ b other alike => ?_, nofun⟩
    rw [UInt32.le_iff_toNat_le]
    exact List.le_of_mem_argmin (f := fun a : ObligationAssessment => a.headroomPpm.toNat)
      (mem_filter_status.mpr ⟨other, alike.trans same⟩) found
  · cases found
  · cases found

theorem bindingObligation_isSome {a : ObligationAssessment} (mem : a ∈ obligations)
    (applies : a.status ≠ .notApplicable) :
    ∃ b, bindingObligation a.status.outcome obligations = some b := by
  generalize same : a.status = status at applies
  unfold bindingObligation
  cases status with
  | satisfied =>
      dsimp only [ObligationStatus.outcome]
      rw [leastHeadroom, ← Option.isSome_iff_exists, Option.isSome_iff_ne_none, Ne,
        List.argmin_eq_none]
      exact List.ne_nil_of_mem (mem_filter_status.mpr ⟨mem, same⟩)
  | degraded =>
      dsimp only [ObligationStatus.outcome]
      rw [largestRelaxation, ← Option.isSome_iff_exists, Option.isSome_iff_ne_none, Ne,
        List.argmax_eq_none]
      exact List.ne_nil_of_mem (mem_filter_status.mpr ⟨mem, same⟩)
  | violated =>
      obtain ⟨b, found⟩ := select_isSome mem same
      dsimp only [ObligationStatus.outcome]
      rw [found]
      exact ⟨_, Option.or_some⟩
  | unavailable =>
      obtain ⟨b, found⟩ := select_isSome mem same
      dsimp only [ObligationStatus.outcome]
      rw [found]
      exact ⟨b, rfl⟩
  | unknown => exact select_isSome mem same
  | stale => exact select_isSome mem same
  | notApplicable => exact absurd rfl applies

theorem stopping_applies {statuses : List ComponentStatus} :
    stopping statuses ≠ some .notApplicable := by
  unfold stopping
  repeat' split
  all_goals exact nofun

theorem stopping_stale {statuses : List ComponentStatus} :
    stopping statuses = some .stale ↔ .stale ∈ statuses := by
  unfold stopping
  split
  next mem => exact iff_of_true rfl mem
  next fresh =>
    refine iff_of_false ?_ fresh
    repeat' split
    all_goals exact nofun

def Judged (status : ObligationStatus) : Prop :=
  status ≠ .stale ∧ status ≠ .notApplicable

theorem grade_judged {item : ObligationPlan} {value : UInt64} :
    Judged (grade inputs item value) := by
  unfold grade verdict
  split
  · exact ⟨nofun, nofun⟩
  unfold assessShortfall
  dsimp only
  repeat' split
  all_goals exact ⟨nofun, nofun⟩

theorem compositionGist_judged {item : ObligationPlan} {composition : Composition} :
    Judged (compositionGist inputs item composition).status := by
  unfold compositionGist
  split
  · exact ⟨nofun, nofun⟩
  cases composition.value with
  | none => exact ⟨nofun, nofun⟩
  | some value => exact grade_judged

theorem diversityStatus_judged {required count : UInt64} {unproven : Bool} :
    Judged (diversityStatus inputs required count unproven) := by
  unfold diversityStatus
  repeat' split
  all_goals exact ⟨nofun, nofun⟩

theorem assessGist_status (inputs : EvaluationInputs) (plan : List ObligationPlan) (resolutions : List Resolution)
    (item : ObligationPlan) :
    Judged (assessGist inputs plan resolutions item).status ∨
      stopping (resolutions.map Resolution.status) =
        some (assessGist inputs plan resolutions item).status := by
  have ordinary (values : List RawValue) :
      Judged (ordinaryGist inputs item (stopping (resolutions.map Resolution.status)) values).status ∨
      stopping (resolutions.map Resolution.status) = some
        (ordinaryGist inputs item (stopping (resolutions.map Resolution.status)) values).status := by
    cases stopped : stopping (resolutions.map Resolution.status) with
    | some status => exact .inr rfl
    | none =>
        left
        unfold ordinaryGist
        dsimp only
        split
        · exact compositionGist_judged
        · exact ⟨nofun, nofun⟩
  unfold assessGist
  cases item.kind with
  | disjointPaths => exact .inl diversityStatus_judged
  | resourceState =>
      dsimp only
      cases stopped : stopping (resolutions.map Resolution.status) with
      | some status => exact .inr rfl
      | none =>
          left
          unfold stateGist
          dsimp only
          repeat' split
          all_goals exact ⟨nofun, nofun⟩
  | _ => exact ordinary _

theorem obligation_status {a : ObligationAssessment}
    (mem : a ∈ (assessAll inputs).map Assessed.assessment) :
    Judged a.status ∨ stopping ((resolve inputs).map Resolution.status) = some a.status := by
  obtain ⟨assessed, member, rfl⟩ := List.mem_map.mp mem
  obtain ⟨item, -, rfl⟩ := mem_assessAll.mp member
  have status := assessGist_status inputs (buildPlan inputs.klass inputs.policy) (resolve inputs) item
  rw [← assess_gist] at status
  exact status

theorem obligation_applies {a : ObligationAssessment}
    (mem : a ∈ (assessAll inputs).map Assessed.assessment) : a.status ≠ .notApplicable := by
  rcases obligation_status mem with judged | stopped
  · exact judged.2
  · intro inapplicable
    rw [inapplicable] at stopped
    exact stopping_applies stopped

theorem stale_of_obligation {a : ObligationAssessment}
    (mem : a ∈ (assessAll inputs).map Assessed.assessment) (status : a.status = .stale) :
    ∃ r ∈ resolve inputs, r.status = .stale := by
  rcases obligation_status mem with judged | stopped
  · exact absurd status judged.1
  · rw [status, stopping_stale] at stopped
    exact mem_statuses.mp stopped

theorem isolation_mem (accepted : Accepted inputs) :
    ∃ a ∈ (assessAll inputs).map Assessed.assessment,
      ∀ status, stopping ((resolve inputs).map Resolution.status) = some status →
        a.status = status := by
  have item := isolation_mem_buildPlan accepted
  refine ⟨_, List.mem_map_of_mem (mem_assessAll.mpr ⟨_, item, rfl⟩), fun status stopped => ?_⟩
  rw [← blocked_eq_stopping] at stopped
  obtain ⟨⟨status', r⟩, blocked, rfl⟩ := Option.map_eq_some_iff.mp stopped
  simp only [assess, plain, assessOrdinary, blocked, blame]

theorem eq_stale {outcome : Outcome} (high : stale ≤ outcome) (undisputed : outcome ≠ .conflict)
    (admitted : outcome ≠ .rejected) : outcome = stale := by
  revert high undisputed admitted
  cases outcome <;> decide

theorem eq_supported {outcome : Outcome} (low : outcome ≤ supported) : outcome = supported := by
  revert low
  cases outcome <;> decide

theorem status_of_stale {status : ObligationStatus} (yields : status.outcome = stale) :
    status = .stale := by
  revert yields
  cases status <;> decide

theorem conclude_bindingObligation (f : Findings) : (conclude inputs f).bindingObligation =
    (bindingObligation f.outcome ((assessAll inputs).map Assessed.assessment)).map
      ObligationAssessment.kind := rfl

theorem conclude_bindingResource (f : Findings) : (conclude inputs f).bindingResource =
    (bindingObligation f.outcome ((assessAll inputs).map Assessed.assessment)).bind
      ObligationAssessment.bindingResource := rfl

/-- The decision names an obligation that binds its verdict. -/
def NamesBinding (decision : ContractDecision) : Prop :=
  ∃ a, Binds decision.obligations decision.outcome a ∧
    decision.bindingObligation = some a.kind ∧ decision.bindingResource = a.bindingResource

theorem accepted_of_verdict (evaluated : evaluate inputs = .ok decision)
    (verdict : decision.outcome ≠ .rejected) : Accepted inputs := by
  unfold evaluate at evaluated
  split at evaluated
  · cases evaluated
    exact absurd (rejection_outcome _) verdict
  next notRefused =>
    rw [← intake_le (show ¬rejected ≤ conflict by decide)]
    cases outcome : (intake inputs).outcome with
    | rejected => exact absurd outcome notRefused
    | _ => decide

theorem namesBinding_iff (accepted : Accepted inputs) (evaluated : evaluate inputs = .ok decision) :
    NamesBinding decision ↔ ∃ a, bindingObligation (findings inputs).outcome
      ((assessAll inputs).map Assessed.assessment) = some a := by
  have reports := evaluate_reports accepted evaluated
  have named : decision.bindingObligation = (bindingObligation (findings inputs).outcome
      ((assessAll inputs).map Assessed.assessment)).map ObligationAssessment.kind ∧
      decision.bindingResource = (bindingObligation (findings inputs).outcome
        ((assessAll inputs).map Assessed.assessment)).bind ObligationAssessment.bindingResource := by
    rw [evaluate_accepted accepted] at evaluated
    rw [← Except.ok.inj evaluated, conclude_bindingObligation, conclude_bindingResource, findings_eq,
      intake_clean accepted]
    exact ⟨rfl, rfl⟩
  unfold NamesBinding
  rw [reports.outcome, reports.obligations, named.1, named.2]
  constructor
  · rintro ⟨a, -, found, -⟩
    obtain ⟨b, found, -⟩ := Option.map_eq_some_iff.mp found
    exact ⟨b, found⟩
  · rintro ⟨a, found⟩
    rw [found]
    exact ⟨a, bindingObligation_binds found, rfl, rfl⟩

/-- A verdict that is not a conflict or a rejection names the obligation that binds it, except where
only newer authority makes it stale. -/
theorem binding_named_iff (evaluated : evaluate inputs = .ok decision)
    (undisputed : decision.outcome ≠ .conflict) (admitted : decision.outcome ≠ .rejected) :
    NamesBinding decision ↔ Current inputs ∨ ∃ r ∈ resolve inputs, r.status = .stale := by
  have accepted := accepted_of_verdict evaluated admitted
  rw [(evaluate_reports accepted evaluated).outcome] at undisputed admitted
  rw [namesBinding_iff accepted evaluated]
  obtain ⟨finds, worst⟩ := outcome_worst accepted
  have binds : ∀ a ∈ (assessAll inputs).map Assessed.assessment,
      a.status.outcome = (findings inputs).outcome →
      ∃ a, bindingObligation (findings inputs).outcome
        ((assessAll inputs).map Assessed.assessment) = some a := by
    intro a mem yields
    rw [← yields]
    exact bindingObligation_isSome mem (obligation_applies mem)
  constructor
  · rintro ⟨a, found⟩
    by_contra! silent
    obtain ⟨outdated, fresh⟩ := silent
    have outcome := eq_stale (worst _ (.currency outdated)) undisputed admitted
    have binding := bindingObligation_binds found
    obtain ⟨r, mem, status⟩ :=
      stale_of_obligation binding.mem (status_of_stale (binding.status.trans outcome))
    exact fresh r mem status
  · obtain ⟨isolation, mem, stops⟩ := isolation_mem accepted
    have rolled := worst _ (.status mem)
    rintro (current | stale)
    · generalize outcome : (findings inputs).outcome = level at finds
      rw [outcome] at binds undisputed admitted rolled
      cases finds with
      | clean => exact binds isolation mem (eq_supported rolled)
      | status other => exact binds _ other rfl
      | conflict _ => exact absurd rfl undisputed
      | contradiction _ _ => exact absurd rfl undisputed
      | currency outdated => exact absurd current outdated
      | overflow _ _ => exact absurd rfl admitted
    · have status := stops _ (stopping_stale.mpr (mem_statuses.mpr stale))
      rw [status] at rolled
      apply binds isolation mem
      rw [status]
      exact (eq_stale rolled undisputed admitted).symm

/-- Live evidence, under a class that a newer one has superseded. -/
def supersededInputs : EvaluationInputs :=
  { plainInputs with currency := ⟨some 2, none, none⟩ }

theorem superseded_stale : ∃ decision, evaluate supersededInputs = .ok decision ∧
    decision.outcome = stale := by
  obtain ⟨decision, evaluated⟩ := evaluate_ok supersededInputs
  have accepted : Accepted supersededInputs := by
    rw [← intake_le (show ¬rejected ≤ supported by decide)]
    decide +kernel
  refine ⟨decision, evaluated, ?_⟩
  rw [(evaluate_reports accepted evaluated).outcome]
  decide +kernel

theorem binding_named_iff_superseded : ∃ decision, evaluate supersededInputs = .ok decision ∧
    decision.outcome = stale ∧ (NamesBinding decision ↔
      Current supersededInputs ∨ ∃ r ∈ resolve supersededInputs, r.status = .stale) := by
  obtain ⟨decision, evaluated, outcome⟩ := superseded_stale
  exact ⟨decision, evaluated, outcome,
    binding_named_iff evaluated (by rw [outcome]; decide) (by rw [outcome]; decide)⟩

/-- A stale verdict that names no obligation. -/
theorem superseded_unbound : ¬∀ inputs decision, evaluate inputs = .ok decision →
    decision.outcome ≠ .conflict → decision.outcome ≠ .rejected → NamesBinding decision := by
  intro names
  obtain ⟨decision, evaluated, outcome⟩ := superseded_stale
  obtain ⟨a, binds, -⟩ := names supersededInputs decision evaluated (by rw [outcome]; decide)
    (by rw [outcome]; decide)
  have accepted := accepted_of_verdict evaluated (by rw [outcome]; decide)
  have mem := binds.mem
  rw [(evaluate_reports accepted evaluated).obligations] at mem
  obtain ⟨r, member, status⟩ :=
    stale_of_obligation mem (status_of_stale (binds.status.trans outcome))
  exact absurd status
    ((by decide +kernel : ∀ r ∈ resolve supersededInputs, r.status ≠ .stale) r member)

end QoSFabric.Proof.Engine
