import QoSFabric.Proof.Engine.Conflict
import QoSFabric.Proof.Engine.Diversity

namespace QoSFabric.Proof.Engine

open Outcome

variable {inputs : EvaluationInputs} {markers : List ConflictMarker}
  {decision other : ContractDecision}

def dispute (inputs : EvaluationInputs) (markers : List ConflictMarker) : Option Text :=
  (markers.find? (markerApplies inputs)).map fun marker => shortText (markerText marker)

def Denied (inputs : EvaluationInputs) : Prop := inputs.klass.id ∈ inputs.policy.deniedClasses

def marked (inputs : EvaluationInputs) (markers : List ConflictMarker) : EvaluationInputs :=
  { inputs with conflicts := markers }

theorem resolve_marked : resolve (marked inputs markers) = resolve inputs := rfl

theorem alike_marked : Alike inputs (marked inputs markers) := ⟨rfl, rfl, rfl, rfl⟩

theorem assessOrdinary_marked (resolutions : List Resolution) (item : ObligationPlan) :
    assessOrdinary (marked inputs markers) resolutions item =
      assessOrdinary inputs resolutions item := by
  have composition (composition : Composition) :
      assessComposition (marked inputs markers) resolutions item composition =
        assessComposition inputs resolutions item composition := by
    have shortfall : assessShortfall (marked inputs markers) = assessShortfall inputs := rfl
    unfold assessComposition
    rw [shortfall]
  have values : scratch (marked inputs markers) resolutions item = scratch inputs resolutions item :=
    rfl
  unfold assessOrdinary
  simp only [composition, values]
  rfl

theorem assessAll_marked : assessAll (marked inputs markers) = assessAll inputs := by
  have each (item : ObligationPlan) : assess (marked inputs markers)
      (buildPlan inputs.klass inputs.policy) (resolve inputs) item =
        assess inputs (buildPlan inputs.klass inputs.policy) (resolve inputs) item := by
    have diverse : assessDiversity (marked inputs markers) (buildPlan inputs.klass inputs.policy)
        (resolve inputs) item = assessDiversity inputs (buildPlan inputs.klass inputs.policy)
          (resolve inputs) item := by
      unfold assessDiversity
      rw [alike_marked.diversity]
      rfl
    have state : assessState (marked inputs markers) (resolve inputs) item =
        assessState inputs (resolve inputs) item := rfl
    unfold assess
    rw [diverse, state, assessOrdinary_marked]
  unfold assessAll
  rw [resolve_marked]
  exact List.map_congr_left fun item _ => each item

def proceed (inputs : EvaluationInputs) (f : Findings) : Findings :=
  f |> contradictions (resolve inputs)
    |> currency inputs
    |> overflows (assessAll inputs)
    |> rollUp ((assessAll inputs).map Assessed.assessment)

theorem findings_eq : findings inputs = proceed inputs (conflicts inputs (intake inputs)) := rfl

theorem intake_clean (accepted : Accepted inputs) : intake inputs = .clean := by
  have reservations : (!inputs.reservations.isEmpty &&
      inputs.reservations.length != inputs.path.components.length) = false := by
    cases accepted.reservations with
    | inl none => rw [none]; rfl
    | inr covered => rw [covered, bne_self_eq_false, Bool.and_false]
  unfold intake
  rw [accepted.request, accepted.klass, accepted.policy, accepted.path, accepted.classId,
    accepted.policyId, accepted.pathId, accepted.classPin, accepted.policyPin, accepted.pathPin,
    accepted.capabilities, reservations]
  simp only [Findings.check, Findings.find, bne_self_eq_false, Bool.false_eq_true, if_false]

theorem conflicts_denied (denied : Denied inputs) :
    conflicts inputs .clean =
      ⟨.conflict, shortText (text "policy denies the referenced service class")⟩ := by
  have denies : inputs.policy.deniedClasses.any (· == inputs.klass.id) = true := by
    simpa [Denied] using denied
  unfold conflicts
  rw [denies]
  cases inputs.conflicts.find? (markerApplies inputs) <;> rfl

def disputed : Option Text → Findings
  | none => .clean
  | some reason => ⟨.conflict, reason⟩

theorem conflicts_undenied (allowed : ¬Denied inputs) :
    conflicts inputs .clean = disputed (dispute inputs inputs.conflicts) := by
  have allows : inputs.policy.deniedClasses.any (· == inputs.klass.id) = false := by
    rw [Bool.eq_false_iff]
    simpa [Denied] using allowed
  unfold conflicts dispute
  rw [allows]
  cases inputs.conflicts.find? (markerApplies inputs) <;> rfl

def Equivocal (reason : Text) : Prop := text "equivocated " <+: reason

instance : DecidablePred Equivocal :=
  fun reason => inferInstanceAs (Decidable (text "equivocated " <+: reason))

theorem equivocal_of_dispute {markers : List ConflictMarker} {reason : Text}
    (noted : dispute inputs markers = some reason) :
    Equivocal reason ∧ shortText reason = reason := by
  obtain ⟨marker, -, rfl⟩ := Option.map_eq_some_iff.mp noted
  constructor
  · have within : (text "equivocated ").length ≤ Limits.maxDetailLen := by decide
    unfold Equivocal shortText markerText
    simp only [List.append_assoc]
    exact List.prefix_take_iff.mpr ⟨List.prefix_append _ _, within⟩
  · unfold shortText
    rw [List.take_take, Nat.min_self]

theorem take_of_equivocal {reason : Text} (equivocal : Equivocal (shortText reason)) :
    reason.take 2 = text "eq" := by
  obtain ⟨rest, eq⟩ := equivocal.trans (List.take_prefix _ _)
  rw [← eq, List.take_append_of_le_length (by decide)]
  decide

def Lasting (P : Text → Prop) : Prop :=
  ∀ f : Findings, ∀ reason, reason.take 2 ≠ text "eq" → P f.reason → P (f.note reason).reason

theorem lasting_noted {reason : Text} (noted : reason ≠ []) : Lasting (· = reason) := by
  rintro f other - rfl
  have full : f.reason.isEmpty = false := by simpa using noted
  unfold Findings.note
  rw [full]
  rfl

theorem lasting_other : Lasting fun reason => ¬Equivocal reason := by
  intro f reason other before
  unfold Findings.note
  split
  · exact fun equivocal => other (take_of_equivocal equivocal)
  · exact before

section Phases

variable {P : Text → Prop}

theorem Lasting.find (lasting : Lasting P) {condition : Bool} {outcome : Outcome} {reason : Text}
    (other : reason.take 2 ≠ text "eq") {f : Findings} (holds : P f.reason) :
    P (f.find condition outcome reason).reason := by
  unfold Findings.find
  split
  · exact lasting f reason other holds
  · exact holds

theorem foldl_lasting {α : Type} {step : Findings → α → Findings}
    (keeps : ∀ f a, P f.reason → P (step f a).reason) (items : List α) {f : Findings}
    (holds : P f.reason) : P (items.foldl step f).reason := by
  induction items generalizing f with
  | nil => exact holds
  | cons a items ih => exact ih (keeps f a holds)

theorem contradictions_lasting (lasting : Lasting P) (resolutions : List Resolution) {f : Findings}
    (holds : P f.reason) : P (contradictions resolutions f).reason := by
  unfold contradictions
  refine foldl_lasting (fun f resolution holds => lasting.find ?_ holds) _ holds
  rw [List.take_append_of_le_length (by decide)]
  decide

theorem currency_lasting (lasting : Lasting P) {f : Findings} (holds : P f.reason) :
    P (currency inputs f).reason := by
  unfold currency
  iterate 4 refine lasting.find (by decide) ?_
  exact holds

theorem overflows_lasting (lasting : Lasting P) (assessed : List Assessed) {f : Findings}
    (holds : P f.reason) : P (overflows assessed f).reason := by
  unfold overflows
  exact foldl_lasting (fun f item holds => lasting.find (by decide) holds) _ holds

theorem rollUp_lasting (obligations : List ObligationAssessment) {f : Findings}
    (holds : P f.reason) : P (rollUp obligations f).reason := by
  unfold rollUp
  apply foldl_lasting _ _ holds
  exact fun _ _ kept => kept

theorem Lasting.proceed (lasting : Lasting P) {f : Findings} (holds : P f.reason) :
    P (proceed inputs f).reason :=
  rollUp_lasting _ (overflows_lasting lasting _ (currency_lasting lasting
    (contradictions_lasting lasting _ holds)))

end Phases

theorem proceed_outcome {f : Findings} (disputes : ¬f.outcome ≤ stale) :
    ¬(proceed inputs f).outcome ≤ stale := by
  have rejects : ¬rejected ≤ stale := by decide
  have conflicting : ¬conflict ≤ stale := by decide
  unfold proceed
  rw [rollUp_le_of_stale_le (show stale ≤ stale by decide), overflows_le rejects,
    currency_le_of_stale_le (show stale ≤ stale by decide), contradictions_le conflicting]
  exact fun low => disputes low.1.1

def conclude (inputs : EvaluationInputs) (f : Findings) : ContractDecision :=
  let resolutions := resolve inputs
  let obligations := (assessAll inputs).map Assessed.assessment
  let binding := bindingObligation f.outcome obligations
  let reason := explainBinding binding f.reason
  { draft inputs with
    outcome := f.outcome
    obligations := obligations
    resources := resolutions.map Resolution.assessment
    degradations := degradations obligations
    authority := authority inputs resolutions
    bindingObligation := binding.map ObligationAssessment.kind
    bindingResource := binding.bind ObligationAssessment.bindingResource
    unknownComponents := countStatus Resolution.status .unknown resolutions
    violatedObligations := countStatus ObligationAssessment.status .violated obligations
    unsatisfiedDiversityDomains := unsatisfiedDomains obligations
    primaryReason := if reason.isEmpty then
        (if f.outcome.isPositive then text "all required obligations are satisfied"
          else text "no binding finding")
      else shortText reason }.sealed

theorem evaluate_accepted (accepted : Accepted inputs) :
    evaluate inputs = .ok (conclude inputs (proceed inputs (conflicts inputs .clean))) := by
  have clean := intake_clean accepted
  unfold evaluate
  rw [findings_eq, clean, if_neg (by decide)]
  rfl

theorem conclude_marked (f : Findings) : conclude (marked inputs markers) f = conclude inputs f := by
  unfold conclude
  rw [assessAll_marked, resolve_marked]
  rfl

theorem proceed_marked (f : Findings) : proceed (marked inputs markers) f = proceed inputs f := by
  unfold proceed
  rw [assessAll_marked, resolve_marked]
  rfl

theorem conclude_reason {f : Findings} (high : ¬f.outcome ≤ stale) :
    (conclude inputs f).primaryReason =
      if f.reason.isEmpty then text "no binding finding" else shortText f.reason := by
  have unbound (obligations : List ObligationAssessment) :
      bindingObligation f.outcome obligations = none ∧ f.outcome.isPositive = false := by
    cases outcome : f.outcome with
    | conflict | rejected => exact ⟨rfl, rfl⟩
    | _ =>
        rw [outcome] at high
        exact absurd (by decide) high
  unfold conclude explainBinding
  dsimp only
  rw [(unbound _).1]
  dsimp only
  rw [(unbound []).2]
  rfl

theorem equivocal_short {reason : Text} (equivocal : Equivocal (shortText reason)) :
    Equivocal reason :=
  equivocal.trans (List.take_prefix _ _)

theorem conclude_undisputed (high : ¬(proceed inputs .clean).outcome ≤ stale) :
    ¬Equivocal (conclude inputs (proceed inputs .clean)).primaryReason := by
  have other : ¬Equivocal (proceed inputs .clean).reason := lasting_other.proceed (by decide)
  rw [conclude_reason high]
  split
  · decide
  · exact fun equivocal => other (equivocal_short equivocal)

theorem proceed_disputed (reason : Text) :
    ¬(proceed inputs (disputed (some reason))).outcome ≤ stale :=
  proceed_outcome (show ¬conflict ≤ stale by decide)

theorem conclude_disputed {reason : Text} (equivocal : Equivocal reason)
    (short : shortText reason = reason) :
    (conclude inputs (proceed inputs (disputed (some reason)))).primaryReason = reason := by
  have noted : reason ≠ [] := by
    rintro rfl
    exact absurd equivocal (by decide)
  have kept : (proceed inputs (disputed (some reason))).reason = reason :=
    (lasting_noted noted).proceed rfl
  have full : reason.isEmpty = false := by simpa using noted
  rw [conclude_reason (proceed_disputed reason), kept, full, short]
  rfl

theorem evaluate_marked_iff (accepted : Accepted inputs) (evaluated : evaluate inputs = .ok decision)
    (evaluated' : evaluate (marked inputs markers) = .ok other) :
    other = decision ↔ Denied inputs ∨ dispute inputs markers = dispute inputs inputs.conflicts := by
  have accepted' : Accepted (marked inputs markers) := by
    obtain ⟨h₁, h₂, h₃, h₄, h₅, h₆, h₇, h₈, h₉, h₁₀, h₁₁, h₁₂⟩ := accepted
    exact ⟨h₁, h₂, h₃, h₄, h₅, h₆, h₇, h₈, h₉, h₁₀, h₁₁, h₁₂⟩
  obtain rfl := Except.ok.inj ((evaluate_accepted accepted).symm.trans evaluated)
  obtain rfl := Except.ok.inj ((evaluate_accepted accepted').symm.trans evaluated')
  rw [conclude_marked, proceed_marked]
  by_cases denied : Denied inputs
  · have denied' : Denied (marked inputs markers) := denied
    rw [conflicts_denied denied, conflicts_denied denied']
    exact ⟨fun _ => .inl denied, fun _ => rfl⟩
  have allowed' : ¬Denied (marked inputs markers) := denied
  rw [conflicts_undenied denied, conflicts_undenied allowed']
  have same : dispute (marked inputs markers) (marked inputs markers).conflicts =
    dispute inputs markers := rfl
  rw [same, or_iff_right denied]
  constructor
  · intro equal
    have reasons := congrArg ContractDecision.primaryReason equal
    have outcomes := congrArg ContractDecision.outcome equal
    have outcome (f : Findings) : (conclude inputs f).outcome = f.outcome := rfl
    rw [outcome, outcome] at outcomes
    cases first : dispute inputs inputs.conflicts with
    | none =>
        cases second : dispute inputs markers with
        | none => rfl
        | some reason =>
            obtain ⟨equivocal, short⟩ := equivocal_of_dispute second
            rw [first, second] at reasons outcomes
            have high := @proceed_disputed inputs reason
            rw [conclude_disputed equivocal short] at reasons
            rw [outcomes] at high
            exact absurd (reasons ▸ equivocal) (conclude_undisputed high)
    | some reason =>
        obtain ⟨equivocal, short⟩ := equivocal_of_dispute first
        cases second : dispute inputs markers with
        | none =>
            rw [first, second] at reasons outcomes
            have high := @proceed_disputed inputs reason
            rw [conclude_disputed equivocal short] at reasons
            rw [← outcomes] at high
            exact absurd (reasons ▸ equivocal) (conclude_undisputed high)
        | some reason' =>
            obtain ⟨equivocal', short'⟩ := equivocal_of_dispute second
            rw [first, second] at reasons
            rw [conclude_disputed equivocal short, conclude_disputed equivocal' short'] at reasons
            rw [reasons]
  · intro equal
    rw [equal]

end QoSFabric.Proof.Engine
