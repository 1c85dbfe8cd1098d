import QoSFabric.Proof.Engine.Diversity
import QoSFabric.Proof.Engine.Relaxation

namespace QoSFabric.Proof.Engine

open Outcome

variable {inputs : EvaluationInputs}

structure Gist where
  status : ObligationStatus
  composed : Option UInt64
  overflowed : Bool
  deriving DecidableEq

def gist (a : Assessed) : Gist :=
  ⟨a.assessment.status, a.assessment.composedValue, a.overflowed⟩

def grade (inputs : EvaluationInputs) (item : ObligationPlan) (value : UInt64) : ObligationStatus :=
  (verdict inputs item.assessment value).status

def compositionGist (inputs : EvaluationInputs) (item : ObligationPlan) (composition : Composition) :
    Gist :=
  if composition.overflow then ⟨.unknown, none, true⟩
  else match composition.value with
    | none => ⟨.unknown, none, false⟩
    | some value => ⟨grade inputs item value, some value, false⟩

def ordinaryGist (inputs : EvaluationInputs) (item : ObligationPlan)
    (stopped : Option ObligationStatus) (values : List RawValue) : Gist :=
  match stopped with
  | some status => ⟨status, none, false⟩
  | none =>
      if ∀ v ∈ values, v.present = true then
        compositionGist inputs item
          (composeValues item.kind.aggregate values (fixedOverhead inputs.path item.kind))
      else ⟨.unknown, none, false⟩

def stopping (statuses : List ComponentStatus) : Option ObligationStatus :=
  if .stale ∈ statuses then some .stale
  else if .unavailable ∈ statuses ∨ .violated ∈ statuses then some .unavailable
  else if .unknown ∈ statuses then some .unknown
  else none

theorem mem_statuses {status : ComponentStatus} {resolutions : List Resolution} :
    status ∈ resolutions.map Resolution.status ↔ ∃ r ∈ resolutions, r.status = status :=
  List.mem_map

theorem blocked_eq_stopping (resolutions : List Resolution) :
    (blocked resolutions).map Prod.fst = stopping (resolutions.map Resolution.status) := by
  unfold blocked stopping
  cases stale : resolutions.reverse.find? (·.status == .stale) with
  | some r =>
      have member := List.mem_reverse.mp (List.mem_of_find?_eq_some stale)
      have status := List.find?_some stale
      rw [if_pos (mem_statuses.mpr ⟨r, member, beq_iff_eq.mp status⟩)]
      rfl
  | none =>
      rw [List.find?_eq_none] at stale
      rw [if_neg]
      swap
      · rintro mem
        obtain ⟨r, member, status⟩ := mem_statuses.mp mem
        exact stale r (List.mem_reverse.mpr member) (beq_iff_eq.mpr status)
      cases lost : resolutions.find? fun r => r.status == .unavailable || r.status == .violated with
      | some r =>
          have member := List.mem_of_find?_eq_some lost
          have status := List.find?_some lost
          rw [Bool.or_eq_true, beq_iff_eq, beq_iff_eq] at status
          rw [if_pos (status.imp (fun h => mem_statuses.mpr ⟨r, member, h⟩)
            (fun h => mem_statuses.mpr ⟨r, member, h⟩))]
          rfl
      | none =>
          rw [List.find?_eq_none] at lost
          rw [if_neg]
          swap
          · simp only [mem_statuses]
            rintro (⟨r, member, status⟩ | ⟨r, member, status⟩)
            · exact lost r member (by simp [status])
            · exact lost r member (by simp [status])
          cases unknown : resolutions.find? (·.status == .unknown) with
          | some r =>
              have member := List.mem_of_find?_eq_some unknown
              have status := List.find?_some unknown
              rw [if_pos (mem_statuses.mpr ⟨r, member, beq_iff_eq.mp status⟩)]
              rfl
          | none =>
              rw [List.find?_eq_none] at unknown
              rw [if_neg]
              · rfl
              · rintro mem
                obtain ⟨r, member, status⟩ := mem_statuses.mp mem
                exact unknown r member (beq_iff_eq.mpr status)

theorem stopping_eq_none {resolutions : List Resolution} :
    stopping (resolutions.map Resolution.status) = none ↔
      ∀ r ∈ resolutions, Resolution.Resolved r := by
  rw [← blocked_eq_stopping, Option.map_eq_none_iff, blocked_eq_none]

theorem assessShortfall_status {a b : ObligationAssessment} {value : UInt64}
    (relaxable : a.relaxable = b.relaxable) (direction : a.direction = b.direction)
    (required : a.requiredValue = b.requiredValue) :
    (assessShortfall inputs a value).status = (assessShortfall inputs b value).status := by
  unfold assessShortfall
  dsimp only
  rw [relaxable, direction, required]
  split
  · rfl
  split
  · rfl
  cases relaxationDelta b.requiredValue (relaxationWindow inputs.klass inputs.policy) with
  | none => rfl
  | some delta =>
      dsimp only
      split
      · rfl
      split <;> rfl

theorem assessComposition_gist {resolutions : List Resolution} {item : ObligationPlan}
    {composition : Composition} :
    gist (assessComposition inputs resolutions item composition) =
      compositionGist inputs item composition := by
  unfold assessComposition compositionGist
  dsimp only
  split
  · rfl
  cases composition.value with
  | none => rfl
  | some value =>
      dsimp only
      unfold grade verdict
      split
      · rfl
      · unfold gist
        rw [assessShortfall_composedValue]
        exact congrArg (Gist.mk · (some value) false) (assessShortfall_status rfl rfl rfl)

theorem assessOrdinary_gist {resolutions : List Resolution} {item : ObligationPlan} :
    gist (assessOrdinary inputs resolutions item) =
      ordinaryGist inputs item (stopping (resolutions.map Resolution.status))
        (scratch inputs resolutions item) := by
  rw [← blocked_eq_stopping]
  unfold assessOrdinary ordinaryGist
  cases blocked resolutions with
  | some finding => rfl
  | none =>
      dsimp only [Option.map_none]
      cases missing : (scratch inputs resolutions item).findIdx? (!·.present) with
      | some index =>
          obtain ⟨bound, absent, -⟩ := List.findIdx?_eq_some_iff_getElem.mp missing
          rw [if_neg]
          · rfl
          · intro present
            have here := present _ (List.getElem_mem bound)
            simp [here] at absent
      | none =>
          rw [if_pos]
          · exact assessComposition_gist
          · intro v mem
            simpa using List.findIdx?_eq_none_iff.mp missing v mem

theorem compositionGist_overflow {item : ObligationPlan} {composition : Composition}
    (overflow : composition.overflow = true) :
    compositionGist inputs item composition = ⟨.unknown, none, true⟩ := by
  unfold compositionGist
  rw [if_pos overflow]

theorem compositionGist_value {item : ObligationPlan} {composition : Composition} {value : UInt64}
    (bounded : composition.overflow = false) (total : composition.value = some value) :
    compositionGist inputs item composition = ⟨grade inputs item value, some value, false⟩ := by
  unfold compositionGist
  rw [bounded, if_neg Bool.false_ne_true, total]

theorem composePresent_some {kind : ObligationKind} (ordinary : Ordinary kind)
    (first fixed : UInt64) (rest : List UInt64) :
    (composePresent kind.aggregate first rest fixed).overflow = true ∨
      ∃ value, (composePresent kind.aggregate first rest fixed).value = some value := by
  have total {result : Option UInt64} {position : Nat} {overflow : String} :
      (Composition.ofTotal result position overflow).overflow = true ∨
        ∃ value, (Composition.ofTotal result position overflow).value = some value := by
    cases result with
    | none => exact .inl rfl
    | some value => exact .inr ⟨value, rfl⟩
  have single {value : UInt64} {position : Nat} : (Composition.ofValue value position).overflow = true ∨
      ∃ v, (Composition.ofValue value position).value = some v := .inr ⟨value, rfl⟩
  cases kind
  case disjointPaths => exact absurd rfl ordinary.1
  case resourceState => exact absurd rfl ordinary.2
  case latency | jitter | loss =>
    simp only [ObligationKind.aggregate, composePresent]
    exact total
  all_goals
    simp only [ObligationKind.aggregate, composePresent]
    exact single

def diversityGist (inputs : EvaluationInputs) (required : UInt64) (count : Nat) (unproven : Bool) :
    Gist :=
  ⟨diversityStatus inputs required (UInt64.ofNat count) unproven, some (UInt64.ofNat count), false⟩

def stateGist (inputs : EvaluationInputs) (stopped : Option ObligationStatus) (worst : UInt64)
    (degradedSeen : Bool) : Gist :=
  match stopped with
  | some status => ⟨status, none, false⟩
  | none =>
      ⟨if worst ≥ stateAvailable then .satisfied
        else if degradationPermitted inputs.klass inputs.policy && degradedSeen then .degraded
        else .violated, some worst, false⟩

theorem assessDiversity_composed {plan : List ObligationPlan} {resolutions : List Resolution}
    {item : ObligationPlan} :
    (assessDiversity inputs plan resolutions item).composedValue =
      some (UInt64.ofNat (domains inputs plan resolutions).length) := by
  rw [← length_diversity]
  unfold assessDiversity
  dsimp only
  repeat' split
  all_goals rfl

theorem assessState_gist {resolutions : List Resolution} {item : ObligationPlan} :
    gist ⟨assessState inputs resolutions item, false⟩ =
      stateGist inputs (stopping (resolutions.map Resolution.status))
        (worstState (scratch inputs resolutions item) 0 (stateAvailable, 0)).1
        (resolutions.any Resolution.selfDeclaredDegraded) := by
  rw [← blocked_eq_stopping]
  unfold assessState stateGist
  cases blocked resolutions with
  | some finding => rfl
  | none =>
      dsimp only [Option.map_none]
      split
      · rfl
      split <;> rfl

def assessGist (inputs : EvaluationInputs) (plan : List ObligationPlan)
    (resolutions : List Resolution) (item : ObligationPlan) : Gist :=
  match item.kind with
  | .disjointPaths =>
      diversityGist inputs item.required (domains inputs plan resolutions).length
        (diversity inputs plan resolutions).anyUnknown
  | .resourceState =>
      stateGist inputs (stopping (resolutions.map Resolution.status))
        (worstState (scratch inputs resolutions item) 0 (stateAvailable, 0)).1
        (resolutions.any Resolution.selfDeclaredDegraded)
  | _ =>
      ordinaryGist inputs item (stopping (resolutions.map Resolution.status))
        (scratch inputs resolutions item)

theorem assess_gist (plan : List ObligationPlan) (resolutions : List Resolution)
    (item : ObligationPlan) :
    gist (assess inputs plan resolutions item) = assessGist inputs plan resolutions item := by
  unfold assess assessGist
  cases item.kind with
  | disjointPaths =>
      unfold gist diversityGist
      rw [assessDiversity_status, assessDiversity_composed]
  | resourceState => exact assessState_gist
  | _ => exact assessOrdinary_gist

theorem obligations_composed {decision : ContractDecision} (accepted : Accepted inputs)
    (evaluated : evaluate inputs = .ok decision) :
    decision.obligations.map (fun a => (a.kind, a.id, a.composedValue)) =
      (buildPlan inputs.klass inputs.policy).map fun item => (item.kind, item.id,
        (assessGist inputs (buildPlan inputs.klass inputs.policy) (resolve inputs) item).composed) := by
  rw [(evaluate_reports accepted evaluated).obligations, assessAll, List.map_map, List.map_map]
  apply List.map_congr_left
  intro item _
  have names : (assess inputs (buildPlan inputs.klass inputs.policy) (resolve inputs)
      item).assessment.kind = item.kind ∧ _ := assess_names _ _ item
  rw [Function.comp, Function.comp, names.1, names.2, ← assess_gist]
  rfl

def Gist.outcome (g : Gist) : Outcome :=
  if g.overflowed then .rejected else g.status.outcome

def prior (inputs : EvaluationInputs) : Findings :=
  intake inputs
    |> conflicts inputs
    |> contradictions (resolve inputs)
    |> currency inputs

theorem le_rejected (outcome : Outcome) : outcome ≤ rejected := by
  cases outcome <;> decide

theorem contradictions_le_iff {level : Outcome} {resolutions : List Resolution} {f : Findings} :
    (contradictions resolutions f).outcome ≤ level ↔
      f.outcome ≤ level ∧ ∀ r ∈ resolutions, r.domainContradiction = true → conflict ≤ level := by
  have step : ∀ (f : Findings) (r : Resolution),
      (f.find r.domainContradiction .conflict
        (text "failure-domain contradiction for resource " ++ r.resource)).outcome ≤ level ↔
      f.outcome ≤ level ∧ (r.domainContradiction = true → conflict ≤ level) := fun _ _ => find_le
  exact foldl_le step resolutions f

theorem overflows_le_iff {level : Outcome} {assessed : List Assessed} {f : Findings} :
    (overflows assessed f).outcome ≤ level ↔
      f.outcome ≤ level ∧ ∀ a ∈ assessed, a.overflowed = true → rejected ≤ level := by
  have step : ∀ (f : Findings) (a : Assessed),
      (f.find a.overflowed .rejected
        (text "end-to-end aggregation overflowed the representable domain")).outcome ≤ level ↔
      f.outcome ≤ level ∧ (a.overflowed = true → rejected ≤ level) := fun _ _ => find_le
  exact foldl_le step assessed f

theorem gist_outcome_le {level : Outcome} {a : Assessed} :
    (gist a).outcome ≤ level ↔
      (a.overflowed = true → rejected ≤ level) ∧ a.assessment.status.outcome ≤ level := by
  unfold Gist.outcome gist
  dsimp only
  cases a.overflowed with
  | true =>
      simp only [if_true, true_implies, iff_self_and]
      exact fun most => Outcome.le_trans (le_rejected _) most
  | false => simp

theorem findings_le_iff {level : Outcome} :
    (findings inputs).outcome ≤ level ↔
      (prior inputs).outcome ≤ level ∧
        ∀ item ∈ buildPlan inputs.klass inputs.policy,
          (assessGist inputs (buildPlan inputs.klass inputs.policy) (resolve inputs) item).outcome ≤
            level := by
  have each : (∀ item ∈ buildPlan inputs.klass inputs.policy,
      (assessGist inputs (buildPlan inputs.klass inputs.policy) (resolve inputs) item).outcome ≤
        level) ↔ ∀ a ∈ assessAll inputs, (gist a).outcome ≤ level := by
    simp only [assessAll, List.forall_mem_map, assess_gist]
  simp only [each, gist_outcome_le, findings, rollUp_le, overflows_le_iff, List.forall_mem_map, prior]
  constructor
  · rintro ⟨⟨before, bounded⟩, met⟩
    exact ⟨before, fun a mem => ⟨bounded a mem, met a mem⟩⟩
  · rintro ⟨before, each⟩
    exact ⟨⟨before, fun a mem => (each a mem).1⟩, fun a mem => (each a mem).2⟩

end QoSFabric.Proof.Engine
