import QoSFabric.Proof.Engine.Evidence
import QoSFabric.Proof.Engine.Composition

namespace QoSFabric.Proof.Engine

open Outcome

def declaredValues (inputs : EvaluationInputs) (item : ObligationPlan) : List RawValue :=
  (resolve inputs).map fun r =>
    componentValue item r inputs.klass inputs.policy inputs.currentEpoch inputs.nowMs

def Composes (aggregate : AggregateKind) (fixed required : UInt64) (values : List UInt64) : Prop :=
  match aggregate with
  | .weakestLink | .allPresent => ∀ v ∈ values, required ≤ v
  | .worstCase => ∀ v ∈ values, v ≤ required
  | .additive => fixed.toNat + (values.map UInt64.toNat).sum ≤ required.toNat
  | .lossCompose => ∃ delivery, deliverAll values = some delivery ∧ ppm - delivery ≤ required
  | .pathDiversity => False

/-- The path meets an obligation; diversity counts the components that qualify under `plan`. -/
def Meets (inputs : EvaluationInputs) (plan : List ObligationPlan) (item : ObligationPlan) : Prop :=
  match item.kind with
  | .disjointPaths =>
      item.required ≤ UInt64.ofNat (diversity inputs plan (resolve inputs)).domains.length
  | .resourceState => ∀ r ∈ resolve inputs, r.selfDeclaredDegraded = false
  | kind =>
      (∀ v ∈ declaredValues inputs item, v.present = true) ∧
        Composes kind.aggregate (fixedOverhead inputs.path kind) item.required
          ((declaredValues inputs item).map RawValue.value)

/-- The inputs support the contract cleanly, obligation by obligation of the clipped plan. -/
structure Supports (inputs : EvaluationInputs) : Prop where
  accepted : Accepted inputs
  unconflicted : Unconflicted inputs
  current : Current inputs
  resolved : ∀ r ∈ resolve inputs, Resolution.Resolved r
  met : ∀ item ∈ buildPlan inputs.klass inputs.policy,
    Meets inputs (buildPlan inputs.klass inputs.policy) item

def Ordinary (kind : ObligationKind) : Prop := kind ≠ .disjointPaths ∧ kind ≠ .resourceState

theorem additive_le_iff {first fixed required : UInt64} {rest : List UInt64} :
    (∃ total, addAll fixed (first :: rest) = some total ∧ total ≤ required) ↔
      fixed.toNat + ((first :: rest).map UInt64.toNat).sum ≤ required.toNat := by
  simp only [addAll_eq_some, UInt64.le_iff_toNat_le]
  constructor
  · rintro ⟨total, eq, le⟩
    rwa [eq]
  · intro le
    have bound := required.toNat_lt
    refine ⟨UInt64.ofNat (fixed.toNat + ((first :: rest).map UInt64.toNat).sum), ?_, ?_⟩ <;>
      rw [UInt64.toNat_ofNat_of_lt' (Nat.lt_of_le_of_lt le bound)]
    exact le

def Composed (direction : CompareDirection) (required : UInt64) (composition : Composition) : Prop :=
  composition.overflow = false ∧ ∃ composed, composition.value = some composed ∧
    compliant direction composed required = true

theorem composed_ofValue {direction : CompareDirection} {required value : UInt64} {index : Nat} :
    Composed direction required (.ofValue value index) ↔ compliant direction value required = true := by
  simp only [Composed, Composition.ofValue, Option.some.injEq, exists_eq_left', true_and]

theorem composed_ofTotal {required : UInt64} {total : Option UInt64} {index : Nat}
    {overflow : String} :
    Composed .atMost required (.ofTotal total index overflow) ↔
      ∃ value, total = some value ∧ value ≤ required := by
  cases total with
  | none => simp [Composed, Composition.ofTotal]
  | some value =>
      simp only [Composition.ofTotal, composed_ofValue, compliant, decide_eq_true_eq,
        Option.some.injEq, exists_eq_left']

theorem composed_weakest {first required : UInt64} {rest : List UInt64} {index : Nat} :
    Composed .atLeast required (.ofValue (extremum (· < ·) first rest).1 index) ↔
      ∀ v ∈ first :: rest, required ≤ v := by
  rw [composed_ofValue, compliant, decide_eq_true_eq, extremum, ge_iff_le, le_scan_iff,
    List.forall_mem_cons]

theorem composed_worst {first required : UInt64} {rest : List UInt64} {index : Nat} :
    Composed .atMost required (.ofValue (extremum (· > ·) first rest).1 index) ↔
      ∀ v ∈ first :: rest, v ≤ required := by
  rw [composed_ofValue, compliant, decide_eq_true_eq, extremum, scan_le_iff, List.forall_mem_cons]

theorem composed_loss {required : UInt64} {values : List UInt64} {index : Nat}
    {overflow : String} :
    Composed .atMost required (.ofTotal ((deliverAll values).map (ppm - ·)) index overflow) ↔
      ∃ delivery, deliverAll values = some delivery ∧ ppm - delivery ≤ required := by
  simp only [composed_ofTotal, Option.map_eq_some_iff]
  constructor
  · rintro ⟨_, ⟨delivery, eq, rfl⟩, le⟩
    exact ⟨delivery, eq, le⟩
  · rintro ⟨delivery, eq, le⟩
    exact ⟨_, ⟨delivery, eq, rfl⟩, le⟩

theorem composePresent_iff {kind : ObligationKind} (ordinary : Ordinary kind)
    {first fixed required : UInt64} {rest : List UInt64} :
    Composed kind.direction required (composePresent kind.aggregate first rest fixed) ↔
      Composes kind.aggregate fixed required (first :: rest) := by
  cases kind
  case disjointPaths => exact absurd rfl ordinary.1
  case resourceState => exact absurd rfl ordinary.2
  case burstInterval =>
    simp only [ObligationKind.aggregate, ObligationKind.direction, composePresent, Composes,
      composed_worst]
  case loss =>
    simp only [ObligationKind.aggregate, ObligationKind.direction, composePresent, Composes,
      composed_loss]
  case latency | jitter =>
    simp only [ObligationKind.aggregate, ObligationKind.direction, composePresent, Composes,
      composed_ofTotal, additive_le_iff]
  all_goals
    simp only [ObligationKind.aggregate, ObligationKind.direction, composePresent, Composes,
      composed_weakest]

theorem assessShortfall_le (inputs : EvaluationInputs) (a : ObligationAssessment)
    (composed : UInt64) : ¬(assessShortfall inputs a composed).status.outcome ≤ supported := by
  have degraded : ¬ObligationStatus.degraded.outcome ≤ supported := by decide
  have violated : ¬ObligationStatus.violated.outcome ≤ supported := by decide
  unfold assessShortfall
  dsimp only
  repeat' split
  all_goals first
    | exact violated
    | exact degraded

theorem assessComposition_le {inputs : EvaluationInputs} {resolutions : List Resolution}
    {item : ObligationPlan} {composition : Composition} :
    (¬(assessComposition inputs resolutions item composition).overflowed = true ∧
        (assessComposition inputs resolutions item composition).assessment.status.outcome ≤
          supported) ↔
      Composed item.kind.direction item.required composition := by
  have unknown : ¬ObligationStatus.unknown.outcome ≤ supported := by decide
  have satisfied : ObligationStatus.satisfied.outcome ≤ supported := by decide
  unfold assessComposition Composed
  cases overflow : composition.overflow with
  | true => simp
  | false =>
      cases value : composition.value with
      | none => simp [unknown]
      | some composed =>
          simp only [Bool.false_eq_true, if_false, Option.some.injEq, exists_eq_left', true_and]
          show _ ↔ compliant item.kind.direction composed item.required = true
          split
          · next h =>
              simp only [Bool.false_eq_true, not_false_eq_true, satisfied, and_self, true_iff]
              exact h
          · next h =>
              simp only [Bool.false_eq_true, not_false_eq_true, assessShortfall_le, and_false,
                false_iff]
              exact h

theorem composeValues_of_present {aggregate : AggregateKind} {fixed : UInt64}
    {first : RawValue} {rest : List RawValue} (present : ∀ v ∈ first :: rest, v.present = true) :
    composeValues aggregate (first :: rest) fixed =
      composePresent aggregate first.value (rest.map RawValue.value) fixed := by
  have all : (first :: rest).findIdx? (!·.present) = none := by
    rw [List.findIdx?_eq_none_iff]
    intro v mem
    simp [present v mem]
  rw [composeValues, all]

theorem scratch_eq {inputs : EvaluationInputs} {item : ObligationPlan}
    (resolved : ∀ r ∈ resolve inputs, Resolution.Resolved r) :
    scratch inputs (resolve inputs) item = declaredValues inputs item := by
  apply List.map_congr_left
  intro r mem
  rcases resolved r mem with h | h <;> simp [scratchValue, h]

theorem resolve_ne_nil {inputs : EvaluationInputs} (accepted : Accepted inputs) :
    resolve inputs ≠ [] := by
  have nonempty := validatePath_ok accepted.path
  intro h
  have length := congrArg List.length h
  simp only [resolve, List.length_map, List.length_zipIdx, List.length_nil,
    List.length_eq_zero_iff] at length
  exact nonempty length

theorem assessOrdinary_le {inputs : EvaluationInputs} {item : ObligationPlan}
    (accepted : Accepted inputs) (resolved : ∀ r ∈ resolve inputs, Resolution.Resolved r)
    (ordinary : Ordinary item.kind) :
    (¬(assessOrdinary inputs (resolve inputs) item).overflowed = true ∧
        (assessOrdinary inputs (resolve inputs) item).assessment.status.outcome ≤ supported) ↔
      (∀ v ∈ declaredValues inputs item, v.present = true) ∧
        Composes item.kind.aggregate (fixedOverhead inputs.path item.kind) item.required
          ((declaredValues inputs item).map RawValue.value) := by
  have unblocked := blocked_eq_none.mpr resolved
  have unknown : ¬ObligationStatus.unknown.outcome ≤ supported := by decide
  simp only [assessOrdinary, unblocked, scratch_eq resolved]
  cases absent : (declaredValues inputs item).findIdx? (!·.present) with
  | some i =>
      obtain ⟨bound, missing, -⟩ := List.findIdx?_eq_some_iff_getElem.mp absent
      simp only [blame, unknown, and_false, false_iff, not_and]
      intro present
      have here := present _ (List.getElem_mem bound)
      simp [here] at missing
  | none =>
      have present : ∀ v ∈ declaredValues inputs item, v.present = true := by
        intro v mem
        simpa using List.findIdx?_eq_none_iff.mp absent v mem
      simp only [assessComposition_le]
      cases values : declaredValues inputs item with
      | nil => exact absurd (List.map_eq_nil_iff.mp values) (resolve_ne_nil accepted)
      | cons first rest =>
          rw [values] at present
          rw [composeValues_of_present present, composePresent_iff ordinary, List.map_cons]
          exact ⟨fun h => ⟨present, h⟩, fun h => h.2⟩

theorem assessDiversity_le {inputs : EvaluationInputs} {plan : List ObligationPlan}
    {resolutions : List Resolution} {item : ObligationPlan} :
    (assessDiversity inputs plan resolutions item).status.outcome ≤ supported ↔
      item.required ≤ UInt64.ofNat (diversity inputs plan resolutions).domains.length := by
  have satisfied : ObligationStatus.satisfied.outcome ≤ supported := by decide
  unfold assessDiversity
  dsimp only
  split
  · next met => simpa only [satisfied, true_iff] using met
  · next short =>
      have short : ¬item.required ≤
        UInt64.ofNat (diversity inputs plan resolutions).domains.length := short
      have unknown : ¬ObligationStatus.unknown.outcome ≤ supported := by decide
      have degraded : ¬ObligationStatus.degraded.outcome ≤ supported := by decide
      have violated : ¬ObligationStatus.violated.outcome ≤ supported := by decide
      simp only [short, iff_false]
      repeat' split
      all_goals first
        | exact unknown
        | exact degraded
        | exact violated

theorem worstState_ge {values : List RawValue} {index : Nat} {worst : UInt64 × Nat}
    {bound : UInt64} :
    bound ≤ (worstState values index worst).1 ↔
      bound ≤ worst.1 ∧ ∀ v ∈ values, v.present = true → worst.1 ≤ v.value ∨ bound ≤ v.value := by
  induction values generalizing index worst with
  | nil => simp [worstState]
  | cons v rest ih =>
      rw [worstState, ih]
      split
      · next lower =>
          simp only [Bool.and_eq_true, decide_eq_true_eq] at lower
          simp only [List.forall_mem_cons]
          constructor
          · rintro ⟨le, rest⟩
            refine ⟨UInt64.le_trans le (UInt64.le_of_lt lower.2), fun _ => .inr le, ?_⟩
            intro w mem present
            rcases rest w mem present with h | h
            · exact .inr (UInt64.le_trans le h)
            · exact .inr h
          · rintro ⟨le, head, rest⟩
            have le : bound ≤ v.value :=
              (head lower.1).resolve_left (UInt64.not_le.mpr lower.2)
            refine ⟨le, fun w mem present => ?_⟩
            rcases rest w mem present with h | h
            · exact .inl (UInt64.le_trans (UInt64.le_of_lt lower.2) h)
            · exact .inr h
      · next higher =>
          simp only [Bool.and_eq_true, decide_eq_true_eq, not_and, UInt64.not_lt] at higher
          simp only [List.forall_mem_cons]
          exact ⟨fun ⟨le, rest⟩ => ⟨le, fun present => .inl (higher present), rest⟩,
            fun ⟨le, _, rest⟩ => ⟨le, rest⟩⟩

theorem resolved_capability {inputs : EvaluationInputs} {r : Resolution}
    (mem : r ∈ resolve inputs) (resolved : Resolution.Resolved r) :
    ∃ capability, r.capability = some capability ∧
      r.selfDeclaredDegraded = (capability.state == .degraded) := by
  obtain ⟨index, component, -, rfl⟩ := mem_resolve.mp mem
  obtain ⟨capability, slot, valid, domain⟩ := resolved_iff.mp resolved
  exact ⟨capability, by rw [resolveAt_of_resolves slot valid domain],
    by rw [resolveAt_of_resolves slot valid domain]⟩

theorem worstState_available {inputs : EvaluationInputs} {item : ObligationPlan}
    (resolved : ∀ r ∈ resolve inputs, Resolution.Resolved r) (kind : item.kind = .resourceState) :
    stateAvailable ≤ (worstState (declaredValues inputs item) 0 (stateAvailable, 0)).1 ↔
      ∀ r ∈ resolve inputs, r.selfDeclaredDegraded = false := by
  rw [worstState_ge]
  simp only [UInt64.le_refl, true_and, or_self, declaredValues, List.forall_mem_map]
  refine forall₂_congr fun r mem => ?_
  obtain ⟨capability, held, -⟩ := resolved_capability mem (resolved r mem)
  cases degraded : r.selfDeclaredDegraded <;>
    simp [componentValue, held, capabilityValue, kind, degraded, RawValue.declared,
      stateAvailable, CapabilityState.value]

theorem assessState_le {inputs : EvaluationInputs} {item : ObligationPlan}
    (resolved : ∀ r ∈ resolve inputs, Resolution.Resolved r) (kind : item.kind = .resourceState) :
    (assessState inputs (resolve inputs) item).status.outcome ≤ supported ↔
      ∀ r ∈ resolve inputs, r.selfDeclaredDegraded = false := by
  have unblocked := blocked_eq_none.mpr resolved
  have satisfied : ObligationStatus.satisfied.outcome ≤ supported := by decide
  have degraded : ¬ObligationStatus.degraded.outcome ≤ supported := by decide
  have violated : ¬ObligationStatus.violated.outcome ≤ supported := by decide
  rw [← worstState_available resolved kind]
  simp only [assessState, unblocked, scratch_eq resolved]
  split
  · next h => simpa only [satisfied, true_iff] using h
  · next h =>
      have h : ¬stateAvailable ≤
        (worstState (declaredValues inputs item) 0 (stateAvailable, 0)).1 := h
      simp only [h, iff_false]
      split
      · exact degraded
      · exact violated

theorem assess_le {inputs : EvaluationInputs} {plan : List ObligationPlan} {item : ObligationPlan}
    (accepted : Accepted inputs) (resolved : ∀ r ∈ resolve inputs, Resolution.Resolved r) :
    (¬(assess inputs plan (resolve inputs) item).overflowed = true ∧
        (assess inputs plan (resolve inputs) item).assessment.status.outcome ≤ supported) ↔
      Meets inputs plan item := by
  have ordinary := @assessOrdinary_le inputs item accepted resolved
  have diverse := @assessDiversity_le inputs plan (resolve inputs) item
  have state := @assessState_le inputs item resolved
  unfold assess Meets
  cases kind : item.kind
  case disjointPaths => simpa using diverse
  case resourceState => simpa using state kind
  all_goals
    rw [kind] at ordinary
    exact ordinary ⟨by decide, by decide⟩

theorem consistent_of_resolved {inputs : EvaluationInputs} {r : Resolution}
    (mem : r ∈ resolve inputs) (resolved : Resolution.Resolved r) :
    ¬r.domainContradiction = true := by
  obtain ⟨index, component, -, rfl⟩ := mem_resolve.mp mem
  obtain ⟨capability, slot, valid, domain⟩ := resolved_iff.mp resolved
  rw [resolveAt_of_resolves slot valid domain]
  exact Bool.false_ne_true

theorem clear_supported_iff {inputs : EvaluationInputs} :
    Clear inputs supported ↔ Supports inputs := by
  have low : supported ≤ supportedDegraded := by decide
  constructor
  · intro clear
    have resolved := all_resolved low clear
    refine ⟨clear.accepted, clear.unconflicted, clear.current, resolved, fun item mem => ?_⟩
    have assessed := mem_assessAll.mpr ⟨item, mem, rfl⟩
    exact (assess_le clear.accepted resolved).mp ⟨clear.bounded _ assessed, clear.met _ assessed⟩
  · intro h
    have assessed : ∀ a ∈ assessAll inputs,
        ¬a.overflowed = true ∧ a.assessment.status.outcome ≤ supported := by
      intro a member
      obtain ⟨item, mem, rfl⟩ := mem_assessAll.mp member
      exact (assess_le h.accepted h.resolved).mpr (h.met item mem)
    exact ⟨h.accepted, h.unconflicted,
      fun r mem => consistent_of_resolved mem (h.resolved r mem), h.current,
      fun a mem => (assessed a mem).1, fun a mem => (assessed a mem).2⟩

theorem evaluate_supported_iff {inputs : EvaluationInputs} :
    (∃ decision, evaluate inputs = .ok decision ∧ decision.outcome = supported) ↔
      Supports inputs := by
  rw [← clear_supported_iff, ← evaluate_le (by decide)]
  simp only [le_supported]

end QoSFabric.Proof.Engine
