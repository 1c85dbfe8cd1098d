import QoSFabric.Proof.Engine.Conflict
import QoSFabric.Proof.Engine.Composition
import Mathlib.Algebra.Order.BigOperators.Group.List

namespace QoSFabric.Proof.Engine

variable {inputs : EvaluationInputs}

def Validated (inputs : EvaluationInputs) : Prop :=
  ∀ capability, some capability ∈ inputs.capabilities → validateCapability capability = .ok ()

theorem composePresent_bounded {aggregate : AggregateKind} {first fixed : UInt64}
    {rest : List UInt64}
    (sum : aggregate = .additive →
      fixed.toNat + ((first :: rest).map UInt64.toNat).sum < 2 ^ 64) :
    (composePresent aggregate first rest fixed).overflow = false := by
  cases aggregate with
  | additive =>
      have total := addAll_eq_some.mpr (UInt64.toNat_ofNat_of_lt' (sum rfl)).symm
      unfold composePresent
      dsimp only
      rw [total]
      rfl
  | lossCompose =>
      obtain ⟨final, delivered, -⟩ := deliverAll_spec (first :: rest)
      unfold composePresent
      dsimp only
      rw [delivered]
      rfl
  | _ => rfl

theorem composeValues_bounded {aggregate : AggregateKind} {values : List RawValue} {fixed : UInt64}
    (sum : aggregate = .additive →
      fixed.toNat + (values.map fun v => v.value.toNat).sum < 2 ^ 64) :
    (composeValues aggregate values fixed).overflow = false := by
  unfold composeValues
  split
  · rfl
  next first rest =>
    split
    · rfl
    · apply composePresent_bounded
      intro additive
      have sum := sum additive
      rwa [List.map_cons, List.map_map]

theorem capability_of_mem_resolve {r : Resolution} {capability : ResourceCapability}
    (mem : r ∈ resolve inputs) (held : r.capability = some capability) :
    some capability ∈ inputs.capabilities := by
  obtain ⟨index, component, -, rfl⟩ := mem_resolve.mp mem
  have slot : (resolveAt inputs component index).capability =
      inputs.capabilities.getD index none := by
    unfold resolveAt resolveComponent
    split
    next absent => exact absent.symm
    next found =>
      dsimp only
      rw [found]
      split
      · rfl
      · split <;> rfl
  rw [slot] at held
  exact List.mem_of_getElem? (getElem?_of_getD held)

theorem scratch_bounded (validated : Validated inputs) {item : ObligationPlan}
    (additive : item.kind.aggregate = .additive) {v : RawValue}
    (mem : v ∈ scratch inputs (resolve inputs) item) : v.value.toNat ≤ Limits.maxLatencyUs.toNat := by
  obtain ⟨r, resolution, rfl⟩ := List.mem_map.mp mem
  unfold scratchValue
  split
  case h_3 => exact Nat.zero_le _
  all_goals
    unfold componentValue
    split
    · exact Nat.zero_le _
    next capability held =>
      have valid := validated capability (capability_of_mem_resolve resolution held)
      simp only [validateCapability, refuse_bind_eq_ok, exceeds_eq_false] at valid
      obtain ⟨-, -, -, -, -, -, latency, jitter, -⟩ := valid
      unfold capabilityValue
      cases kind : item.kind with
      | latency =>
          cases value : capability.latencyBoundUs with
          | none => exact Nat.zero_le _
          | some value => exact UInt64.le_iff_toNat_le.mp (UInt64.not_lt.mp (latency _ ‹_›))
      | jitter =>
          cases value : capability.jitterBoundUs with
          | none => exact Nat.zero_le _
          | some value => exact UInt64.le_iff_toNat_le.mp (UInt64.not_lt.mp (jitter _ ‹_›))
      | _ =>
          rw [kind] at additive
          cases additive

theorem fixedOverhead_bounded (accepted : Accepted inputs) (kind : ObligationKind) :
    (fixedOverhead inputs.path kind).toNat ≤ Limits.maxLatencyUs.toNat := by
  have valid := accepted.path
  simp only [validatePath, refuse_bind_eq_ok] at valid
  obtain ⟨-, -, -, -, rest⟩ := valid
  obtain ⟨-, -, overheads⟩ := bind_eq_ok.mp rest
  rw [refuse_eq_ok, Bool.or_eq_false_iff, decide_eq_false_iff_not, decide_eq_false_iff_not]
    at overheads
  unfold fixedOverhead
  split
  · exact UInt64.le_iff_toNat_le.mp (UInt64.not_lt.mp overheads.1)
  · exact UInt64.le_iff_toNat_le.mp (UInt64.not_lt.mp overheads.2)
  · exact Nat.zero_le _

theorem composition_bounded (accepted : Accepted inputs) (validated : Validated inputs)
    (item : ObligationPlan) :
    (composeValues item.kind.aggregate (scratch inputs (resolve inputs) item)
      (fixedOverhead inputs.path item.kind)).overflow = false := by
  apply composeValues_bounded
  intro additive
  have few := validatePath_length accepted.path
  have fixed := fixedOverhead_bounded accepted item.kind
  have sum := List.sum_le_card_nsmul
    ((scratch inputs (resolve inputs) item).map fun v => v.value.toNat) Limits.maxLatencyUs.toNat
    fun n mem => by
      obtain ⟨v, held, rfl⟩ := List.mem_map.mp mem
      exact scratch_bounded validated additive held
  have length : (scratch inputs (resolve inputs) item).length = inputs.path.components.length := by
    rw [scratch, List.length_map, length_resolve]
  rw [List.length_map, length] at sum
  change _ ≤ inputs.path.components.length * _ at sum
  have longest := Nat.mul_le_mul_right Limits.maxLatencyUs.toNat few
  have domain : Limits.maxLatencyUs.toNat = 3600000000 := rfl
  have components : Limits.maxPathComponents = 256 := rfl
  rw [domain] at fixed longest sum
  rw [components] at longest
  omega

theorem admissible_of_validated (accepted : Accepted inputs) (validated : Validated inputs) :
    Admissible inputs := by
  refine ⟨accepted, ?_⟩
  intro a mem
  obtain ⟨item, -, rfl⟩ := mem_assessAll.mp mem
  have ordinary : (assessOrdinary inputs (resolve inputs) item).overflowed = false := by
    unfold assessOrdinary
    split
    · rfl
    · dsimp only
      split
      · rfl
      · rw [assessComposition_overflowed]
        exact composition_bounded accepted validated item
  rw [Bool.not_eq_true]
  unfold assess
  split
  · rfl
  · rfl
  · exact ordinary

theorem evaluate_superseded {decision : ContractDecision} (accepted : Accepted inputs)
    (validated : Validated inputs) (superseded : ¬Current inputs)
    (evaluated : evaluate inputs = .ok decision) :
    decision.outcome = .stale ∨ decision.outcome = .conflict := by
  have notRefused : (intake inputs).outcome ≠ .rejected := by
    intro refused
    have clean := (intake_le (show ¬Outcome.rejected ≤ .conflict by decide)).mpr accepted
    rw [refused] at clean
    exact absurd clean (by decide)
  unfold evaluate at evaluated
  rw [if_neg notRefused] at evaluated
  cases evaluated
  rw [sealed_outcome]
  dsimp only
  have most := findings_le_conflict.mpr (admissible_of_validated accepted validated)
  have least : ¬(findings inputs).outcome ≤ .unsupported := by
    have rejects : ¬Outcome.rejected ≤ .unsupported := by decide
    have conflicting : ¬Outcome.conflict ≤ .unsupported := by decide
    have outdated : ¬Outcome.stale ≤ .unsupported := by decide
    simp only [findings, rollUp_le, overflows_le rejects, currency_le outdated]
    exact fun clean => superseded clean.1.1.2
  generalize (findings inputs).outcome = outcome at most least
  cases outcome with
  | stale => exact .inl rfl
  | conflict => exact .inr rfl
  | rejected => exact absurd most (by decide)
  | _ => exact absurd (by decide) least

end QoSFabric.Proof.Engine
