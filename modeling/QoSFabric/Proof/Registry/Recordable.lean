import QoSFabric.Proof.Registry.Recorded
import QoSFabric.Proof.Registry.Size
import QoSFabric.Proof.Codec.Records
import QoSFabric.Proof.Engine.Binding

/-!
# Recordable decisions

Every text an evaluation can produce is a valid identifier, a digest, an origin or a detail that was
cut, and every list is as short as the path or the plan, so a decision always fits its record.
-/

namespace QoSFabric

open Proof.Engine

variable {inputs : EvaluationInputs}

/-- Every provenance at hand was constructed, so its origin keeps its budget. -/
structure EvaluationInputs.Clipped (inputs : EvaluationInputs) : Prop where
  request : inputs.request.provenance.Clipped
  klass : inputs.klass.provenance.Clipped
  policy : inputs.policy.provenance.Clipped
  path : inputs.path.provenance.Clipped
  capabilities : ∀ capability, some capability ∈ inputs.capabilities → capability.provenance.Clipped
  reservations : ∀ reservation, some reservation ∈ inputs.reservations →
    reservation.provenance.Clipped

theorem length_shortText (value : Text) : (shortText value).length ≤ Limits.maxDetailLen :=
  List.length_take_le _ _

/-- What of a resolution reaches a decision. -/
structure Resolution.Short (r : Resolution) : Prop where
  resource : r.resource.length ≤ Limits.maxIdentifierLen
  domain : r.declaredDomain.length ≤ Limits.maxIdentifierLen
  capability : ∀ capability, r.capability = some capability → capability.provenance.Clipped
  reservation : ∀ reservation, r.reservation = some reservation → reservation.provenance.Clipped

theorem resolveAt_kept (component : PathComponent) (index : Nat) :
    (resolveAt inputs component index).resource = component.resource ∧
      (resolveAt inputs component index).declaredDomain = component.diversityDomain ∧
      (resolveAt inputs component index).capability = inputs.capabilities.getD index none ∧
      (resolveAt inputs component index).reservation = inputs.reservations.getD index none := by
  unfold resolveAt resolveComponent
  cases inputs.capabilities.getD index none with
  | none => exact ⟨rfl, rfl, rfl, rfl⟩
  | some capability =>
      dsimp only
      split
      · exact ⟨rfl, rfl, rfl, rfl⟩
      split
      · exact ⟨rfl, rfl, rfl, rfl⟩
      · exact ⟨rfl, rfl, rfl, rfl⟩

theorem short_of_mem_resolve (accepted : Accepted inputs) (clipped : inputs.Clipped) {r : Resolution}
    (mem : r ∈ resolve inputs) : r.Short := by
  obtain ⟨index, component, found, rfl⟩ := mem_resolve.mp mem
  obtain ⟨resource, domain, capability, reservation⟩ := resolveAt_kept component index
  have path := accepted.path
  simp only [validatePath, refuse_bind_eq_ok] at path
  obtain ⟨-, -, -, -, rest⟩ := path
  obtain ⟨_, components, -⟩ := bind_eq_ok.mp rest
  have valid := validateComponents_ok components component (List.mem_of_getElem? found)
  refine ⟨?_, ?_, ?_, ?_⟩
  · rw [resource]
    exact length_of_isValidIdentifier valid.1
  · rw [domain]
    exact length_of_isValidIdentifier valid.2
  · intro held eq
    rw [capability] at eq
    exact clipped.capabilities held (List.mem_of_getElem? (getElem?_of_getD eq))
  · intro held eq
    rw [reservation] at eq
    exact clipped.reservations held (List.mem_of_getElem? (getElem?_of_getD eq))

theorem mem_of_blocked {resolutions : List Resolution} {status : ObligationStatus} {r : Resolution}
    (blocks : blocked resolutions = some (status, r)) : r ∈ resolutions := by
  unfold blocked at blocks
  split at blocks
  next found =>
    cases blocks
    exact List.mem_reverse.mp (List.mem_of_find?_eq_some found)
  · split at blocks
    next found =>
      cases blocks
      exact List.mem_of_find?_eq_some found
    · obtain ⟨_, found, same⟩ := Option.map_eq_some_iff.mp blocks
      cases same
      exact List.mem_of_find?_eq_some found

theorem length_id_of_mem_push {kind : ObligationKind} {required : Option UInt64}
    {item : ObligationPlan} (mem : item ∈ push kind required) :
    item.id.length ≤ Limits.maxIdentifierLen := by
  obtain ⟨value, -, rfl⟩ := Option.map_eq_some_iff.mp (Option.mem_toList.mp mem)
  exact List.length_take_le _ _

theorem length_id_of_mem_pushedPlan {klass : QoSClass} {policy : Policy} {item : ObligationPlan}
    (mem : item ∈ pushedPlan klass policy) : item.id.length ≤ Limits.maxIdentifierLen := by
  have pushed := mem_pushedPlan.mp mem
  generalize item.kind = kind at pushed
  cases kind <;> first
    | exact length_id_of_mem_push pushed
    | obtain ⟨key, -, rfl⟩ := List.mem_map.mp pushed
      exact List.length_take_le _ _

theorem short_assessment {klass : QoSClass} {policy : Policy} {item : ObligationPlan}
    (planned : item ∈ pushedPlan klass policy) : item.assessment.Short := by
  refine ⟨length_id_of_mem_pushedPlan planned, Nat.zero_le _, Nat.zero_le _, ?_⟩
  unfold ObligationPlan.assessment
  dsimp only
  split
  · exact List.length_take_le _ _
  · exact Nat.zero_le _

section Assess

variable {resolutions : List Resolution} {item : ObligationPlan}

theorem length_resourceAt (named : ∀ r ∈ resolutions, r.resource.length ≤ Limits.maxIdentifierLen)
    (index : Nat) : ((resourceAt resolutions index).getD []).length ≤ Limits.maxIdentifierLen := by
  unfold resourceAt
  cases found : resolutions[index]? with
  | none => exact Nat.zero_le _
  | some r => exact named r (List.mem_of_getElem? found)

theorem short_blame {a : ObligationAssessment} (short : a.Short) {resource : Text}
    (named : resource.length ≤ Limits.maxIdentifierLen) (status : ObligationStatus) (detail : Text) :
    (blame a status resource detail).Short :=
  ⟨short.1, named, named, length_shortText detail⟩

theorem short_assessDiversity (short : item.assessment.Short) (plan : List ObligationPlan) :
    (assessDiversity inputs plan resolutions item).Short := by
  obtain ⟨id, binding, weakest, -⟩ := short
  unfold assessDiversity
  dsimp only
  repeat' split
  all_goals
    refine ⟨id, binding, weakest, ?_⟩
    dsimp only
    first
      | exact length_shortText _
      | decide

theorem short_assessState (named : ∀ r ∈ resolutions, r.resource.length ≤ Limits.maxIdentifierLen)
    (short : item.assessment.Short) : (assessState inputs resolutions item).Short := by
  obtain ⟨id, -, -, detail⟩ := short
  have bound := length_resourceAt named
    (worstState (scratch inputs resolutions item) 0 (stateAvailable, 0)).2
  unfold assessState
  dsimp only
  cases stopped : blocked resolutions with
  | some finding =>
      exact ⟨id, named _ (mem_of_blocked stopped), named _ (mem_of_blocked stopped),
        length_shortText _⟩
  | none =>
      dsimp only
      split
      · exact ⟨id, bound, bound, detail⟩
      split
      · exact ⟨id, bound, bound, length_shortText _⟩
      · refine ⟨id, bound, bound, ?_⟩
        dsimp only
        split <;> decide

theorem short_assessShortfall {a : ObligationAssessment} (short : a.Short) (composed : UInt64) :
    (assessShortfall inputs a composed).Short := by
  obtain ⟨id, binding, weakest, -⟩ := short
  unfold assessShortfall
  dsimp only
  repeat' split
  all_goals
    refine ⟨id, binding, weakest, ?_⟩
    dsimp only
    decide

theorem short_assessComposition
    (named : ∀ r ∈ resolutions, r.resource.length ≤ Limits.maxIdentifierLen)
    (short : item.assessment.Short) (composition : Composition) :
    (assessComposition inputs resolutions item composition).assessment.Short := by
  obtain ⟨id, binding, weakest, detail⟩ := short
  unfold assessComposition
  dsimp only
  split
  · refine ⟨id, binding, weakest, ?_⟩
    dsimp only
    decide
  cases composition.value with
  | none => exact ⟨id, binding, weakest, length_shortText _⟩
  | some composed =>
      have located := length_resourceAt named
      dsimp only
      split
      · exact ⟨id, located _, located _, detail⟩
      · apply short_assessShortfall
        exact ⟨id, located _, located _, detail⟩

theorem short_assess (named : ∀ r ∈ resolutions, r.resource.length ≤ Limits.maxIdentifierLen)
    (short : item.assessment.Short) (plan : List ObligationPlan) :
    (assess inputs plan resolutions item).assessment.Short := by
  have ordinary : (assessOrdinary inputs resolutions item).assessment.Short := by
    unfold assessOrdinary
    cases stopped : blocked resolutions with
    | some finding => exact short_blame short (named _ (mem_of_blocked stopped)) _ _
    | none =>
        dsimp only
        split
        · exact short_blame short (length_resourceAt named _) _ _
        · exact short_assessComposition named short _
  unfold assess
  split
  · exact short_assessDiversity short plan
  · exact short_assessState named short
  · exact ordinary

end Assess

theorem short_obligations (accepted : Accepted inputs) (clipped : inputs.Clipped) :
    ∀ a ∈ (assessAll inputs).map Assessed.assessment, a.Short := by
  simp only [assessAll, List.forall_mem_map]
  intro item planned
  have pushed := (mem_pushedPlan_iff (validateQoSClass_ok accepted.klass)
    (validatePolicy_ok accepted.policy)).mpr (.inl planned)
  exact short_assess (fun r mem => (short_of_mem_resolve accepted clipped mem).resource)
    (short_assessment pushed) _

theorem short_degradations {obligations : List ObligationAssessment}
    (short : ∀ a ∈ obligations, a.Short) : ∀ a ∈ degradations obligations, a.Short := by
  intro a mem
  obtain ⟨b, degraded, rfl⟩ := List.mem_map.mp (List.mem_of_mem_take mem)
  obtain ⟨id, binding, -, detail⟩ := short b (List.mem_of_mem_filter degraded)
  exact ⟨id, binding, Nat.le_trans detail (by decide)⟩

theorem Resolution.Short.assessment {r : Resolution} (short : r.Short) :
    (Resolution.assessment r).Short :=
  ⟨short.resource, short.domain, Nat.le_trans (length_shortText r.reason) (by decide)⟩

theorem length_hex (digest : Digest256) : digest.hex.length = 64 := by
  unfold Digest256.hex
  rw [List.length_flatMap]
  simp [digest.size]

theorem short_componentAuthority {r : Resolution} (short : r.Short) :
    ∀ a ∈ componentAuthority r, a.Short := by
  intro a mem
  unfold componentAuthority at mem
  rcases List.mem_append.mp mem with held | held
  · obtain ⟨capability, found, rfl⟩ := Option.map_eq_some_iff.mp (Option.mem_toList.mp held)
    exact ⟨short.resource, Nat.le_of_eq (length_hex _), short.capability _ found⟩
  · obtain ⟨reservation, found, rfl⟩ := Option.map_eq_some_iff.mp (Option.mem_toList.mp held)
    exact ⟨short.resource, Nat.le_of_eq (length_hex _), short.reservation _ found⟩

theorem short_of_validRequest {request : ContractRequest} (valid : validateRequest request = .ok ()) :
    request.Short := by
  simp only [validateRequest, refuse_bind_eq_ok] at valid
  obtain ⟨contract, subject, classId, path, policy, priority, -⟩ := valid
  exact ⟨short_of_valid contract, short_of_valid subject, short_of_valid classId,
    short_of_valid path, short_of_valid policy, short_of_valid priority⟩

theorem short_request (accepted : Accepted inputs) : inputs.request.Short :=
  short_of_validRequest accepted.request

theorem length_names (accepted : Accepted inputs) :
    inputs.klass.id.length ≤ Limits.maxIdentifierLen ∧
      inputs.path.id.length ≤ Limits.maxIdentifierLen ∧
      inputs.policy.id.length ≤ Limits.maxIdentifierLen := by
  have request := short_request accepted
  rw [accepted.classId, accepted.pathId, accepted.policyId]
  exact ⟨request.classId, request.path, request.policy⟩

theorem short_authority (accepted : Accepted inputs) (clipped : inputs.Clipped) :
    ∀ a ∈ authority inputs (resolve inputs), a.Short := by
  have request := short_request accepted
  have hex := fun digest => Nat.le_of_eq (length_hex digest)
  have fixed : ∀ a ∈ [classAuthority inputs.klass,
      ⟨.subject, inputs.request.subject, inputs.request.subjectGeneration, [],
        inputs.currentEpoch, inputs.request.provenance.origin⟩,
      pathAuthority inputs.path, policyAuthority inputs.policy,
      ⟨.priority, inputs.request.priority, inputs.request.priorityGeneration, [],
        inputs.currentEpoch, []⟩,
      epochAuthority inputs.currentEpoch], AuthorityEntry.Short a := by
    simp only [List.forall_mem_cons, List.not_mem_nil, false_implies, implies_true, and_true]
    obtain ⟨klass, path, policy⟩ := length_names accepted
    refine ⟨⟨klass, hex _, clipped.klass⟩, ⟨request.subject, Nat.zero_le _, clipped.request⟩,
      ⟨path, hex _, clipped.path⟩, ⟨policy, hex _, clipped.policy⟩,
      ⟨request.priority, Nat.zero_le _, Nat.zero_le _⟩, ?_, Nat.zero_le _, ?_⟩
    · exact show (text "fabric").length ≤ Limits.maxIdentifierLen by decide
    · exact show (text "registry").length ≤ Limits.maxOriginLen by decide
  intro a mem
  rcases List.mem_append.mp (List.mem_of_mem_take mem) with held | held
  · exact fixed a held
  · obtain ⟨r, resolution, entry⟩ := List.mem_flatMap.mp held
    exact short_componentAuthority (short_of_mem_resolve accepted clipped resolution) a entry

theorem short_sealed {decision : ContractDecision} (short : decision.Short) :
    decision.sealed.Short :=
  ⟨short.texts, short.obligations, short.resources, short.degradations, short.authority,
    short.reason, short.origin⟩

theorem short_binding {obligations : List ObligationAssessment} (short : ∀ a ∈ obligations, a.Short)
    (outcome : Outcome) :
    (((bindingObligation outcome obligations).bind
      ObligationAssessment.bindingResource).getD []).length ≤ Limits.maxIdentifierLen := by
  cases found : bindingObligation outcome obligations with
  | none => exact Nat.zero_le _
  | some a => exact (short a (Proof.Engine.bindingObligation_binds found).mem).2.1

theorem short_evaluate {decision : ContractDecision} (accepted : Accepted inputs)
    (clipped : inputs.Clipped) (evaluated : QoSFabric.evaluate inputs = .ok decision) :
    decision.Short := by
  have clean : (intake inputs).outcome ≠ .rejected := by
    intro refused
    have under := (intake_le (show ¬Outcome.rejected ≤ .supported by decide)).mpr accepted
    rw [refused] at under
    exact absurd under (by decide)
  unfold QoSFabric.evaluate at evaluated
  rw [if_neg clean] at evaluated
  cases evaluated
  have obligations := short_obligations accepted clipped
  have request := short_request accepted
  obtain ⟨klass, path, policy⟩ := length_names accepted
  apply short_sealed
  constructor
  · simp only [List.forall_mem_cons, List.not_mem_nil, false_implies, implies_true, and_true]
    exact ⟨request.contract, klass, request.subject, path, policy, request.priority,
      short_binding obligations _⟩
  · dsimp only
    exact ⟨obligations_le inputs, obligations⟩
  · dsimp only
    rw [List.forall_mem_map]
    exact ⟨resources_le clean,
      fun r mem => (short_of_mem_resolve accepted clipped mem).assessment⟩
  · dsimp only
    exact ⟨List.length_take_le _ _, short_degradations obligations⟩
  · dsimp only
    exact ⟨List.length_take_le _ _, short_authority accepted clipped⟩
  · dsimp only
    split
    · split <;> decide
    · exact Nat.le_trans (length_shortText _) (by decide)
  · exact List.length_take_le _ _

theorem ContractDecision.Short.recorded {decision : ContractDecision} (short : decision.Short) :
    ∃ bytes, decision.record = some bytes ∧ bytes.length ≤ Limits.maxCanonicalRecordBytes := by
  obtain ⟨bytes, recorded, within⟩ := within_decision short
  exact ⟨bytes, recorded, Nat.le_trans within (by decide)⟩

theorem ContractDecision.Settled.readBack_sealed {decision : ContractDecision}
    (settled : decision.Settled) :
    decision.readBack = { decision with decisionDigest := decision.readBack.decisionDigest } ∧
      decision.readBack.computeDecisionDigest = decision.decisionDigest := by
  constructor
  · conv =>
      rhs
      rw [← settled.fixed]
    rfl
  · exact congrArg ContractDecision.decisionDigest settled.fixed

/-- The record of a decision fits its budget and tells every field the decision has besides its
digest, which is recomputed from them. -/
theorem evaluate_recordable (accepted : Accepted inputs) (clipped : inputs.Clipped) :
    ∃ decision bytes decoded, QoSFabric.evaluate inputs = .ok decision ∧
      decision.record = some bytes ∧ bytes.length ≤ Limits.maxCanonicalRecordBytes ∧
      decodeDecision (.ofBytes bytes) = .ok (decoded, ⟨some []⟩) ∧
      decoded = { decision with decisionDigest := decoded.decisionDigest } ∧
      decoded.computeDecisionDigest = decision.decisionDigest := by
  obtain ⟨decision, evaluated⟩ := evaluate_ok inputs
  have settled := evaluate_settled evaluated
  obtain ⟨bytes, recorded, within⟩ := (short_evaluate accepted clipped evaluated).recorded
  obtain ⟨kept, digest⟩ := settled.readBack_sealed
  exact ⟨decision, bytes, decision.readBack, evaluated, recorded, within, settled.decode recorded,
    kept, digest⟩

theorem evaluate_recordable_plain : ∃ decision bytes decoded,
    QoSFabric.evaluate plainInputs = .ok decision ∧ decision.record = some bytes ∧
      bytes.length ≤ Limits.maxCanonicalRecordBytes ∧
      decodeDecision (.ofBytes bytes) = .ok (decoded, ⟨some []⟩) ∧
      decoded = { decision with decisionDigest := decoded.decisionDigest } ∧
      decoded.computeDecisionDigest = decision.decisionDigest := by
  apply evaluate_recordable
  · rw [← intake_le (show ¬Outcome.rejected ≤ .supported by decide)]
    decide +kernel
  · refine ⟨Nat.zero_le _, Nat.zero_le _, Nat.zero_le _, Nat.zero_le _, ?_, nofun⟩
    intro capability mem
    cases List.mem_singleton.mp mem
    exact Nat.zero_le _

end QoSFabric
