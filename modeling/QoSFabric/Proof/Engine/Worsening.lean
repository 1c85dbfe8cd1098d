import QoSFabric.Proof.Engine.Gist
import Mathlib.Data.Option.Defs

/-!
# Worse evidence

A component that declares worse values for what it declares never improves the verdict. Obligation
by obligation this fails for one kind only: the count of failure domains can be concluded once an
unproven component is disqualified, and then the missing declaration itself holds the verdict.
-/

namespace QoSFabric.Proof.Engine

open Outcome

/-- The second record declares the same attributes, and none of them better. -/
structure Worsens (c c' : ResourceCapability) : Prop where
  rate : Option.Rel (· ≥ ·) c.supportedRateBps c'.supportedRateBps
  burstBytes : Option.Rel (· ≥ ·) c.maxBurstBytes c'.maxBurstBytes
  mtu : Option.Rel (· ≥ ·) c.mtuBytes c'.mtuBytes
  latency : Option.Rel (· ≤ ·) c.latencyBoundUs c'.latencyBoundUs
  jitter : Option.Rel (· ≤ ·) c.jitterBoundUs c'.jitterBoundUs
  loss : Option.Rel (· ≤ ·) c.lossPpm c'.lossPpm
  burstWindow : Option.Rel (· ≤ ·) c.burstWindowUs c'.burstWindowUs
  isolation : c'.maxIsolation.rank ≤ c.maxIsolation.rank
  treatment : c'.maxTreatment.rank ≤ c.maxTreatment.rank
  priority : c'.maxPriorityRank ≤ c.maxPriorityRank
  same : c' = { c with
    supportedRateBps := c'.supportedRateBps
    maxBurstBytes := c'.maxBurstBytes
    mtuBytes := c'.mtuBytes
    latencyBoundUs := c'.latencyBoundUs
    jitterBoundUs := c'.jitterBoundUs
    lossPpm := c'.lossPpm
    burstWindowUs := c'.burstWindowUs
    maxIsolation := c'.maxIsolation
    maxTreatment := c'.maxTreatment
    maxPriorityRank := c'.maxPriorityRank
    digest := c'.digest }

/-- The inputs with another capability record of one component. -/
def worsened (inputs : EvaluationInputs) (index : Nat) (capability : ResourceCapability) :
    EvaluationInputs :=
  { inputs with capabilities := inputs.capabilities.set index (some capability) }

/-! ## Resolutions -/

structure Declines (r r' : Resolution) : Prop where
  same : r' = { r with capability := r'.capability }
  capability : r'.capability = r.capability ∨
    ∃ c c', r.capability = some c ∧ r'.capability = some c' ∧ Worsens c c'

theorem Declines.refl (r : Resolution) : Declines r r := ⟨rfl, .inl rfl⟩

variable {inputs : EvaluationInputs} {index : Nat} {c c' : ResourceCapability}

theorem invalidation_worsens {policy : Policy} {epoch nowMs : UInt64} {component : PathComponent}
    (worse : Worsens c c') :
    invalidation policy epoch nowMs component c' = invalidation policy epoch nowMs component c := by
  rw [worse.same]
  rfl

theorem contradictsDomain_worsens {component : PathComponent} (worse : Worsens c c') :
    contradictsDomain component c' = contradictsDomain component c := by
  rw [worse.same]
  rfl

theorem resolveComponent_declines {policy : Policy} {epoch nowMs : UInt64}
    {component : PathComponent} {reservation : Option Reservation} (worse : Worsens c c') :
    Declines (resolveComponent policy epoch nowMs index component (some c) reservation)
      (resolveComponent policy epoch nowMs index component (some c') reservation) := by
  have state : c'.state = c.state := by rw [worse.same]
  have generation : c'.generation = c.generation := by rw [worse.same]
  have incarnation : c'.incarnation = c.incarnation := by rw [worse.same]
  unfold resolveComponent
  dsimp only
  rw [invalidation_worsens worse, contradictsDomain_worsens worse, state, generation, incarnation]
  cases invalidation policy epoch nowMs component c with
  | some finding => exact ⟨rfl, .inr ⟨c, c', rfl, rfl, worse⟩⟩
  | none =>
      dsimp only
      split
      · exact ⟨rfl, .inr ⟨c, c', rfl, rfl, worse⟩⟩
      · exact ⟨rfl, .inr ⟨c, c', rfl, rfl, worse⟩⟩

theorem resolve_declines (held : inputs.capabilities[index]? = some (some c)) (worse : Worsens c c') :
    List.Forall₂ Declines (resolve inputs) (resolve (worsened inputs index c')) := by
  unfold resolve
  rw [List.forall₂_map_left_iff, List.forall₂_map_right_iff]
  refine List.forall₂_same.mpr ?_
  rintro ⟨component, position⟩ -
  show Declines (resolveAt inputs component position)
    (resolveAt (worsened inputs index c') component position)
  unfold resolveAt worsened
  dsimp only
  by_cases here : position = index
  · subst here
    have bound : position < inputs.capabilities.length := (List.getElem?_eq_some_iff.mp held).1
    have old : inputs.capabilities.getD position none = some c := by
      rw [List.getD_eq_getElem?_getD, held, Option.getD_some]
    have new : (inputs.capabilities.set position (some c')).getD position none = some c' := by
      rw [List.getD_eq_getElem?_getD, List.getElem?_set_self bound, Option.getD_some]
    rw [old, new]
    exact resolveComponent_declines worse
  · have other : (inputs.capabilities.set index (some c')).getD position none =
        inputs.capabilities.getD position none := by
      rw [List.getD_eq_getElem?_getD, List.getD_eq_getElem?_getD,
        List.getElem?_set_ne (Ne.symm here)]
    rw [other]
    exact .refl _

theorem alike_worsened : Alike inputs (worsened inputs index c') := ⟨rfl, rfl, rfl, rfl⟩

/-! ## Values -/

structure ValueDeclines (direction : CompareDirection) (v v' : RawValue) : Prop where
  present : v'.present = v.present
  worse : v.present = true → ∀ limit, compliant direction v'.value limit = true →
    compliant direction v.value limit = true

theorem ValueDeclines.refl (direction : CompareDirection) (v : RawValue) :
    ValueDeclines direction v v := ⟨rfl, fun _ _ h => h⟩

theorem declared_declines_atLeast {a b : UInt64} (le : b ≤ a) :
    ValueDeclines .atLeast (.declared a) (.declared b) := by
  refine ⟨rfl, fun _ limit met => ?_⟩
  have met : limit ≤ b := of_decide_eq_true met
  exact decide_eq_true (UInt64.le_trans met le)

theorem valueDeclines_atLeast {a b : Option UInt64} {detail : String}
    (worse : Option.Rel (· ≥ ·) a b) :
    ValueDeclines .atLeast (.ofOption a detail) (.ofOption b detail) := by
  cases worse with
  | none => exact .refl _ _
  | some le => exact declared_declines_atLeast le

theorem valueDeclines_atMost {a b : Option UInt64} {detail : String}
    (worse : Option.Rel (· ≤ ·) a b) :
    ValueDeclines .atMost (.ofOption a detail) (.ofOption b detail) := by
  cases worse with
  | none => exact .refl _ _
  | @some a b le =>
      refine ⟨rfl, fun _ limit met => ?_⟩
      have met : b ≤ limit := of_decide_eq_true met
      exact decide_eq_true (UInt64.le_trans le met)

theorem rel_toUInt64 {a b : Option UInt32} (worse : Option.Rel (· ≤ ·) a b) :
    Option.Rel (· ≤ ·) (a.map UInt32.toUInt64) (b.map UInt32.toUInt64) := by
  cases worse with
  | none => exact .none
  | some le => exact .some (UInt32.toUInt64_le.mpr le)

theorem capabilityValue_declines {item : ObligationPlan} {r r' : Resolution}
    (worse : Worsens c c') (declines : Declines r r') :
    ValueDeclines item.kind.direction
      (capabilityValue item c r inputs.klass inputs.policy inputs.currentEpoch inputs.nowMs)
      (capabilityValue item c' r' inputs.klass inputs.policy inputs.currentEpoch inputs.nowMs) := by
  have predicates : c'.predicates = c.predicates := by rw [worse.same]
  have selfDeclared : r'.selfDeclaredDegraded = r.selfDeclaredDegraded := by rw [declines.same]
  have reservation : r'.reservation = r.reservation := by rw [declines.same]
  unfold capabilityValue
  cases kind : item.kind
  case minRate | maxRate | peakRate => exact valueDeclines_atLeast worse.rate
  case latency => exact valueDeclines_atMost worse.latency
  case jitter => exact valueDeclines_atMost worse.jitter
  case loss => exact valueDeclines_atMost (rel_toUInt64 worse.loss)
  case burstBytes => exact valueDeclines_atLeast worse.burstBytes
  case burstInterval => exact valueDeclines_atMost worse.burstWindow
  case mtu => exact valueDeclines_atLeast worse.mtu
  case isolation => exact declared_declines_atLeast (UInt8.toUInt64_le.mpr worse.isolation)
  case treatment => exact declared_declines_atLeast (UInt8.toUInt64_le.mpr worse.treatment)
  case priorityRank => exact declared_declines_atLeast (UInt32.toUInt64_le.mpr worse.priority)
  case resourceState =>
    rw [selfDeclared]
    exact .refl _ _
  case reservation =>
    rw [reservation]
    exact .refl _ _
  case predicate =>
    rw [predicates]
    exact .refl _ _
  case disjointPaths => exact .refl _ _

theorem componentValue_declines {item : ObligationPlan} {r r' : Resolution} (declines : Declines r r') :
    ValueDeclines item.kind.direction
      (componentValue item r inputs.klass inputs.policy inputs.currentEpoch inputs.nowMs)
      (componentValue item r' inputs.klass inputs.policy inputs.currentEpoch inputs.nowMs) := by
  unfold componentValue
  rcases declines.capability with same | ⟨c, c', held, held', worse⟩
  · have equal : r' = r := by rw [declines.same, same]
    rw [equal]
    exact .refl _ _
  · rw [held, held']
    exact capabilityValue_declines worse declines

theorem scratchValue_declines {item : ObligationPlan} {r r' : Resolution} (declines : Declines r r') :
    ValueDeclines item.kind.direction (scratchValue inputs item r) (scratchValue inputs item r') := by
  have status : r'.status = r.status := by rw [declines.same]
  unfold scratchValue
  rw [status]
  split
  · exact componentValue_declines declines
  · exact componentValue_declines declines
  · exact .refl _ _

theorem scratch_declines {item : ObligationPlan} {resolutions resolutions' : List Resolution}
    (declines : List.Forall₂ Declines resolutions resolutions') :
    List.Forall₂ (ValueDeclines item.kind.direction) (scratch inputs resolutions item)
      (scratch inputs resolutions' item) := by
  unfold scratch
  rw [List.forall₂_map_left_iff, List.forall₂_map_right_iff]
  exact declines.imp fun _ _ => scratchValue_declines

/-! ## Composition -/

theorem exists_related {α β : Type} {relates : α → β → Prop} {items : List α} {items' : List β}
    (related : List.Forall₂ relates items items') {a : α} (mem : a ∈ items) :
    ∃ b ∈ items', relates a b := by
  induction related with
  | nil => cases mem
  | cons step _ ih =>
      rcases List.mem_cons.mp mem with rfl | later
      · exact ⟨_, List.mem_cons_self, step⟩
      · obtain ⟨b, held, step⟩ := ih later
        exact ⟨b, List.mem_cons_of_mem _ held, step⟩

theorem sum_le_of_forall₂ {values values' : List UInt64}
    (worse : List.Forall₂ (· ≤ ·) values values') :
    (values.map UInt64.toNat).sum ≤ (values'.map UInt64.toNat).sum := by
  induction worse with
  | nil => exact Nat.le_refl _
  | cons le _ ih =>
      simp only [List.map_cons, List.sum_cons]
      exact Nat.add_le_add (UInt64.le_iff_toNat_le.mp le) ih

theorem deliverAll_mono {required : UInt64} {values values' : List UInt64}
    (worse : List.Forall₂ (· ≤ ·) values values')
    (met : ∃ delivery, deliverAll values' = some delivery ∧ ppm - delivery ≤ required) :
    ∃ delivery, deliverAll values = some delivery ∧ ppm - delivery ≤ required := by
  obtain ⟨delivery', run', met⟩ := met
  obtain ⟨final', same, share'⟩ := deliverAll_toNat values'
  obtain rfl : final' = delivery' := Option.some.inj (same.symm.trans run')
  obtain ⟨final, run, share⟩ := deliverAll_toNat values
  have losses : List.Forall₂ (· ≤ ·) (values.map UInt64.toNat) (values'.map UInt64.toNat) := by
    rw [List.forall₂_map_left_iff, List.forall₂_map_right_iff]
    exact worse.imp fun _ _ => UInt64.le_iff_toNat_le.mp
  have less := foldl_delivered_mono losses (Nat.le_refl 1000000)
  rw [← share, ← share'] at less
  have most : final.toNat ≤ ppm.toNat := share ▸ ppm_toNat ▸ foldl_delivered_le
  have most' := Nat.le_trans less most
  refine ⟨final, run, ?_⟩
  rw [UInt64.le_iff_toNat_le, UInt64.toNat_sub_of_le _ _ (UInt64.le_iff_toNat_le.mpr most')] at met
  rw [UInt64.le_iff_toNat_le, UInt64.toNat_sub_of_le _ _ (UInt64.le_iff_toNat_le.mpr most)]
  omega

theorem composes_of_declines {kind : ObligationKind} (ordinary : Ordinary kind)
    {fixed required : UInt64} {values values' : List UInt64}
    (worse : List.Forall₂ (fun v v' => ∀ limit, compliant kind.direction v' limit = true →
      compliant kind.direction v limit = true) values values')
    (met : Composes kind.aggregate fixed required values') :
    Composes kind.aggregate fixed required values := by
  have weakest (direction : kind.direction = .atLeast) (all : ∀ v ∈ values', required ≤ v) :
      ∀ v ∈ values, required ≤ v := by
    intro v mem
    obtain ⟨v', mem', back⟩ := exists_related worse mem
    rw [direction] at back
    exact of_decide_eq_true (back required (decide_eq_true (all v' mem')))
  have ordered (direction : kind.direction = .atMost) : List.Forall₂ (· ≤ ·) values values' := by
    refine worse.imp fun v v' back => ?_
    rw [direction] at back
    exact of_decide_eq_true (back v' (decide_eq_true (UInt64.le_refl v')))
  cases kind
  case disjointPaths => exact absurd rfl ordinary.1
  case resourceState => exact absurd rfl ordinary.2
  case latency | jitter =>
    exact Nat.le_trans (Nat.add_le_add_left (sum_le_of_forall₂ (ordered rfl)) _) met
  case loss => exact deliverAll_mono (ordered rfl) met
  case burstInterval =>
    intro v mem
    obtain ⟨v', mem', le⟩ := exists_related (ordered rfl) mem
    exact UInt64.le_trans le (met v' mem')
  all_goals exact weakest rfl met

/-! ## Obligations -/

theorem Reaches.trans {direction : CompareDirection} {value value' : UInt64} {limit : ℕ}
    (met : Reaches direction value' limit) (better : compliant direction value value' = true) :
    Reaches direction value limit := by
  have better := compliant_iff.mp better
  cases direction with
  | atLeast => exact Nat.le_trans met better
  | atMost => exact Nat.le_trans better met

theorem grade_worse (accepted : Accepted inputs) {item : ObligationPlan}
    (planned : item ∈ buildPlan inputs.klass inputs.policy) {value value' : UInt64}
    (better : compliant item.kind.direction value value' = true) :
    (grade inputs item value).outcome ≤ (grade inputs item value').outcome := by
  have small : item.assessment.requiredValue.toNat ≤ 2 ^ 40 := planned_required_le accepted planned
  have low (status : ObligationStatus) : ObligationStatus.satisfied.outcome ≤ status.outcome := by
    cases status <;> decide
  unfold grade
  rcases verdict_cases accepted.klass small value with
    ⟨-, met⟩ | ⟨missed, uncovered, violated⟩ | ⟨missed, covered, judged⟩
  · rw [met]
    exact low _
  · rcases verdict_cases accepted.klass small value' with
      ⟨met', -⟩ | ⟨-, -, violated'⟩ | ⟨-, covered', -⟩
    · exact absurd (met'.trans better) missed
    · rw [violated, violated']
      decide
    · exact absurd covered' uncovered
  · rcases verdict_cases accepted.klass small value' with
      ⟨met', -⟩ | ⟨-, uncovered', -⟩ | ⟨-, -, judged'⟩
    · exact absurd (met'.trans better) missed
    · exact absurd covered uncovered'
    · by_cases within : Reaches item.assessment.direction value
          (relaxed item.assessment.direction item.assessment.requiredValue
            (permittedWindow inputs.klass inputs.policy))
      · rw [(judged.within within).1]
        by_cases within' : Reaches item.assessment.direction value'
            (relaxed item.assessment.direction item.assessment.requiredValue
              (permittedWindow inputs.klass inputs.policy))
        · rw [(judged'.within within').1]
          decide
        · rcases judged'.past within' with ⟨degraded', -⟩ | ⟨violated', -⟩
          · rw [degraded']
            decide
          · rw [violated']
            decide
      · have past' := judged'.past fun within' => within (within'.trans better)
        rcases judged.past within with ⟨degraded, -, only⟩ | ⟨violated, only⟩
        · rcases past' with ⟨degraded', -⟩ | ⟨-, only'⟩
          · rw [degraded, degraded']
            decide
          · exact absurd only only'
        · rcases past' with ⟨-, -, only'⟩ | ⟨violated', -⟩
          · exact absurd only' only
          · rw [violated, violated']
            decide

theorem compositionGist_worse (accepted : Accepted inputs) {item : ObligationPlan}
    (planned : item ∈ buildPlan inputs.klass inputs.policy) {composition composition' : Composition}
    (composed : composition'.overflow = true ∨ ∃ value, composition'.value = some value)
    (worse : ∀ required, Composed item.kind.direction required composition' →
      Composed item.kind.direction required composition) :
    (compositionGist inputs item composition).outcome ≤
      (compositionGist inputs item composition').outcome := by
  cases bounded' : composition'.overflow with
  | true =>
      rw [compositionGist_overflow bounded']
      exact le_rejected _
  | false =>
      obtain ⟨value', total'⟩ := composed.resolve_left (by rw [bounded']; exact Bool.false_ne_true)
      obtain ⟨bounded, value, total, better⟩ :=
        worse value' ⟨bounded', value', total', compliant_refl _ _⟩
      rw [compositionGist_value bounded total, compositionGist_value bounded' total']
      exact grade_worse accepted planned better

theorem present_iff {direction : CompareDirection} {values values' : List RawValue}
    (declines : List.Forall₂ (ValueDeclines direction) values values') :
    (∀ v ∈ values', v.present = true) ↔ ∀ v ∈ values, v.present = true := by
  induction declines with
  | nil => rfl
  | cons step _ ih => rw [List.forall_mem_cons, List.forall_mem_cons, ih, step.present]

theorem worse_of_present {direction : CompareDirection} {values values' : List RawValue}
    (declines : List.Forall₂ (ValueDeclines direction) values values')
    (present : ∀ v ∈ values, v.present = true) :
    List.Forall₂ (fun v v' => ∀ limit, compliant direction v' limit = true →
      compliant direction v limit = true) (values.map RawValue.value)
      (values'.map RawValue.value) := by
  induction declines with
  | nil => exact .nil
  | cons step _ ih =>
      rw [List.forall_mem_cons] at present
      exact .cons (step.worse present.1) (ih present.2)

theorem ordinaryGist_worse (accepted : Accepted inputs) {item : ObligationPlan}
    (planned : item ∈ buildPlan inputs.klass inputs.policy) (ordinary : Ordinary item.kind)
    {values values' : List RawValue} (covered : values ≠ [])
    (declines : List.Forall₂ (ValueDeclines item.kind.direction) values values')
    (stopped : Option ObligationStatus) :
    (ordinaryGist inputs item stopped values).outcome ≤
      (ordinaryGist inputs item stopped values').outcome := by
  cases stopped with
  | some status => exact Outcome.le_refl _
  | none =>
      unfold ordinaryGist
      dsimp only
      by_cases present : ∀ v ∈ values, v.present = true
      · have present' := (present_iff declines).mpr present
        rw [if_pos present, if_pos present']
        cases declines with
        | nil => exact absurd rfl covered
        | @cons first first' rest rest' step steps =>
            rw [composeValues_of_present present, composeValues_of_present present']
            apply compositionGist_worse accepted planned (composePresent_some ordinary _ _ _)
            intro required
            rw [composePresent_iff ordinary, composePresent_iff ordinary]
            exact composes_of_declines ordinary (worse_of_present (.cons step steps) present)
      · have absent : ¬∀ v ∈ values', v.present = true := fun h => present ((present_iff declines).mp h)
        rw [if_neg present, if_neg absent]
        exact Outcome.le_refl _

/-! ## Failure domains -/

theorem qualifiesFor_declines {r r' : Resolution} (declines : Declines r r') (other : ObligationPlan) :
    qualifiesFor inputs r' other = qualifiesFor inputs r other ∨
      qualifiesFor inputs r' other = .disqualified := by
  have value : ValueDeclines other.kind.direction
      (componentValue other r inputs.klass inputs.policy inputs.currentEpoch inputs.nowMs)
      (componentValue other r' inputs.klass inputs.policy inputs.currentEpoch inputs.nowMs) :=
    componentValue_declines declines
  unfold qualifiesFor
  dsimp only
  generalize componentValue other r inputs.klass inputs.policy inputs.currentEpoch inputs.nowMs = v
    at value ⊢
  generalize componentValue other r' inputs.klass inputs.policy inputs.currentEpoch inputs.nowMs = v'
    at value ⊢
  rw [value.present]
  cases present : v.present with
  | false => exact .inl rfl
  | true =>
      have back := value.worse present
      simp only [Bool.not_true, Bool.false_eq_true, if_false]
      by_cases state : other.kind = .resourceState
      · simp only [if_pos state]
        exact .inl trivial
      simp only [if_neg state]
      by_cases met' : compliant other.kind.direction v'.value other.required = true
      · rw [if_pos met', if_pos (back _ met')]
        exact .inl rfl
      rw [if_neg met']
      by_cases structural :
          (!other.kind.relaxable || !degradationPermitted inputs.klass inputs.policy) = true
      · rw [if_pos structural]
        exact .inr rfl
      rw [if_neg structural]
      cases relaxationDelta other.required (relaxationWindow inputs.klass inputs.policy) with
      | none => exact .inr rfl
      | some delta =>
          dsimp only
          by_cases within' : (compliant other.kind.direction v'.value
              (effectiveLimit other.kind.direction other.required delta) ||
            reportOnly inputs.klass inputs.policy) = true
          · have within : (compliant other.kind.direction v.value
                (effectiveLimit other.kind.direction other.required delta) ||
              reportOnly inputs.klass inputs.policy) = true := by
              rw [Bool.or_eq_true] at within' ⊢
              exact within'.imp_left (back _)
            rw [if_pos within', if_pos within]
            split
            · exact .inl rfl
            · exact .inl rfl
          · rw [if_neg within']
            exact .inr rfl

theorem qualify_declines {r r' : Resolution} (declines : Declines r r') (plan : List ObligationPlan) :
    qualify inputs r' plan = qualify inputs r plan ∨ qualify inputs r' plan = .disqualified := by
  induction plan with
  | nil => exact .inl rfl
  | cons other rest ih =>
      unfold qualify
      split
      · exact ih
      · have standing : qualifiesFor inputs r' other = _ ∨ qualifiesFor inputs r' other = _ :=
          qualifiesFor_declines declines other
        rcases standing with same | disqualified
        · rw [same]
          cases qualifiesFor inputs r other with
          | qualified => exact ih
          | missingEvidence => exact .inl rfl
          | disqualified => exact .inl rfl
        · rw [disqualified]
          exact .inr rfl

variable {plan : List ObligationPlan}

theorem counts_of_declines {r r' : Resolution} (declines : Declines r r')
    (counts : Counts inputs plan r') : Counts inputs plan r := by
  have status : r'.status = r.status := by rw [declines.same]
  refine ⟨by simpa [Resolution.Resolved, status] using counts.1, ?_⟩
  have standing : qualify inputs r' plan = _ ∨ qualify inputs r' plan = _ :=
    qualify_declines declines plan
  rcases standing with same | disqualified
  · rw [← same, counts.2]
  · rw [counts.2] at disqualified
    cases disqualified

theorem unproven_of_declines {r r' : Resolution} (declines : Declines r r')
    (unproven : Unproven inputs plan r') : Unproven inputs plan r := by
  have status : r'.status = r.status := by rw [declines.same]
  rcases unproven with unknown | ⟨resolved, missing⟩
  · exact .inl (status ▸ unknown)
  · refine .inr ⟨by simpa [Resolution.Resolved, status] using resolved, ?_⟩
    have standing : qualify inputs r' plan = _ ∨ qualify inputs r' plan = _ :=
      qualify_declines declines plan
    rcases standing with same | disqualified
    · rw [← same, missing]
    · rw [missing] at disqualified
      cases disqualified

theorem domains_decline {resolutions resolutions' : List Resolution}
    (declines : List.Forall₂ Declines resolutions resolutions') :
    (domains inputs plan resolutions').length ≤ (domains inputs plan resolutions).length := by
  have subset : domains inputs plan resolutions' ⊆ domains inputs plan resolutions := by
    intro domain mem
    obtain ⟨r', held', counts, rfl⟩ := mem_domains.mp mem
    obtain ⟨r, held, declines⟩ := exists_related declines.flip held'
    have declared : r.declaredDomain = r'.declaredDomain := by rw [declines.same]
    exact mem_domains.mpr ⟨r, held, counts_of_declines declines counts, declared⟩
  exact ((List.nodup_dedup _).subperm subset).length_le

theorem absent_of_qualifiesFor {r : Resolution} {other : ObligationPlan}
    (missing : qualifiesFor inputs r other = .missingEvidence) :
    (componentValue other r inputs.klass inputs.policy inputs.currentEpoch inputs.nowMs).present =
      false := by
  unfold qualifiesFor at missing
  dsimp only at missing
  split at missing
  next absent => simpa using absent
  repeat' split at missing
  all_goals cases missing

theorem missing_of_qualify {r : Resolution} (resolved : Resolution.Resolved r)
    (held : r.capability.isSome = true) (missing : qualify inputs r plan = .missingEvidence) :
    ∃ other ∈ plan, Ordinary other.kind ∧ (scratchValue inputs other r).present = false := by
  induction plan with
  | nil => cases missing
  | cons other rest ih =>
      unfold qualify at missing
      split at missing
      · obtain ⟨found, mem, ordinary⟩ := ih missing
        exact ⟨found, List.mem_cons_of_mem _ mem, ordinary⟩
      next pathLevel =>
        cases finding : qualifiesFor inputs r other with
        | qualified =>
            rw [finding] at missing
            obtain ⟨found, mem, ordinary⟩ := ih missing
            exact ⟨found, List.mem_cons_of_mem _ mem, ordinary⟩
        | disqualified =>
            rw [finding] at missing
            cases missing
        | missingEvidence =>
            have absent := absent_of_qualifiesFor finding
            refine ⟨other, List.mem_cons_self, ⟨pathLevel, fun state => ?_⟩, ?_⟩
            · obtain ⟨capability, same⟩ := Option.isSome_iff_exists.mp held
              simp [componentValue, same, capabilityValue, state, RawValue.declared] at absent
            · rcases resolved with status | status <;> simpa [scratchValue, status] using absent

/-! ## The verdict -/

section Verdict

variable {resolutions resolutions' : List Resolution}

theorem declines_statuses (declines : List.Forall₂ Declines resolutions resolutions') :
    resolutions'.map Resolution.status = resolutions.map Resolution.status := by
  induction declines with
  | nil => rfl
  | cons step _ ih => rw [List.map_cons, List.map_cons, ih, step.same]

theorem stateValues_declines (declines : List.Forall₂ Declines resolutions resolutions')
    {item : ObligationPlan} (kind : item.kind = .resourceState) :
    scratch inputs resolutions' item = scratch inputs resolutions item ∧
      resolutions'.any Resolution.selfDeclaredDegraded =
        resolutions.any Resolution.selfDeclaredDegraded := by
  induction declines with
  | nil => exact ⟨rfl, rfl⟩
  | @cons r r' rest rest' step steps ih =>
      have status : r'.status = r.status := by rw [step.same]
      have selfDeclared : r'.selfDeclaredDegraded = r.selfDeclaredDegraded := by rw [step.same]
      have head : scratchValue inputs item r' = scratchValue inputs item r := by
        rcases step.capability with same | ⟨c, c', held, held', -⟩
        · rw [step.same, same]
        · simp [scratchValue, status, componentValue, held, held', capabilityValue, kind, selfDeclared]
      constructor
      · exact congrArg₂ List.cons head ih.1
      · rw [List.any_cons, List.any_cons, selfDeclared, ih.2]

theorem contradictions_declines (declines : List.Forall₂ Declines resolutions resolutions')
    (f : Findings) : contradictions resolutions' f = contradictions resolutions f := by
  unfold contradictions
  induction declines generalizing f with
  | nil => rfl
  | cons step _ ih => rw [List.foldl_cons, List.foldl_cons, ih, step.same]

theorem assessGist_worse (accepted : Accepted inputs) {item : ObligationPlan}
    (planned : item ∈ buildPlan inputs.klass inputs.policy) (kind : item.kind ≠ .disjointPaths)
    (covered : resolutions ≠ []) (declines : List.Forall₂ Declines resolutions resolutions') :
    (assessGist inputs plan resolutions item).outcome ≤
      (assessGist inputs plan resolutions' item).outcome := by
  have statuses := declines_statuses declines
  have composed : Ordinary item.kind →
      (ordinaryGist inputs item (stopping (resolutions.map Resolution.status))
        (scratch inputs resolutions item)).outcome ≤
      (ordinaryGist inputs item (stopping (resolutions'.map Resolution.status))
        (scratch inputs resolutions' item)).outcome := by
    intro ordinary
    rw [statuses]
    refine ordinaryGist_worse accepted planned ordinary ?_ (scratch_declines declines) _
    exact fun none => covered (List.map_eq_nil_iff.mp none)
  unfold assessGist
  cases state : item.kind
  case disjointPaths => exact absurd state kind
  case resourceState =>
    have states : scratch inputs resolutions' item = scratch inputs resolutions item ∧ _ :=
      stateValues_declines declines state
    dsimp only
    rw [statuses, states.1, states.2]
    exact Outcome.le_refl _
  all_goals exact composed ⟨kind, by rw [state]; decide⟩

theorem diversityStatus_worse {required count count' : UInt64} {unproven unproven' : Bool}
    {level : Outcome} (fewer : count' ≤ count) (proven : unproven' = true → unproven = true)
    (concluded : unproven = true → unproven' = false → unknown ≤ level)
    (low : (diversityStatus inputs required count' unproven').outcome ≤ level) :
    (diversityStatus inputs required count unproven).outcome ≤ level := by
  have least : ObligationStatus.satisfied.outcome ≤ level := by
    cases level <;> decide
  unfold diversityStatus at low ⊢
  by_cases enough : count ≥ required
  · rw [if_pos enough]
    exact least
  have short : ¬count' ≥ required := fun reached => enough (UInt64.le_trans reached fewer)
  rw [if_neg enough]
  rw [if_neg short] at low
  cases outstanding : unproven with
  | true =>
      rw [if_pos rfl]
      cases outstanding' : unproven' with
      | true =>
          rw [outstanding', if_pos rfl] at low
          exact low
      | false => exact concluded outstanding outstanding'
  | false =>
      have concluded' : unproven' = false := by
        rw [← Bool.not_eq_true]
        exact fun still => Bool.false_ne_true (outstanding ▸ proven still)
      rw [concluded', if_neg Bool.false_ne_true] at low
      rw [if_neg Bool.false_ne_true]
      have wider (within' : (degradationPermitted inputs.klass inputs.policy &&
            (decide (count' ≥ diversityFloor required (relaxationWindow inputs.klass inputs.policy)) ||
              reportOnly inputs.klass inputs.policy)) = true) :
          (degradationPermitted inputs.klass inputs.policy &&
            (decide (count ≥ diversityFloor required (relaxationWindow inputs.klass inputs.policy)) ||
              reportOnly inputs.klass inputs.policy)) = true := by
        rw [Bool.and_eq_true, Bool.or_eq_true, decide_eq_true_iff] at within' ⊢
        exact within'.imp_right (Or.imp_left (UInt64.le_trans · fewer))
      split at low
      next within' =>
        rw [if_pos (wider within')]
        exact low
      next =>
        split
        · exact Outcome.le_trans (show ObligationStatus.degraded.outcome ≤
            ObligationStatus.violated.outcome by decide) low
        · exact low

theorem unknown_le_stopping {statuses : List ComponentStatus} {status : ObligationStatus}
    (stopped : stopping statuses = some status) : unknown ≤ status.outcome := by
  unfold stopping at stopped
  split_ifs at stopped <;> cases stopped <;> decide

theorem unknown_le_assessGist {item : ObligationPlan} (ordinary : Ordinary item.kind)
    (absent : ∃ r ∈ resolutions, (scratchValue inputs item r).present = false) :
    unknown ≤ (assessGist inputs plan resolutions item).outcome := by
  obtain ⟨r, mem, absent⟩ := absent
  have missing : ¬∀ v ∈ scratch inputs resolutions item, v.present = true := by
    intro present
    rw [present _ (List.mem_map_of_mem mem)] at absent
    cases absent
  have composed : unknown ≤ (ordinaryGist inputs item
      (stopping (resolutions.map Resolution.status)) (scratch inputs resolutions item)).outcome := by
    unfold ordinaryGist
    cases stopped : stopping (resolutions.map Resolution.status) with
    | some status => exact unknown_le_stopping stopped
    | none =>
        dsimp only
        rw [if_neg missing]
        decide
  unfold assessGist
  cases kind : item.kind
  case disjointPaths => exact absurd kind ordinary.1
  case resourceState => exact absurd kind ordinary.2
  all_goals exact composed

end Verdict

theorem intake_worsened : intake (worsened inputs index c') = intake inputs := by
  unfold intake worsened
  dsimp only
  rw [List.length_set]

theorem accepted_worsened : Accepted (worsened inputs index c') ↔ Accepted inputs := by
  have rejects : ¬rejected ≤ conflict := by decide
  rw [← intake_le rejects, ← intake_le rejects, intake_worsened]

theorem prior_worsened (held : inputs.capabilities[index]? = some (some c)) (worse : Worsens c c') :
    prior (worsened inputs index c') = prior inputs := by
  have before (f : Findings) :
      contradictions (resolve (worsened inputs index c')) f = contradictions (resolve inputs) f :=
    contradictions_declines (resolve_declines held worse) f
  unfold prior
  rw [intake_worsened, before]
  rfl

theorem assessGist_worsened (plan : List ObligationPlan) (resolutions : List Resolution)
    (item : ObligationPlan) : assessGist (worsened inputs index c') plan resolutions item =
      assessGist inputs plan resolutions item := by
  unfold assessGist
  rw [alike_worsened.domains, alike_worsened.diversity, alike_worsened.scratch]
  rfl

theorem unknown_of_unproven {resolutions resolutions' : List Resolution} {level : Outcome}
    (declines : List.Forall₂ Declines resolutions resolutions')
    (capable : ∀ r ∈ resolutions, Resolution.Resolved r → r.capability.isSome = true)
    (each : ∀ item ∈ plan, (assessGist inputs plan resolutions' item).outcome ≤ level)
    (unproven : ∃ r ∈ resolutions, Unproven inputs plan r)
    (concluded : ¬∃ r ∈ resolutions', Unproven inputs plan r) : unknown ≤ level := by
  obtain ⟨r, mem, outstanding⟩ := unproven
  obtain ⟨r', mem', step⟩ := exists_related declines mem
  have status : r'.status = r.status := by rw [step.same]
  rcases outstanding with lost | ⟨resolved, missing⟩
  · exact absurd ⟨r', mem', .inl (status ▸ lost)⟩ concluded
  · obtain ⟨item, planned, ordinary, absent⟩ :=
      missing_of_qualify resolved (capable r mem resolved) missing
    refine Outcome.le_trans (unknown_le_assessGist ordinary ⟨r', mem', ?_⟩) (each item planned)
    rw [(scratchValue_declines step).present, absent]

theorem diversityGist_worsened (accepted : Accepted inputs) {required : UInt64} {level : Outcome}
    (declines : List.Forall₂ Declines (resolve inputs) (resolve (worsened inputs index c')))
    (each : ∀ item ∈ plan, (assessGist inputs plan (resolve (worsened inputs index c')) item).outcome ≤
      level)
    (low : (diversityGist inputs required
      (domains inputs plan (resolve (worsened inputs index c'))).length
      (diversity inputs plan (resolve (worsened inputs index c'))).anyUnknown).outcome ≤ level) :
    (diversityGist inputs required (domains inputs plan (resolve inputs)).length
      (diversity inputs plan (resolve inputs)).anyUnknown).outcome ≤ level := by
  refine diversityStatus_worse ?_ ?_ ?_ low
  · have fewer : (domains inputs plan (resolve (worsened inputs index c'))).length ≤ _ :=
      domains_decline declines
    have fits := domains_length_lt accepted plan
    rw [UInt64.le_iff_toNat_le, UInt64.toNat_ofNat_of_lt' fits,
      UInt64.toNat_ofNat_of_lt' (Nat.lt_of_le_of_lt fewer fits)]
    exact fewer
  · rw [diversity_anyUnknown, diversity_anyUnknown]
    rintro ⟨r', mem', unproven⟩
    obtain ⟨r, mem, step⟩ := exists_related declines.flip mem'
    exact ⟨r, mem, unproven_of_declines step unproven⟩
  · rw [← Bool.not_eq_true, diversity_anyUnknown, diversity_anyUnknown]
    refine unknown_of_unproven declines (fun r mem resolved => ?_) each
    obtain ⟨capability, held, -⟩ := resolved_capability mem resolved
    rw [held]
    rfl

/-- Worse evidence never improves the verdict. -/
theorem worsened_le {decision decision' : ContractDecision}
    (held : inputs.capabilities[index]? = some (some c)) (worse : Worsens c c')
    (evaluated : evaluate inputs = .ok decision)
    (evaluated' : evaluate (worsened inputs index c') = .ok decision') :
    decision.outcome ≤ decision'.outcome := by
  by_cases accepted : Accepted inputs
  · have accepted' : Accepted (worsened inputs index c') := accepted_worsened.mpr accepted
    have declines := resolve_declines held worse
    rw [(evaluate_reports accepted evaluated).outcome, (evaluate_reports accepted' evaluated').outcome]
    obtain ⟨before, each⟩ := findings_le_iff.mp
      (Outcome.le_refl (findings (worsened inputs index c')).outcome)
    generalize (findings (worsened inputs index c')).outcome = level at before each
    rw [prior_worsened held worse] at before
    simp only [assessGist_worsened] at each
    refine findings_le_iff.mpr ⟨before, fun item planned => ?_⟩
    by_cases kind : item.kind = .disjointPaths
    · have low := each item planned
      unfold assessGist at low ⊢
      rw [kind] at low ⊢
      exact diversityGist_worsened accepted declines each low
    · exact Outcome.le_trans (assessGist_worse accepted planned kind (resolve_ne_nil accepted) declines)
        (each item planned)
  · have refused' : ¬Accepted (worsened inputs index c') := fun h => accepted (accepted_worsened.mp h)
    rw [evaluate_refused accepted evaluated, evaluate_refused refused' evaluated', rejection_outcome,
      rejection_outcome]
    exact Outcome.le_refl _

/-- The resource of `relaxedInputs`, past the window. -/
def slower : ResourceCapability :=
  { plainCapability with latencyBoundUs := some 1200 }

theorem worsens_slower :
    Worsens { plainCapability with latencyBoundUs := some 1050 } slower where
  rate := .none
  burstBytes := .none
  mtu := .none
  latency := .some (by decide)
  jitter := .none
  loss := .none
  burstWindow := .none
  isolation := UInt8.le_refl _
  treatment := UInt8.le_refl _
  priority := UInt32.le_refl _
  same := rfl

theorem worsened_le_latency : ∃ decision decision', evaluate relaxedInputs = .ok decision ∧
    evaluate (worsened relaxedInputs 0 slower) = .ok decision' ∧
    decision.outcome ≤ decision'.outcome := by
  obtain ⟨decision, evaluated⟩ := evaluate_ok relaxedInputs
  obtain ⟨decision', evaluated'⟩ := evaluate_ok (worsened relaxedInputs 0 slower)
  exact ⟨decision, decision', evaluated, evaluated',
    worsened_le rfl worsens_slower evaluated evaluated'⟩

end QoSFabric.Proof.Engine
