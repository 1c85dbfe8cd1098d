import QoSFabric.Proof.Engine.Obligations
import Mathlib.Algebra.Order.Floor.Div
import Mathlib.Data.Nat.Dist

/-!
# The relaxation window

The window arithmetic is exact over the whole numeric domain the validators admit: a requirement
scaled by a window never overflows, and what is reported as applied never exceeds the window.
-/

namespace QoSFabric.Proof.Engine

variable {inputs : EvaluationInputs}

/-! ## Requirements -/

theorem required_le_of_push {kind : ObligationKind} {required : Option UInt64}
    {item : ObligationPlan} (bound : UInt64) (small : bound.toNat ≤ 2 ^ 40)
    (limit : ∀ v, required = some v → ¬bound < v) (mem : item ∈ push kind required) :
    item.required.toNat ≤ 2 ^ 40 := by
  obtain ⟨value, declared, rfl⟩ := Option.map_eq_some_iff.mp (Option.mem_toList.mp mem)
  have below := UInt64.le_iff_toNat_le.mp (UInt64.not_lt.mp (limit value declared))
  exact Nat.le_trans below small

theorem required_le {klass : QoSClass} {policy : Policy} (valid : validateQoSClass klass = .ok ())
    {item : ObligationPlan} (mem : item ∈ pushedPlan klass policy) :
    item.required.toNat ≤ 2 ^ 40 := by
  simp only [validateQoSClass, refuse_bind_eq_ok, checkKeys_bind_eq_ok, exceeds_eq_false] at valid
  obtain ⟨-, -, -, minRate, maxRate, peakRate, -, -, -, latency, jitter, -, loss, burst, interval, -,
    mtu, -⟩ := valid
  have mem := mem_pushedPlan.mp mem
  revert mem
  cases item.kind with
  | minRate => exact required_le_of_push _ (by decide) minRate
  | maxRate => exact required_le_of_push _ (by decide) maxRate
  | peakRate => exact required_le_of_push _ (by decide) peakRate
  | latency => exact required_le_of_push _ (by decide) latency
  | jitter => exact required_le_of_push _ (by decide) jitter
  | loss =>
      refine required_le_of_push Limits.maxLossPpm.toUInt64 (by decide) ?_
      intro v declared
      obtain ⟨share, stated, rfl⟩ := Option.map_eq_some_iff.mp declared
      exact fun above => loss share stated (UInt32.toUInt64_lt.mp above)
  | burstBytes => exact required_le_of_push _ (by decide) burst
  | burstInterval => exact required_le_of_push _ (by decide) interval
  | mtu => exact required_le_of_push _ (by decide) mtu
  | reservation =>
      refine required_le_of_push Limits.maxRateBps (by decide) ?_
      intro v declared
      split at declared
      · exact minRate v declared
      · cases declared
  | isolation =>
      intro mem
      rw [List.mem_singleton.mp mem]
      cases klass.isolation <;> decide
  | treatment =>
      intro mem
      rw [List.mem_singleton.mp mem]
      cases klass.treatment <;> decide
  | priorityRank =>
      intro mem
      rw [List.mem_singleton.mp mem]
      exact Nat.le_trans (Nat.le_of_lt klass.minPriorityRank.toNat_lt) (by decide)
  | disjointPaths =>
      intro mem
      rw [List.mem_singleton.mp mem]
      exact Nat.le_trans (Nat.le_of_lt klass.minDisjointPaths.toNat_lt) (by decide)
  | predicate =>
      intro mem
      obtain ⟨key, -, rfl⟩ := List.mem_map.mp mem
      show (1 : UInt64).toNat ≤ 2 ^ 40
      decide
  | resourceState =>
      intro mem
      rw [List.mem_singleton.mp mem]
      decide

theorem planned_required_le (accepted : Accepted inputs) {item : ObligationPlan}
    (planned : item ∈ buildPlan inputs.klass inputs.policy) : item.required.toNat ≤ 2 ^ 40 :=
  required_le accepted.klass ((mem_pushedPlan_iff (validateQoSClass_ok accepted.klass)
    (validatePolicy_ok accepted.policy)).mpr (.inl planned))

/-! ## The window -/

def permittedWindow (klass : QoSClass) (policy : Policy) : ℕ :=
  if klass.allowDegrade = true ∧ policy.degradePermitted = true ∧ klass.violationPolicy ≠ .reject then
    min klass.degradeMaxRelaxationPpm.toNat policy.maxRelaxationPpm.toNat
  else 0

theorem degradationPermitted_iff {klass : QoSClass} {policy : Policy} :
    degradationPermitted klass policy = true ↔ klass.allowDegrade = true ∧
      policy.degradePermitted = true ∧ klass.violationPolicy ≠ .reject := by
  simp only [degradationPermitted, Bool.and_eq_true, bne_iff_ne, and_assoc]

theorem relaxationWindow_toNat (klass : QoSClass) (policy : Policy) :
    (relaxationWindow klass policy).toNat = permittedWindow klass policy := by
  unfold relaxationWindow permittedWindow
  simp only [← degradationPermitted_iff]
  split
  · rw [UInt32.toNat_min]
  · rfl

theorem permittedWindow_le {klass : QoSClass} {policy : Policy}
    (valid : validateQoSClass klass = .ok ()) : permittedWindow klass policy ≤ 1000000 := by
  simp only [validateQoSClass, refuse_bind_eq_ok, checkKeys_bind_eq_ok] at valid
  obtain ⟨-, -, -, -, -, -, -, -, -, -, -, -, -, -, -, -, -, -, -, -, -, -, window, -⟩ := valid
  have window := UInt32.le_iff_toNat_le.mp
    (UInt32.not_lt.mp (decide_eq_false_iff_not.mp window))
  unfold permittedWindow
  split
  · exact Nat.le_trans (Nat.min_le_left _ _) window
  · exact Nat.zero_le _

def slack (required : UInt64) (window : ℕ) : ℕ := required.toNat * window / 1000000

theorem slack_le {required : UInt64} {window : ℕ} (narrow : window ≤ 1000000) :
    slack required window ≤ required.toNat :=
  Nat.div_le_of_le_mul (by rw [Nat.mul_comm 1000000]; exact Nat.mul_le_mul_left _ narrow)

theorem scaled_lt {required : UInt64} {window : ℕ} (small : required.toNat ≤ 2 ^ 40)
    (narrow : window ≤ 1000000) : required.toNat * window < 2 ^ 64 :=
  Nat.lt_of_le_of_lt (Nat.mul_le_mul small narrow) (by decide)

theorem relaxationDelta_eq {required : UInt64} {window : UInt32} (small : required.toNat ≤ 2 ^ 40)
    (narrow : window.toNat ≤ 1000000) :
    ∃ delta, relaxationDelta required window = some delta ∧
      delta.toNat = slack required window.toNat := by
  obtain ⟨product, eq, value⟩ := checkedMul_of_lt (a := required) (b := window.toUInt64)
    (by rw [UInt32.toNat_toUInt64]; exact scaled_lt small narrow)
  refine ⟨product / ppm, by rw [relaxationDelta, eq, Option.map_some], ?_⟩
  rw [UInt64.toNat_div, value, UInt32.toNat_toUInt64, ppm_toNat, slack]

def Reaches (direction : CompareDirection) (value : UInt64) (limit : ℕ) : Prop :=
  match direction with
  | .atLeast => limit ≤ value.toNat
  | .atMost => value.toNat ≤ limit

theorem compliant_iff {direction : CompareDirection} {value limit : UInt64} :
    compliant direction value limit = true ↔ Reaches direction value limit.toNat := by
  cases direction <;>
    simp only [compliant, Reaches, decide_eq_true_eq, ge_iff_le, UInt64.le_iff_toNat_le]

theorem compliant_refl (direction : CompareDirection) (value : UInt64) :
    compliant direction value value = true := by
  cases direction <;> exact decide_eq_true (UInt64.le_refl value)

theorem compliant_antisymm {direction : CompareDirection} {a b : UInt64}
    (first : compliant direction a b = true) (second : compliant direction b a = true) : a = b := by
  cases direction with
  | atLeast => exact UInt64.le_antisymm (of_decide_eq_true second) (of_decide_eq_true first)
  | atMost => exact UInt64.le_antisymm (of_decide_eq_true first) (of_decide_eq_true second)

def relaxed (direction : CompareDirection) (required : UInt64) (window : ℕ) : ℕ :=
  match direction with
  | .atLeast => required.toNat - slack required window
  | .atMost => required.toNat + slack required window

theorem effectiveLimit_toNat {direction : CompareDirection} {required delta : UInt64}
    {window : ℕ} (small : required.toNat ≤ 2 ^ 40) (narrow : window ≤ 1000000)
    (value : delta.toNat = slack required window) :
    (effectiveLimit direction required delta).toNat = relaxed direction required window := by
  have bound : slack required window ≤ required.toNat := slack_le narrow
  rw [← value] at bound
  cases direction with
  | atLeast =>
      have least : min delta required = delta := if_pos (UInt64.le_iff_toNat_le.mpr bound)
      rw [effectiveLimit, least, UInt64.toNat_sub_of_le _ _ (UInt64.le_iff_toNat_le.mpr bound), value,
        relaxed]
  | atMost =>
      rw [effectiveLimit, UInt64.toNat_add, value, relaxed, Nat.mod_eq_of_lt]
      omega

/-! ## What is reported as applied -/

theorem ceilDiv_eq {a b : ℕ} (pos : 0 < b) :
    a ⌈/⌉ b = if a % b = 0 then a / b else a / b + 1 := by
  have split := Nat.div_add_mod' a b
  have remainder := Nat.mod_lt a pos
  rw [Nat.ceilDiv_eq_add_pred_div]
  by_cases exact : a % b = 0
  · rw [if_pos exact]
    apply Nat.div_eq_of_lt_le
    · omega
    · rw [Nat.add_mul]
      omega
  · rw [if_neg exact]
    apply Nat.div_eq_of_lt_le
    · rw [Nat.add_mul]
      omega
    · rw [Nat.add_mul, Nat.add_mul]
      omega

theorem checkedCeilDiv_eq {a b : UInt64} (pos : 0 < b.toNat) :
    ∃ q, checkedCeilDiv a b = some q ∧ q.toNat = a.toNat ⌈/⌉ b.toNat := by
  have nonzero : b ≠ 0 := by
    rintro rfl
    exact Nat.lt_irrefl 0 pos
  have remainder : (a % b).toNat = a.toNat % b.toNat := UInt64.toNat_mod a b
  have quotient : (a / b).toNat = a.toNat / b.toNat := UInt64.toNat_div a b
  unfold checkedCeilDiv
  rw [if_neg nonzero, ceilDiv_eq pos, ← remainder, ← quotient]
  dsimp only
  by_cases exact : a % b = 0
  · rw [if_neg (not_not.mpr exact), exact]
    exact ⟨_, rfl, rfl⟩
  · have inexact : (a % b).toNat ≠ 0 := fun zero => exact (UInt64.toNat_inj.mp zero)
    -- A remainder needs a divisor of at least two, which keeps the quotient below the maximum.
    have two : 2 ≤ b.toNat := by
      have below := Nat.mod_lt a.toNat pos
      omega
    have half : a.toNat / b.toNat ≤ a.toNat / 2 := Nat.div_le_div_left two (by decide)
    have bound := a.toNat_lt
    have room : a / b ≠ maxUInt64 := by
      intro top
      rw [top] at quotient
      have largest : maxUInt64.toNat = 2 ^ 64 - 1 := by decide
      omega
    rw [if_pos exact, if_neg room, if_neg inexact]
    refine ⟨_, rfl, ?_⟩
    rw [UInt64.toNat_add, UInt64.toNat_one, Nat.mod_eq_of_lt]
    omega

theorem relativePpm_eq {required shortfall : UInt64} (small : required.toNat ≤ 2 ^ 40)
    (within : shortfall.toNat ≤ required.toNat) :
    ∃ applied, relativePpm required shortfall = some applied ∧
      applied.toNat = shortfall.toNat * 1000000 ⌈/⌉ required.toNat := by
  unfold relativePpm
  by_cases met : shortfall = 0
  · exact ⟨0, if_pos met, by simp [met]⟩
  have missed : 0 < shortfall.toNat := Nat.pos_of_ne_zero fun zero => met (UInt64.toNat_inj.mp zero)
  have positive : 0 < required.toNat := Nat.lt_of_lt_of_le missed within
  have nonzero : required ≠ 0 := by
    rintro rfl
    exact Nat.lt_irrefl 0 positive
  have scale : (1000000 : UInt64).toNat = 1000000 := by decide
  obtain ⟨scaled, product, value⟩ := checkedMul_of_lt (a := shortfall) (b := 1000000)
    (by rw [scale]; exact scaled_lt (Nat.le_trans within small) (Nat.le_refl _))
  obtain ⟨share, divided, rounded⟩ := checkedCeilDiv_eq (a := scaled) positive
  rw [value, scale] at rounded
  have most : share.toNat ≤ 1000000 := by
    rw [rounded, ceilDiv_le_iff_le_mul positive]
    exact Nat.mul_le_mul_right _ within
  have fits : ¬share > 1000000 := by
    rw [gt_iff_lt, UInt64.not_lt, UInt64.le_iff_toNat_le, scale]
    exact most
  rw [if_neg met, if_neg nonzero, product]
  dsimp only
  rw [divided]
  refine ⟨_, rfl, ?_⟩
  dsimp only
  rw [if_neg fits, UInt64.toNat_toUInt32, ← rounded, Nat.mod_eq_of_lt]
  omega

/-! ## Verdicts -/

def verdict (inputs : EvaluationInputs) (a : ObligationAssessment) (composed : UInt64) :
    ObligationAssessment :=
  if compliant a.direction composed a.requiredValue then
    { a with
      status := .satisfied
      headroomPpm := computeHeadroom a.direction a.requiredValue composed }
  else assessShortfall inputs a composed

structure Assesses (item : ObligationPlan) (a : ObligationAssessment) : Prop where
  kind : a.kind = item.kind
  required : a.requiredValue = item.required
  direction : a.direction = item.kind.direction
  relaxable : a.relaxable = item.kind.relaxable
  reported : a.relaxationReportedOnly = false

theorem assessShortfall_composedValue (a : ObligationAssessment) (composed : UInt64) :
    (assessShortfall inputs a composed).composedValue = a.composedValue := by
  unfold assessShortfall
  dsimp only
  repeat' split
  all_goals rfl

theorem assessComposition_composed {resolutions : List Resolution} {item : ObligationPlan}
    {composition : Composition} {value : UInt64}
    (composed : (assessComposition inputs resolutions item composition).assessment.composedValue =
      some value) :
    ∃ a, Assesses item a ∧
      (assessComposition inputs resolutions item composition).assessment = verdict inputs a value := by
  unfold assessComposition at composed ⊢
  cases overflow : composition.overflow with
  | true =>
      rw [overflow] at composed
      cases composed
  | false =>
      rw [overflow, if_neg Bool.false_ne_true] at composed
      rw [if_neg Bool.false_ne_true]
      cases total : composition.value with
      | none =>
          rw [total] at composed
          cases composed
      | some result =>
          rw [total] at composed
          dsimp only at composed ⊢
          refine ⟨{ item.assessment with
            composedValue := some result
            bindingResource := resourceAt resolutions composition.bindingIndex
            weakestResource := resourceAt resolutions composition.weakestIndex },
            ⟨rfl, rfl, rfl, rfl, rfl⟩, ?_⟩
          obtain rfl : result = value := by
            split at composed
            · exact Option.some.inj composed
            · exact Option.some.inj ((assessShortfall_composedValue _ _).symm.trans composed)
          rw [verdict]
          split <;> rfl

theorem assessOrdinary_composed {resolutions : List Resolution} {item : ObligationPlan}
    {value : UInt64}
    (composed : (assessOrdinary inputs resolutions item).assessment.composedValue = some value) :
    ∃ a, Assesses item a ∧
      (assessOrdinary inputs resolutions item).assessment = verdict inputs a value := by
  unfold assessOrdinary at composed ⊢
  cases stopped : blocked resolutions with
  | some finding =>
      rw [stopped] at composed
      cases composed
  | none =>
      rw [stopped] at composed
      dsimp only at composed ⊢
      cases missing : (scratch inputs resolutions item).findIdx? (!·.present) with
      | some index =>
          rw [missing] at composed
          cases composed
      | none =>
          rw [missing] at composed
          exact assessComposition_composed composed

/-- The verdict on a composed value follows the window exactly. -/
structure ExactWindow (inputs : EvaluationInputs) (a : ObligationAssessment) (value : UInt64) :
    Prop where
  satisfied : a.status = .satisfied ↔ Reaches a.kind.direction value a.requiredValue.toNat
  degraded : a.status = .degraded ∧ a.relaxationReportedOnly = false ↔
    a.kind.relaxable = true ∧ 0 < permittedWindow inputs.klass inputs.policy ∧
      ¬Reaches a.kind.direction value a.requiredValue.toNat ∧
      Reaches a.kind.direction value (relaxed a.kind.direction a.requiredValue
        (permittedWindow inputs.klass inputs.policy))
  reported : a.status = .degraded ∧ a.relaxationReportedOnly = true ↔
    a.kind.relaxable = true ∧ 0 < permittedWindow inputs.klass inputs.policy ∧
      inputs.klass.violationPolicy = .reportOnly ∧
      ¬Reaches a.kind.direction value (relaxed a.kind.direction a.requiredValue
        (permittedWindow inputs.klass inputs.policy))
  violated : a.status = .violated ↔ a.status ≠ .satisfied ∧ a.status ≠ .degraded
  applied : a.status = .degraded → a.relaxationReportedOnly = false →
    a.relaxationAppliedPpm.toNat =
        Nat.dist value.toNat a.requiredValue.toNat * 1000000 ⌈/⌉ a.requiredValue.toNat ∧
      0 < a.relaxationAppliedPpm ∧
      a.relaxationAppliedPpm.toNat ≤ permittedWindow inputs.klass inputs.policy
  product : a.requiredValue.toNat * permittedWindow inputs.klass inputs.policy < 2 ^ 64
  sum : a.requiredValue.toNat +
    slack a.requiredValue (permittedWindow inputs.klass inputs.policy) < 2 ^ 64

theorem Reaches.widen {direction : CompareDirection} {value required : UInt64} {window : ℕ}
    (met : Reaches direction value required.toNat) :
    Reaches direction value (relaxed direction required window) := by
  cases direction with
  | atLeast => exact Nat.le_trans (Nat.sub_le _ _) met
  | atMost => exact Nat.le_trans met (Nat.le_add_right _ _)

theorem reportOnly_iff {klass : QoSClass} {policy : Policy}
    (permitted : degradationPermitted klass policy = true) :
    reportOnly klass policy = true ↔ klass.violationPolicy = .reportOnly := by
  obtain ⟨allowed, degrades, -⟩ := degradationPermitted_iff.mp permitted
  simp only [reportOnly, allowed, degrades, Bool.and_true, beq_iff_eq]

theorem dist_le_slack {direction : CompareDirection} {value required : UInt64} {window : ℕ}
    (missed : ¬Reaches direction value required.toNat)
    (within : Reaches direction value (relaxed direction required window)) :
    Nat.dist value.toNat required.toNat ≤ slack required window := by
  cases direction with
  | atLeast =>
      have below : value.toNat ≤ required.toNat := Nat.le_of_not_le missed
      have least : required.toNat - slack required window ≤ value.toNat := within
      rw [Nat.dist_eq_sub_of_le below]
      omega
  | atMost =>
      have above : required.toNat ≤ value.toNat := Nat.le_of_not_le missed
      have most : value.toNat ≤ required.toNat + slack required window := within
      rw [Nat.dist_eq_sub_of_le_right above]
      omega

theorem shortfall_le {direction : CompareDirection} {value required : UInt64} {window : ℕ}
    (missed : ¬Reaches direction value required.toNat)
    (within : Reaches direction value (relaxed direction required window)) :
    Nat.dist value.toNat required.toNat * 1000000 ≤ required.toNat * window := by
  exact Nat.le_trans (Nat.mul_le_mul_right _ (dist_le_slack missed within))
    (Nat.div_mul_le_self _ _)

theorem assessShortfall_kept (a : ObligationAssessment) (composed : UInt64) :
    (assessShortfall inputs a composed).kind = a.kind ∧
      (assessShortfall inputs a composed).id = a.id ∧
      (assessShortfall inputs a composed).requiredValue = a.requiredValue := by
  unfold assessShortfall
  dsimp only
  repeat' split
  all_goals exact ⟨rfl, rfl, rfl⟩

theorem relaxationWindow_eq_zero {klass : QoSClass} {policy : Policy} :
    relaxationWindow klass policy = 0 ↔ permittedWindow klass policy = 0 := by
  rw [← relaxationWindow_toNat, ← UInt32.toNat_inj]
  rfl

theorem permitted_of_window {klass : QoSClass} {policy : Policy}
    (window : 0 < permittedWindow klass policy) : degradationPermitted klass policy = true := by
  unfold permittedWindow at window
  rw [degradationPermitted_iff]
  split at window
  · assumption
  · exact absurd window (Nat.lt_irrefl 0)

theorem assessShortfall_uncovered {a : ObligationAssessment} {value : UInt64}
    (uncovered : ¬(a.relaxable = true ∧ 0 < permittedWindow inputs.klass inputs.policy)) :
    (assessShortfall inputs a value).status = .violated := by
  unfold assessShortfall
  dsimp only
  by_cases structural : (!a.relaxable) = true
  · rw [if_pos structural]
  · rw [if_neg structural]
    have relaxable : a.relaxable = true := by simpa using structural
    have none : relaxationWindow inputs.klass inputs.policy = 0 := by
      rw [relaxationWindow_eq_zero]
      exact Nat.eq_zero_of_not_pos fun window => uncovered ⟨relaxable, window⟩
    rw [none, beq_self_eq_true, Bool.or_true, if_pos rfl]

structure Covered (inputs : EvaluationInputs) (a judged : ObligationAssessment) (value : UInt64) :
    Prop where
  within : Reaches a.direction value (relaxed a.direction a.requiredValue
      (permittedWindow inputs.klass inputs.policy)) →
    judged.status = .degraded ∧ judged.relaxationReportedOnly = a.relaxationReportedOnly ∧
      judged.relaxationAppliedPpm.toNat =
        Nat.dist value.toNat a.requiredValue.toNat * 1000000 ⌈/⌉ a.requiredValue.toNat
  past : ¬Reaches a.direction value (relaxed a.direction a.requiredValue
      (permittedWindow inputs.klass inputs.policy)) →
    (judged.status = .degraded ∧ judged.relaxationReportedOnly = true ∧
      inputs.klass.violationPolicy = .reportOnly) ∨
    (judged.status = .violated ∧ inputs.klass.violationPolicy ≠ .reportOnly)

def shortfall (direction : CompareDirection) (required value : UInt64) : UInt64 :=
  match direction with
  | .atLeast => required - value
  | .atMost => value - required

theorem shortfall_toNat {direction : CompareDirection} {required value : UInt64}
    (missed : ¬Reaches direction value required.toNat) :
    (shortfall direction required value).toNat = Nat.dist value.toNat required.toNat := by
  cases direction with
  | atLeast =>
      have below : value.toNat ≤ required.toNat := Nat.le_of_not_le missed
      rw [Nat.dist_eq_sub_of_le below]
      exact UInt64.toNat_sub_of_le _ _ (UInt64.le_iff_toNat_le.mpr below)
  | atMost =>
      have above : required.toNat ≤ value.toNat := Nat.le_of_not_le missed
      rw [Nat.dist_eq_sub_of_le_right above]
      exact UInt64.toNat_sub_of_le _ _ (UInt64.le_iff_toNat_le.mpr above)

theorem assessShortfall_covered {a : ObligationAssessment} {value : UInt64}
    (valid : validateQoSClass inputs.klass = .ok ()) (small : a.requiredValue.toNat ≤ 2 ^ 40)
    (relaxable : a.relaxable = true) (window : 0 < permittedWindow inputs.klass inputs.policy)
    (missed : ¬Reaches a.direction value a.requiredValue.toNat) :
    Covered inputs a (assessShortfall inputs a value) value := by
  have permitted := permitted_of_window window
  have open' : (relaxationWindow inputs.klass inputs.policy == 0) = false := by
    rw [beq_eq_false_iff_ne, ne_eq, relaxationWindow_eq_zero]
    exact Nat.ne_of_gt window
  have narrow : (relaxationWindow inputs.klass inputs.policy).toNat ≤ 1000000 := by
    rw [relaxationWindow_toNat]
    exact permittedWindow_le valid
  obtain ⟨delta, scaled, worth⟩ := relaxationDelta_eq small narrow
  have limit : compliant a.direction value (effectiveLimit a.direction a.requiredValue delta) = true ↔
      Reaches a.direction value (relaxed a.direction a.requiredValue
        (permittedWindow inputs.klass inputs.policy)) := by
    rw [compliant_iff, effectiveLimit_toNat small narrow worth, relaxationWindow_toNat]
  have short := shortfall_toNat missed
  unfold assessShortfall
  dsimp only
  rw [relaxable, permitted, open', scaled]
  simp only [Bool.not_true, Bool.false_eq_true, if_false, Bool.or_self]
  by_cases within : compliant a.direction value
      (effectiveLimit a.direction a.requiredValue delta) = true
  · rw [if_pos within]
    refine ⟨fun _ => ⟨rfl, rfl, ?_⟩, fun past => absurd (limit.mp within) past⟩
    have inside := Nat.le_trans (dist_le_slack missed (limit.mp within))
      (slack_le (permittedWindow_le valid))
    rw [← short] at inside
    obtain ⟨applied, reported, share⟩ := relativePpm_eq small inside
    show ((relativePpm a.requiredValue (shortfall a.direction a.requiredValue value)).getD
      1000000).toNat = _
    rw [reported, Option.getD_some, share, short]
  · rw [if_neg within]
    refine ⟨fun inside => absurd (limit.mpr inside) within, fun _ => ?_⟩
    by_cases reports : reportOnly inputs.klass inputs.policy = true
    · rw [if_pos reports]
      exact .inl ⟨rfl, rfl, (reportOnly_iff permitted).mp reports⟩
    · rw [if_neg reports]
      exact .inr ⟨rfl, fun only => reports ((reportOnly_iff permitted).mpr only)⟩

theorem verdict_kept (a : ObligationAssessment) (value : UInt64) :
    (verdict inputs a value).kind = a.kind ∧
      (verdict inputs a value).requiredValue = a.requiredValue := by
  unfold verdict
  split
  · exact ⟨rfl, rfl⟩
  · exact ⟨(assessShortfall_kept a value).1, (assessShortfall_kept a value).2.2⟩

theorem applied_within {direction : CompareDirection} {value required : UInt64} {window : ℕ}
    (missed : ¬Reaches direction value required.toNat)
    (within : Reaches direction value (relaxed direction required window))
    (narrow : window ≤ 1000000) :
    0 < Nat.dist value.toNat required.toNat * 1000000 ⌈/⌉ required.toNat ∧
      Nat.dist value.toNat required.toNat * 1000000 ⌈/⌉ required.toNat ≤ window := by
  have apart : 0 < Nat.dist value.toNat required.toNat := by
    apply Nat.dist_pos_of_ne
    intro same
    apply missed
    cases direction with
    | atLeast => exact same.ge
    | atMost => exact same.le
  have positive : 0 < required.toNat :=
    Nat.lt_of_lt_of_le apart (Nat.le_trans (dist_le_slack missed within) (slack_le narrow))
  constructor
  · rw [← Nat.not_le, ceilDiv_le_iff_le_mul positive]
    omega
  · rw [ceilDiv_le_iff_le_mul positive]
    exact shortfall_le missed within

theorem verdict_cases {a : ObligationAssessment} (valid : validateQoSClass inputs.klass = .ok ())
    (small : a.requiredValue.toNat ≤ 2 ^ 40) (value : UInt64) :
    (Reaches a.direction value a.requiredValue.toNat ∧
      (verdict inputs a value).status = .satisfied) ∨
    (¬Reaches a.direction value a.requiredValue.toNat ∧
      ¬(a.relaxable = true ∧ 0 < permittedWindow inputs.klass inputs.policy) ∧
      (verdict inputs a value).status = .violated) ∨
    (¬Reaches a.direction value a.requiredValue.toNat ∧
      (a.relaxable = true ∧ 0 < permittedWindow inputs.klass inputs.policy) ∧
      Covered inputs a (verdict inputs a value) value) := by
  unfold verdict
  by_cases met : compliant a.direction value a.requiredValue = true
  · rw [if_pos met]
    exact .inl ⟨compliant_iff.mp met, rfl⟩
  · have missed := fun reached => met (compliant_iff.mpr reached)
    rw [if_neg met]
    by_cases covered : a.relaxable = true ∧ 0 < permittedWindow inputs.klass inputs.policy
    · exact .inr (.inr ⟨missed, covered,
        assessShortfall_covered valid small covered.1 covered.2 missed⟩)
    · exact .inr (.inl ⟨missed, covered, assessShortfall_uncovered covered⟩)

theorem verdict_exact {item : ObligationPlan} {a : ObligationAssessment} (assesses : Assesses item a)
    (accepted : Accepted inputs) (mem : item ∈ buildPlan inputs.klass inputs.policy)
    (value : UInt64) : ExactWindow inputs (verdict inputs a value) value := by
  have small : a.requiredValue.toNat ≤ 2 ^ 40 := by
    rw [assesses.required]
    exact planned_required_le accepted mem
  have narrow : permittedWindow inputs.klass inputs.policy ≤ 1000000 :=
    permittedWindow_le accepted.klass
  have product := scaled_lt small narrow
  have sum : a.requiredValue.toNat + slack a.requiredValue
      (permittedWindow inputs.klass inputs.policy) < 2 ^ 64 := by
    have within : slack a.requiredValue _ ≤ a.requiredValue.toNat := slack_le narrow
    omega
  have kind : (verdict inputs a value).kind = a.kind := (verdict_kept a value).1
  have required : (verdict inputs a value).requiredValue = a.requiredValue :=
    (verdict_kept a value).2
  have direction : a.direction = a.kind.direction := by rw [assesses.direction, assesses.kind]
  have relaxable : a.relaxable = a.kind.relaxable := by rw [assesses.relaxable, assesses.kind]
  rw [← required] at product sum
  rcases verdict_cases accepted.klass small value with
    ⟨met, judged⟩ | ⟨missed, uncovered, judged⟩ | ⟨missed, covered, judged⟩
  · rw [direction, ← kind, ← required] at met
    refine ⟨iff_of_true judged met, iff_of_false ?_ ?_, iff_of_false ?_ ?_, ?_, ?_, product, sum⟩
    · simp [judged]
    · exact fun shape => shape.2.2.1 met
    · simp [judged]
    · exact fun shape => shape.2.2.2 met.widen
    · simp [judged]
    · simp [judged]
  · rw [direction, ← kind, ← required] at missed
    rw [relaxable, ← kind] at uncovered
    refine ⟨iff_of_false ?_ missed, iff_of_false ?_ ?_, iff_of_false ?_ ?_, ?_, ?_, product, sum⟩
    · simp [judged]
    · simp [judged]
    · exact fun shape => uncovered ⟨shape.1, shape.2.1⟩
    · simp [judged]
    · exact fun shape => uncovered ⟨shape.1, shape.2.1⟩
    · simp [judged]
    · simp [judged]
  · by_cases within : Reaches a.direction value
        (relaxed a.direction a.requiredValue (permittedWindow inputs.klass inputs.policy))
    · obtain ⟨degraded, reported, applied⟩ := judged.within within
      rw [assesses.reported] at reported
      have share := applied_within missed within narrow
      rw [← applied] at share
      rw [direction, ← kind, ← required] at missed within
      rw [relaxable, ← kind] at covered
      rw [← required] at applied
      refine ⟨iff_of_false ?_ missed, iff_of_true ⟨degraded, reported⟩ ?_, iff_of_false ?_ ?_, ?_,
        fun _ _ => ⟨applied, UInt32.pos_iff_ne_zero.mpr ?_, share.2⟩, product, sum⟩
      · simp [degraded]
      · exact ⟨covered.1, covered.2, missed, within⟩
      · simp [reported]
      · exact fun shape => shape.2.2.2 within
      · simp [degraded]
      · intro zero
        rw [zero] at share
        exact Nat.lt_irrefl 0 share.1
    · have past := judged.past within
      rw [direction, ← kind, ← required] at missed within
      rw [relaxable, ← kind] at covered
      rcases past with ⟨degraded, reported, only⟩ | ⟨violated, only⟩
      · refine ⟨iff_of_false ?_ missed, iff_of_false ?_ ?_,
          iff_of_true ⟨degraded, reported⟩ ⟨covered.1, covered.2, only, within⟩, ?_, ?_, product, sum⟩
        · simp [degraded]
        · simp [reported]
        · exact fun shape => within shape.2.2.2
        · simp [degraded]
        · simp [reported]
      · refine ⟨iff_of_false ?_ missed, iff_of_false ?_ ?_, iff_of_false ?_ ?_, ?_, ?_, product, sum⟩
        · simp [violated]
        · simp [violated]
        · exact fun shape => within shape.2.2.2
        · simp [violated]
        · exact fun shape => only shape.2.2.1
        · simp [violated]
        · simp [violated]

/-! ## Decisions -/

theorem mem_obligations {decision : ContractDecision} (accepted : Accepted inputs)
    (evaluated : evaluate inputs = .ok decision) {a : ObligationAssessment}
    (mem : a ∈ decision.obligations) :
    ∃ item ∈ buildPlan inputs.klass inputs.policy,
      (assess inputs (buildPlan inputs.klass inputs.policy) (resolve inputs) item).assessment = a := by
  rw [(evaluate_reports accepted evaluated).obligations] at mem
  obtain ⟨assessed, member, rfl⟩ := List.mem_map.mp mem
  obtain ⟨item, planned, rfl⟩ := mem_assessAll.mp member
  exact ⟨item, planned, rfl⟩

theorem assess_names (plan : List ObligationPlan) (resolutions : List Resolution)
    (item : ObligationPlan) :
    (assess inputs plan resolutions item).assessment.kind = item.kind ∧
      (assess inputs plan resolutions item).assessment.id = item.id := by
  have diverse : (assessDiversity inputs plan resolutions item).kind = item.kind ∧
      (assessDiversity inputs plan resolutions item).id = item.id := by
    unfold assessDiversity
    dsimp only
    repeat' split
    all_goals exact ⟨rfl, rfl⟩
  have state : (assessState inputs resolutions item).kind = item.kind ∧
      (assessState inputs resolutions item).id = item.id := by
    unfold assessState
    dsimp only
    repeat' split
    all_goals exact ⟨rfl, rfl⟩
  have ordinary : (assessOrdinary inputs resolutions item).assessment.kind = item.kind ∧
      (assessOrdinary inputs resolutions item).assessment.id = item.id := by
    unfold assessOrdinary assessComposition
    dsimp only
    repeat' split
    all_goals first
      | exact ⟨rfl, rfl⟩
      | exact ⟨(assessShortfall_kept _ _).1, (assessShortfall_kept _ _).2.1⟩
  unfold assess
  split
  · exact diverse
  · exact state
  · exact ordinary

theorem assess_ordinary {plan : List ObligationPlan} {resolutions : List Resolution}
    {item : ObligationPlan} (ordinary : Ordinary item.kind) :
    assess inputs plan resolutions item = assessOrdinary inputs resolutions item := by
  unfold assess
  split
  next diverse => exact absurd diverse ordinary.1
  next state => exact absurd state ordinary.2
  next => rfl

theorem window_exact {decision : ContractDecision} (accepted : Accepted inputs)
    (evaluated : evaluate inputs = .ok decision) {a : ObligationAssessment}
    (mem : a ∈ decision.obligations) (ordinary : Ordinary a.kind) {value : UInt64}
    (composed : a.composedValue = some value) : ExactWindow inputs a value := by
  obtain ⟨item, planned, rfl⟩ := mem_obligations accepted evaluated mem
  rw [(assess_names _ _ item).1] at ordinary
  rw [assess_ordinary ordinary] at composed ⊢
  obtain ⟨b, assesses, judged⟩ := assessOrdinary_composed composed
  rw [judged]
  exact verdict_exact assesses accepted planned value

/-- A tenth of the latency requirement may be given up, a fifth by the class alone. -/
def relaxedInputs : EvaluationInputs :=
  { plainInputs with
    klass := { plainClass with
      maxLatencyUs := some 1000
      allowDegrade := true
      degradeMaxRelaxationPpm := 200000 }
    policy := { plainPolicy with degradePermitted := true, maxRelaxationPpm := 100000 }
    capabilities := [some { plainCapability with latencyBoundUs := some 1050 }] }

theorem relaxedInputs_accepted : Accepted relaxedInputs := by
  rw [← intake_le (show ¬Outcome.rejected ≤ .supported by decide)]
  decide +kernel

theorem window_exact_latency : ∃ decision a, evaluate relaxedInputs = .ok decision ∧
    a ∈ decision.obligations ∧ a.status = .degraded ∧ ExactWindow relaxedInputs a 1050 := by
  obtain ⟨decision, evaluated⟩ := evaluate_ok relaxedInputs
  have reports := evaluate_reports relaxedInputs_accepted evaluated
  let plan := buildPlan relaxedInputs.klass relaxedInputs.policy
  let item := plain .latency 1000
  have planned : item ∈ plan := by decide +kernel
  have mem : (assess relaxedInputs plan (resolve relaxedInputs) item).assessment ∈
      decision.obligations := by
    rw [reports.obligations]
    exact List.mem_map_of_mem (mem_assessAll.mpr ⟨item, planned, rfl⟩)
  exact ⟨decision, _, evaluated, mem, by decide +kernel,
    window_exact relaxedInputs_accepted evaluated mem ⟨by decide +kernel, by decide +kernel⟩
      (by decide +kernel)⟩

end QoSFabric.Proof.Engine
