import QoSFabric.Proof.Engine.Permission

/-!
# Conclusive negatives

A component that falls short of its class settles the verdict only once every other component has
evidence: what is not known of one component stops every obligation that is composed.
-/

namespace QoSFabric.Proof.Engine

open Outcome

variable {inputs : EvaluationInputs}

def leastRequired (klass : QoSClass) : ObligationKind → Option UInt64
  | .minRate => klass.minRateBps
  | .maxRate => klass.maxRateBps
  | .peakRate => klass.peakRateBps
  | .burstBytes => klass.burstBytes
  | .mtu => klass.minMtuBytes
  | .isolation => some klass.isolation.rank.toUInt64
  | .treatment => some klass.treatment.rank.toUInt64
  | .priorityRank => some klass.minPriorityRank.toUInt64
  | _ => none

def declaredOf (capability : ResourceCapability) : ObligationKind → Option UInt64
  | .minRate | .maxRate | .peakRate => capability.supportedRateBps
  | .burstBytes => capability.maxBurstBytes
  | .mtu => capability.mtuBytes
  | .isolation => some capability.maxIsolation.rank.toUInt64
  | .treatment => some capability.maxTreatment.rank.toUInt64
  | .priorityRank => some capability.maxPriorityRank.toUInt64
  | _ => none

/-- A live component declares less than its class requires, and nothing may excuse it. -/
structure FallsShort (inputs : EvaluationInputs) (r : Resolution) (kind : ObligationKind) : Prop where
  mem : r ∈ resolve inputs
  live : Resolution.Resolved r
  below : ∃ capability required declared, r.capability = some capability ∧
    leastRequired inputs.klass kind = some required ∧ declaredOf capability kind = some declared ∧
    declared < required
  firm : kind ∈ [.isolation, .treatment, .priorityRank] ∨ Forbidden inputs.klass inputs.policy

/-- The component has evidence, and it is stale, unavailable or contradictory. -/
def Lost (r : Resolution) : Prop :=
  r.status = .stale ∨ r.status = .unavailable ∨ r.status = .violated

def Permits (inputs : EvaluationInputs) (item : ObligationPlan) (limit : UInt64) : Prop :=
  limit = item.required ∨
    item.kind.relaxable = true ∧ 0 < permittedWindow inputs.klass inputs.policy ∧
      (limit.toNat =
          relaxed item.kind.direction item.required (permittedWindow inputs.klass inputs.policy) ∨
        inputs.klass.violationPolicy = .reportOnly)

def Refuted (inputs : EvaluationInputs) (plan : List ObligationPlan) (item : ObligationPlan) : Prop :=
  match item.kind with
  | .disjointPaths =>
      (domains inputs plan (resolve inputs)).length < item.required.toNat ∧
        (∀ r ∈ resolve inputs, ¬Unproven inputs plan r) ∧
        (degradationPermitted inputs.klass inputs.policy = true →
          (domains inputs plan (resolve inputs)).length <
              (diversityFloor item.required (relaxationWindow inputs.klass inputs.policy)).toNat ∧
            inputs.klass.violationPolicy ≠ .reportOnly)
  | .resourceState =>
      degradationPermitted inputs.klass inputs.policy = false ∧
        ∃ r ∈ resolve inputs, r.status = .degraded
  | kind =>
      (∀ v ∈ declaredValues inputs item, v.present = true) ∧
        ∀ limit, Permits inputs item limit → ¬Composes kind.aggregate
          (fixedOverhead inputs.path kind) limit ((declaredValues inputs item).map RawValue.value)

theorem refuted_ordinary {plan : List ObligationPlan} {item : ObligationPlan}
    (ordinary : Ordinary item.kind) :
    Refuted inputs plan item ↔ (∀ v ∈ declaredValues inputs item, v.present = true) ∧
      ∀ limit, Permits inputs item limit → ¬Composes item.kind.aggregate
        (fixedOverhead inputs.path item.kind) limit
        ((declaredValues inputs item).map RawValue.value) := by
  unfold Refuted
  split
  next diverse => exact absurd diverse ordinary.1
  next state => exact absurd state ordinary.2
  next => rfl

theorem permits_relaxed (accepted : Accepted inputs) {item : ObligationPlan}
    (planned : item ∈ buildPlan inputs.klass inputs.policy)
    (covered : item.kind.relaxable = true ∧ 0 < permittedWindow inputs.klass inputs.policy) :
    ∃ limit, Permits inputs item limit ∧ limit.toNat =
      relaxed item.kind.direction item.required (permittedWindow inputs.klass inputs.policy) := by
  have small := planned_required_le accepted planned
  have narrow : permittedWindow inputs.klass inputs.policy ≤ 1000000 :=
    permittedWindow_le accepted.klass
  have window := relaxationWindow_toNat inputs.klass inputs.policy
  obtain ⟨delta, -, value⟩ := relaxationDelta_eq small (window.symm ▸ narrow)
  rw [window] at value
  have limit : (effectiveLimit item.kind.direction item.required delta).toNat = _ :=
    effectiveLimit_toNat small narrow value
  exact ⟨_, .inr ⟨covered.1, covered.2, .inl limit⟩, limit⟩

theorem grade_unsupported_iff (accepted : Accepted inputs) {item : ObligationPlan}
    (planned : item ∈ buildPlan inputs.klass inputs.policy) (value : UInt64) :
    ¬(grade inputs item value).outcome ≤ unknown ↔
      ∀ limit, Permits inputs item limit → ¬Reaches item.kind.direction value limit.toNat := by
  have small : item.assessment.requiredValue.toNat ≤ 2 ^ 40 := planned_required_le accepted planned
  unfold grade
  rcases verdict_cases accepted.klass small value with
    ⟨met, satisfied⟩ | ⟨missed, uncovered, violated⟩ | ⟨missed, covered, judged⟩
  · rw [satisfied]
    exact iff_of_false (by decide) fun never => never _ (.inl rfl) met
  · rw [violated]
    refine iff_of_true (by decide) ?_
    rintro limit (rfl | ⟨relaxable, window, -⟩)
    · exact missed
    · exact absurd ⟨relaxable, window⟩ uncovered
  · obtain ⟨limit, permitted, relaxes⟩ := permits_relaxed accepted planned covered
    by_cases within : Reaches item.kind.direction value (relaxed item.kind.direction item.required
        (permittedWindow inputs.klass inputs.policy))
    · rw [(judged.within within).1]
      exact iff_of_false (by decide) fun never => never limit permitted (relaxes ▸ within)
    · rcases judged.past within with ⟨degraded, -, only⟩ | ⟨violated, firm⟩
      · rw [degraded]
        refine iff_of_false (by decide) fun never => ?_
        exact never value (.inr ⟨covered.1, covered.2, .inr only⟩)
          (compliant_iff.mp (compliant_refl _ value))
      · rw [violated]
        refine iff_of_true (by decide) ?_
        rintro limit (rfl | ⟨-, -, eq | only⟩)
        · exact missed
        · rwa [eq]
        · exact absurd only firm

theorem compositionGist_unsupported_iff (accepted : Accepted inputs) {item : ObligationPlan}
    (planned : item ∈ buildPlan inputs.klass inputs.policy) (ordinary : Ordinary item.kind)
    (first fixed : UInt64) (rest : List UInt64) :
    ¬(compositionGist inputs item
        (composePresent item.kind.aggregate first rest fixed)).outcome ≤ unknown ↔
      ∀ limit, Permits inputs item limit →
        ¬Composes item.kind.aggregate fixed limit (first :: rest) := by
  simp only [← composePresent_iff ordinary]
  cases overflow : (composePresent item.kind.aggregate first rest fixed).overflow with
  | true =>
      rw [compositionGist_overflow overflow]
      refine iff_of_true (by decide) fun limit _ composed => ?_
      have bounded := composed.1
      rw [overflow] at bounded
      cases bounded
  | false =>
      obtain ⟨value, total⟩ := (composePresent_some ordinary first fixed rest).resolve_left
        (by simp [overflow])
      rw [compositionGist_value overflow total]
      have reaches (limit : UInt64) : Composed item.kind.direction limit
          (composePresent item.kind.aggregate first rest fixed) ↔
          Reaches item.kind.direction value limit.toNat := by
        simp only [Composed, overflow, total, Option.some.injEq, exists_eq_left', true_and,
          compliant_iff]
      simp only [reaches]
      exact grade_unsupported_iff accepted planned value

theorem declaredValues_cons (accepted : Accepted inputs) (item : ObligationPlan) :
    ∃ first rest, declaredValues inputs item = first :: rest := by
  cases values : declaredValues inputs item with
  | nil => exact absurd (List.map_eq_nil_iff.mp values) (resolve_ne_nil accepted)
  | cons first rest => exact ⟨first, rest, rfl⟩

theorem ordinaryGist_unsupported_iff (accepted : Accepted inputs) {item : ObligationPlan}
    (planned : item ∈ buildPlan inputs.klass inputs.policy) (ordinary : Ordinary item.kind) :
    ¬(ordinaryGist inputs item none (declaredValues inputs item)).outcome ≤ unknown ↔
      (∀ v ∈ declaredValues inputs item, v.present = true) ∧
        ∀ limit, Permits inputs item limit → ¬Composes item.kind.aggregate
          (fixedOverhead inputs.path item.kind) limit
          ((declaredValues inputs item).map RawValue.value) := by
  obtain ⟨first, rest, values⟩ := declaredValues_cons accepted item
  unfold ordinaryGist
  dsimp only
  split
  next present =>
    rw [values] at present ⊢
    rw [composeValues_of_present present, List.map_cons,
      compositionGist_unsupported_iff accepted planned ordinary]
    exact (and_iff_right present).symm
  next missing => exact iff_of_false (by decide) fun complete => missing complete.1

theorem diversityStatus_unsupported_iff {required count : UInt64} {unproven : Bool} :
    ¬(diversityStatus inputs required count unproven).outcome ≤ unknown ↔
      ¬count ≥ required ∧ unproven = false ∧
        (degradationPermitted inputs.klass inputs.policy = true →
          ¬count ≥ diversityFloor required (relaxationWindow inputs.klass inputs.policy) ∧
            inputs.klass.violationPolicy ≠ .reportOnly) := by
  unfold diversityStatus
  split
  next enough => exact iff_of_false (by decide) fun refuted => refuted.1 enough
  next thin =>
    split
    next outstanding =>
      refine iff_of_false (by decide) fun refuted => ?_
      rw [outstanding] at refuted
      cases refuted.2.1
    next proven =>
      rw [Bool.not_eq_true] at proven
      cases permitted : degradationPermitted inputs.klass inputs.policy with
      | false =>
          rw [Bool.false_and, if_neg Bool.false_ne_true]
          exact iff_of_true (by decide) ⟨thin, proven, fun never => by cases never⟩
      | true =>
          rw [Bool.true_and]
          split
          next excused =>
            rw [Bool.or_eq_true, decide_eq_true_eq, reportOnly_iff permitted] at excused
            exact iff_of_false (by decide) fun refuted =>
              excused.elim (refuted.2.2 rfl).1 (refuted.2.2 rfl).2
          next firm =>
            rw [Bool.or_eq_true, decide_eq_true_eq, reportOnly_iff permitted] at firm
            exact iff_of_true (by decide) ⟨thin, proven, fun _ => not_or.mp firm⟩

theorem diversityGist_unsupported_iff (accepted : Accepted inputs) (plan : List ObligationPlan)
    (required : UInt64) :
    ¬(diversityGist inputs required (domains inputs plan (resolve inputs)).length
        (diversity inputs plan (resolve inputs)).anyUnknown).outcome ≤ unknown ↔
      (domains inputs plan (resolve inputs)).length < required.toNat ∧
        (∀ r ∈ resolve inputs, ¬Unproven inputs plan r) ∧
        (degradationPermitted inputs.klass inputs.policy = true →
          (domains inputs plan (resolve inputs)).length <
              (diversityFloor required (relaxationWindow inputs.klass inputs.policy)).toNat ∧
            inputs.klass.violationPolicy ≠ .reportOnly) := by
  have proven : (diversity inputs plan (resolve inputs)).anyUnknown = false ↔
      ∀ r ∈ resolve inputs, ¬Unproven inputs plan r := by
    rw [← Bool.not_eq_true, diversity_anyUnknown]
    exact not_exists.trans (forall_congr' fun r => not_and)
  rw [← proven]
  simp only [← Nat.not_le, ← count_ge_iff accepted]
  exact diversityStatus_unsupported_iff

theorem stateGist_unsupported_iff (resolved : ∀ r ∈ resolve inputs, Resolution.Resolved r)
    {item : ObligationPlan} (kind : item.kind = .resourceState) :
    ¬(stateGist inputs none
        (worstState (declaredValues inputs item) 0 (stateAvailable, 0)).1
        ((resolve inputs).any Resolution.selfDeclaredDegraded)).outcome ≤ unknown ↔
      degradationPermitted inputs.klass inputs.policy = false ∧
        ∃ r ∈ resolve inputs, r.status = .degraded := by
  have declared : (∃ r ∈ resolve inputs, r.status = .degraded) ↔
      (resolve inputs).any Resolution.selfDeclaredDegraded = true := by
    rw [List.any_eq_true]
    exact exists_congr fun r => and_congr_right fun mem =>
      (selfDeclared_of_resolved mem (resolved r mem)).symm
  have worst : stateAvailable ≤ (worstState (declaredValues inputs item) 0 (stateAvailable, 0)).1 ↔
      ¬(resolve inputs).any Resolution.selfDeclaredDegraded = true := by
    rw [worstState_available resolved kind, List.any_eq_true]
    simp
  rw [declared]
  unfold stateGist Gist.outcome
  dsimp only
  rw [if_neg Bool.false_ne_true]
  by_cases available : (resolve inputs).any Resolution.selfDeclaredDegraded = true
  · rw [if_neg (fun high => worst.mp high available), available, Bool.and_true]
    cases degradationPermitted inputs.klass inputs.policy with
    | false => exact iff_of_true (by decide) ⟨rfl, rfl⟩
    | true => exact iff_of_false (by decide) fun refuted => by cases refuted.1
  · rw [if_pos (worst.mpr available)]
    exact iff_of_false (by decide) fun refuted => available refuted.2

theorem assessGist_unsupported_iff (accepted : Accepted inputs)
    (resolved : ∀ r ∈ resolve inputs, Resolution.Resolved r) {item : ObligationPlan}
    (planned : item ∈ buildPlan inputs.klass inputs.policy) :
    ¬(assessGist inputs (buildPlan inputs.klass inputs.policy) (resolve inputs) item).outcome ≤
        unknown ↔
      Refuted inputs (buildPlan inputs.klass inputs.policy) item := by
  have ordinary := @ordinaryGist_unsupported_iff inputs accepted item planned
  have state := @stateGist_unsupported_iff inputs resolved item
  have diverse := diversityGist_unsupported_iff accepted (buildPlan inputs.klass inputs.policy)
    item.required
  unfold assessGist Refuted
  rw [stopping_eq_none.mpr resolved, scratch_eq resolved]
  cases kind : item.kind
  case disjointPaths => exact diverse
  case resourceState => exact state kind
  all_goals
    rw [kind] at ordinary
    exact ordinary ⟨by decide, by decide⟩

theorem assessGist_open (accepted : Accepted inputs) (kept : ∀ r ∈ resolve inputs, ¬Lost r)
    {r : Resolution} (mem : r ∈ resolve inputs) (open' : r.status = .unknown)
    (plan : List ObligationPlan) (item : ObligationPlan) :
    (assessGist inputs plan (resolve inputs) item).outcome ≤ unknown := by
  have stopped : stopping ((resolve inputs).map Resolution.status) = some .unknown := by
    unfold stopping
    rw [if_neg, if_neg, if_pos (mem_statuses.mpr ⟨r, mem, open'⟩)]
    · rintro (lost | lost)
      · obtain ⟨r, mem, status⟩ := mem_statuses.mp lost
        exact kept r mem (.inr (.inl status))
      · obtain ⟨r, mem, status⟩ := mem_statuses.mp lost
        exact kept r mem (.inr (.inr status))
    · intro lost
      obtain ⟨r, mem, status⟩ := mem_statuses.mp lost
      exact kept r mem (.inl status)
  have diverse := diversityGist_unsupported_iff accepted plan item.required
  unfold assessGist
  rw [stopped]
  cases item.kind
  case disjointPaths =>
    by_contra refuted
    exact (diverse.mp refuted).2.1 r mem (.inl open')
  all_goals
    show ObligationStatus.unknown.outcome ≤ unknown
    decide

theorem not_le_of_lost (accepted : Accepted inputs) {r : Resolution} (mem : r ∈ resolve inputs)
    (lost : Lost r) :
    ¬(findings inputs).outcome ≤ unknown := by
  intro low
  have item := isolation_mem_buildPlan accepted
  have met := (findings_le_iff.mp low).2 _ item
  unfold assessGist at met
  have stopped : ∃ status, stopping ((resolve inputs).map Resolution.status) = some status ∧
      ¬status.outcome ≤ unknown := by
    unfold stopping
    split
    · exact ⟨_, rfl, by decide⟩
    next unstale =>
      have status := lost.resolve_left fun status => unstale (mem_statuses.mpr ⟨r, mem, status⟩)
      rw [if_pos (status.imp (fun h => mem_statuses.mpr ⟨r, mem, h⟩)
        (fun h => mem_statuses.mpr ⟨r, mem, h⟩))]
      exact ⟨_, rfl, by decide⟩
  obtain ⟨status, eq, high⟩ := stopped
  rw [eq] at met
  exact high met

theorem lost_of_contradiction {r : Resolution} (mem : r ∈ resolve inputs)
    (contradiction : r.domainContradiction = true) : Lost r := by
  obtain ⟨index, component, -, rfl⟩ := mem_resolve.mp mem
  revert contradiction
  unfold resolveAt resolveComponent
  dsimp only
  split
  · exact fun never => by cases never
  split
  · exact fun never => by cases never
  split
  · exact fun _ => .inr (.inr rfl)
  · exact fun never => by cases never

theorem findings_unsupported_iff (accepted : Accepted inputs) (unconflicted : Unconflicted inputs)
    (current : Current inputs) (kept : ∀ r ∈ resolve inputs, ¬Lost r) :
    ¬(findings inputs).outcome ≤ unknown ↔
      (∀ r ∈ resolve inputs, Resolution.Resolved r) ∧
        ∃ item ∈ buildPlan inputs.klass inputs.policy,
          Refuted inputs (buildPlan inputs.klass inputs.policy) item := by
  have before : (prior inputs).outcome ≤ unknown := by
    simp only [prior, currency_le (show ¬stale ≤ unknown by decide),
      contradictions_le (show ¬conflict ≤ unknown by decide),
      conflicts_le (show ¬conflict ≤ unknown by decide),
      intake_le (show ¬rejected ≤ unknown by decide)]
    exact ⟨⟨⟨accepted, unconflicted⟩,
      fun r mem contradiction => kept r mem (lost_of_contradiction mem contradiction)⟩, current⟩
  rw [findings_le_iff, and_iff_right before]
  by_cases resolved : ∀ r ∈ resolve inputs, Resolution.Resolved r
  · rw [and_iff_right resolved]
    simp only [not_forall, ← exists_prop]
    exact exists₂_congr fun item planned => assessGist_unsupported_iff accepted resolved planned
  · refine iff_of_false (fun above => ?_) fun refuted => resolved refuted.1
    simp only [not_forall] at resolved
    obtain ⟨r, mem, unresolved⟩ := resolved
    have status : r.status = .unknown := by
      have lost := kept r mem
      unfold Lost at lost
      unfold Resolution.Resolved at unresolved
      cases status : r.status <;> simp_all
    exact above fun item _ => assessGist_open accepted kept mem status _ item

structure Compared (klass : QoSClass) (policy : Policy) (kind : ObligationKind) (required : UInt64) :
    Prop where
  pushed : pushedOf klass policy kind = [plain kind required]
  path : kind ∈ pathKinds
  ordinary : Ordinary kind
  weakest : kind.aggregate = .weakestLink
  value : ∀ capability r currentEpoch nowMs, ∃ detail,
    capabilityValue (plain kind required) capability r klass policy currentEpoch nowMs =
      .ofOption (declaredOf capability kind) detail

theorem compared_of_least {klass : QoSClass} {kind : ObligationKind} {required : UInt64}
    (least : leastRequired klass kind = some required) (policy : Policy) :
    Compared klass policy kind required := by
  cases kind <;> simp only [leastRequired, reduceCtorEq] at least
  all_goals
    refine ⟨?_, by decide, ⟨by decide, by decide⟩, rfl, fun _ _ _ _ => ?_⟩
    · simp only [pushedOf, push, least]
      rfl
    · first
        | exact ⟨_, rfl⟩
        | exact ⟨"", rfl⟩

/-- Every component declares the attribute. -/
def Declared (inputs : EvaluationInputs) (kind : ObligationKind) : Prop :=
  ∀ r ∈ resolve inputs, ∃ capability declared, r.capability = some capability ∧
    declaredOf capability kind = some declared

theorem Compared.componentValue {klass : QoSClass} {policy : Policy} {kind : ObligationKind}
    {required : UInt64} (compared : Compared klass policy kind required) {r : Resolution}
    {capability : ResourceCapability} (held : r.capability = some capability)
    (currentEpoch : FabricEpoch) (nowMs : UInt64) :
    ∃ detail, QoSFabric.componentValue (plain kind required) r klass policy currentEpoch nowMs =
      .ofOption (declaredOf capability kind) detail := by
  unfold QoSFabric.componentValue
  rw [held]
  exact compared.value capability r currentEpoch nowMs

theorem Compared.declared_iff {kind : ObligationKind} {required : UInt64}
    (compared : Compared inputs.klass inputs.policy kind required)
    (resolved : ∀ r ∈ resolve inputs, Resolution.Resolved r) :
    (∀ v ∈ declaredValues inputs (plain kind required), v.present = true) ↔ Declared inputs kind := by
  unfold declaredValues Declared
  rw [List.forall_mem_map]
  refine forall₂_congr fun r mem => ?_
  obtain ⟨capability, held, -⟩ := resolved_capability mem (resolved r mem)
  obtain ⟨detail, value⟩ := compared.componentValue held inputs.currentEpoch inputs.nowMs
  rw [value, held]
  simp only [Option.some.injEq, exists_eq_left', exists_and_left]
  cases found : declaredOf capability kind with
  | none => simp [RawValue.ofOption, RawValue.missing]
  | some declared => simp [RawValue.ofOption, RawValue.declared]

theorem FallsShort.permits {r : Resolution} {kind : ObligationKind} {required limit : UInt64}
    (short : FallsShort inputs r kind) (permitted : Permits inputs (plain kind required) limit) :
    limit = required := by
  rcases permitted with same | ⟨relaxable, window, -⟩
  · exact same
  · rcases short.firm with structural | forbidden
    · have firm : kind.relaxable = false := by
        revert structural
        cases kind <;> decide
      cases firm.symm.trans relaxable
    · exact absurd (forbidden_iff.mp forbidden) (Nat.ne_of_gt window)

theorem FallsShort.refuted {r : Resolution} {kind : ObligationKind} {required : UInt64}
    (short : FallsShort inputs r kind)
    (least : leastRequired inputs.klass kind = some required)
    (resolved : ∀ r ∈ resolve inputs, Resolution.Resolved r) (declared : Declared inputs kind)
    (plan : List ObligationPlan) : Refuted inputs plan (plain kind required) := by
  have compared := compared_of_least least inputs.policy
  obtain ⟨capability, _, value, held, same, eq, below⟩ := short.below
  cases least.symm.trans same
  have missed : ∀ limit, Permits inputs (plain kind required) limit → ¬Composes kind.aggregate
      (fixedOverhead inputs.path kind) limit
      ((declaredValues inputs (plain kind required)).map RawValue.value) := by
    intro limit permitted composed
    rw [short.permits permitted, compared.weakest] at composed
    obtain ⟨detail, raw⟩ := compared.componentValue held inputs.currentEpoch inputs.nowMs
    rw [eq] at raw
    have member : value ∈ (declaredValues inputs (plain kind required)).map RawValue.value := by
      refine List.mem_map.mpr ⟨_, List.mem_map.mpr ⟨r, short.mem, raw⟩, rfl⟩
    exact UInt64.not_le.mpr below (composed value member)
  exact (refuted_ordinary compared.ordinary).mpr
    ⟨(compared.declared_iff resolved).mpr declared, missed⟩

/-- Every component is live, and the evidence of the attribute is complete, or else that of another
obligation which the path misses. -/
structure Settles (inputs : EvaluationInputs) (kind : ObligationKind) : Prop where
  live : ∀ r ∈ resolve inputs, Resolution.Resolved r
  complete : Declared inputs kind ∨ ∃ item ∈ buildPlan inputs.klass inputs.policy,
    item.kind ≠ kind ∧ Refuted inputs (buildPlan inputs.klass inputs.policy) item

theorem settles_iff (accepted : Accepted inputs) {r : Resolution} {kind : ObligationKind}
    (short : FallsShort inputs r kind) :
    ((∀ r ∈ resolve inputs, Resolution.Resolved r) ∧
      ∃ item ∈ buildPlan inputs.klass inputs.policy,
        Refuted inputs (buildPlan inputs.klass inputs.policy) item) ↔ Settles inputs kind := by
  obtain ⟨-, required, -, -, least, -⟩ := short.below
  have compared := compared_of_least least inputs.policy
  have classValid := validateQoSClass_ok accepted.klass
  have policyValid := validatePolicy_ok accepted.policy
  constructor
  · rintro ⟨resolved, item, planned, refuted⟩
    refine ⟨resolved, ?_⟩
    by_cases same : item.kind = kind
    · have pushed := mem_pushedPlan.mp
        ((mem_pushedPlan_iff classValid policyValid).mpr (.inl planned))
      rw [same, compared.pushed, List.mem_singleton] at pushed
      subst pushed
      exact .inl ((compared.declared_iff resolved).mp ((refuted_ordinary compared.ordinary).mp refuted).1)
    · exact .inr ⟨item, planned, same, refuted⟩
  · rintro ⟨resolved, declared | ⟨item, planned, -, refuted⟩⟩
    · refine ⟨resolved, plain kind required, ?_, short.refuted least resolved declared _⟩
      refine mem_buildPlan classValid policyValid (mem_pushedPlan.mpr ?_) compared.path
      show plain kind required ∈ pushedOf inputs.klass inputs.policy kind
      rw [compared.pushed]
      exact List.mem_singleton_self _
    · exact ⟨resolved, item, planned, refuted⟩

/-- A component that falls short settles the verdict exactly when the evidence of the others allows
to conclude anything at all. -/
theorem negative_conclusive_iff {decision : ContractDecision} (accepted : Accepted inputs)
    {r : Resolution} {kind : ObligationKind} (short : FallsShort inputs r kind)
    (evaluated : evaluate inputs = .ok decision) :
    unsupported ≤ decision.outcome ↔
      ¬Unconflicted inputs ∨ ¬Current inputs ∨ (∃ r ∈ resolve inputs, Lost r) ∨
        Settles inputs kind := by
  have above (outcome : Outcome) : unsupported ≤ outcome ↔ ¬outcome ≤ unknown := by
    cases outcome <;> decide
  rw [above, (evaluate_reports accepted evaluated).outcome]
  by_cases unconflicted : Unconflicted inputs
  swap
  · refine iff_of_true (fun low => ?_) (.inl unconflicted)
    have before := (findings_le_iff.mp low).1
    simp only [prior, currency_le (show ¬stale ≤ unknown by decide),
      contradictions_le (show ¬conflict ≤ unknown by decide),
      conflicts_le (show ¬conflict ≤ unknown by decide)] at before
    exact unconflicted before.1.1.2
  by_cases current : Current inputs
  swap
  · refine iff_of_true (fun low => ?_) (.inr (.inl current))
    have before := (findings_le_iff.mp low).1
    simp only [prior, currency_le (show ¬stale ≤ unknown by decide)] at before
    exact current before.2
  by_cases lost : ∃ r ∈ resolve inputs, Lost r
  · obtain ⟨r, mem, lost⟩ := lost
    exact iff_of_true (not_le_of_lost accepted mem lost) (.inr (.inr (.inl ⟨r, mem, lost⟩)))
  have kept : ∀ r ∈ resolve inputs, ¬Lost r := fun r mem gone => lost ⟨r, mem, gone⟩
  rw [findings_unsupported_iff accepted unconflicted current kept, settles_iff accepted short]
  constructor
  · exact fun settles => .inr (.inr (.inr settles))
  · rintro (disputed | outdated | gone | settles)
    · exact absurd unconflicted disputed
    · exact absurd current outdated
    · exact absurd gone lost
    · exact settles

/-- Two components: one is live and isolates less than its class requires. -/
def weakInputs : EvaluationInputs :=
  { plainInputs with
    klass := { plainClass with isolation := .shared }
    path := { plainPath with components :=
      [⟨text "r1", 1, text "d1", .member⟩, ⟨text "r2", 1, text "d2", .member⟩] }
    capabilities := [some plainCapability,
      some { plainCapability with resource := text "r2", diversityDomain := text "d2" }] }

def obscuredInputs : EvaluationInputs :=
  { weakInputs with capabilities := [some plainCapability, none] }

theorem weakInputs_accepted : Accepted weakInputs := by
  rw [← intake_le (show ¬rejected ≤ supported by decide)]
  decide +kernel

theorem obscuredInputs_accepted : Accepted obscuredInputs := by
  rw [← intake_le (show ¬rejected ≤ supported by decide)]
  decide +kernel

theorem weakInputs_short :
    FallsShort weakInputs (resolveAt weakInputs ⟨text "r1", 1, text "d1", .member⟩ 0) .isolation where
  mem := mem_resolve.mpr ⟨0, _, rfl, rfl⟩
  live := by decide +kernel
  below := ⟨plainCapability, 1, 0, by decide +kernel, rfl, rfl, by decide⟩
  firm := .inl (by decide)

theorem obscuredInputs_short :
    FallsShort obscuredInputs (resolveAt obscuredInputs ⟨text "r1", 1, text "d1", .member⟩ 0)
      .isolation where
  mem := mem_resolve.mpr ⟨0, _, rfl, rfl⟩
  live := by decide +kernel
  below := ⟨plainCapability, 1, 0, by decide +kernel, rfl, rfl, by decide⟩
  firm := .inl (by decide)

theorem negative_conclusive_iff_weak : ∃ decision, evaluate weakInputs = .ok decision ∧
    (unsupported ≤ decision.outcome ↔
      ¬Unconflicted weakInputs ∨ ¬Current weakInputs ∨ (∃ r ∈ resolve weakInputs, Lost r) ∨
        Settles weakInputs .isolation) := by
  obtain ⟨decision, evaluated⟩ := evaluate_ok weakInputs
  exact ⟨decision, evaluated, negative_conclusive_iff weakInputs_accepted weakInputs_short evaluated⟩

theorem negative_obscured : ¬∀ inputs decision r kind, Accepted inputs → FallsShort inputs r kind →
    evaluate inputs = .ok decision → unsupported ≤ decision.outcome := by
  intro holds
  obtain ⟨decision, evaluated⟩ := evaluate_ok obscuredInputs
  have conclusive := holds obscuredInputs decision _ .isolation obscuredInputs_accepted
    obscuredInputs_short evaluated
  rw [(evaluate_reports obscuredInputs_accepted evaluated).outcome] at conclusive
  revert conclusive
  decide +kernel

end QoSFabric.Proof.Engine
