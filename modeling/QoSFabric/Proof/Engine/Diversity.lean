import QoSFabric.Proof.Engine.Evidence
import Mathlib.Data.List.Dedup

namespace QoSFabric.Proof.Engine

variable {inputs : EvaluationInputs} {plan : List ObligationPlan}

structure Alike (inputs inputs' : EvaluationInputs) : Prop where
  klass : inputs'.klass = inputs.klass
  policy : inputs'.policy = inputs.policy
  epoch : inputs'.currentEpoch = inputs.currentEpoch
  now : inputs'.nowMs = inputs.nowMs

variable {inputs' : EvaluationInputs}

theorem Alike.qualify (alike : Alike inputs inputs') (r : Resolution) (plan : List ObligationPlan) :
    QoSFabric.qualify inputs' r plan = QoSFabric.qualify inputs r plan := by
  induction plan with
  | nil => rfl
  | cons other rest ih =>
      have same : qualifiesFor inputs' r other = qualifiesFor inputs r other := by
        unfold qualifiesFor
        rw [alike.klass, alike.policy, alike.epoch, alike.now]
      unfold QoSFabric.qualify
      rw [same, ih]

theorem Alike.diversity (alike : Alike inputs inputs') (plan : List ObligationPlan)
    (resolutions : List Resolution) :
    QoSFabric.diversity inputs' plan resolutions = QoSFabric.diversity inputs plan resolutions := by
  have count : countDomain inputs' plan = countDomain inputs plan := by
    funext d r
    unfold countDomain
    rw [alike.qualify]
  unfold QoSFabric.diversity
  rw [count]

theorem Alike.scratch (alike : Alike inputs inputs') (resolutions : List Resolution)
    (item : ObligationPlan) :
    QoSFabric.scratch inputs' resolutions item = QoSFabric.scratch inputs resolutions item := by
  unfold QoSFabric.scratch
  apply List.map_congr_left
  intro r _
  unfold scratchValue
  rw [alike.klass, alike.policy, alike.epoch, alike.now]

def Counts (inputs : EvaluationInputs) (plan : List ObligationPlan) (r : Resolution) : Prop :=
  Resolution.Resolved r ∧ qualify inputs r plan = .qualified

def Unproven (inputs : EvaluationInputs) (plan : List ObligationPlan) (r : Resolution) : Prop :=
  r.status = .unknown ∨ Resolution.Resolved r ∧ qualify inputs r plan = .missingEvidence

instance (r : Resolution) : Decidable (Resolution.Resolved r) :=
  inferInstanceAs (Decidable (r.status = .satisfied ∨ r.status = .degraded))

instance : DecidablePred (Counts inputs plan) := fun r =>
  inferInstanceAs (Decidable (Resolution.Resolved r ∧ qualify inputs r plan = .qualified))

def domains (inputs : EvaluationInputs) (plan : List ObligationPlan) (resolutions : List Resolution) :
    List Text :=
  ((resolutions.filter (Counts inputs plan ·)).map Resolution.declaredDomain).dedup

theorem Alike.domains (alike : Alike inputs inputs') (resolutions : List Resolution) :
    Engine.domains inputs' plan resolutions = Engine.domains inputs plan resolutions := by
  have counts : ∀ r, Counts inputs' plan r ↔ Counts inputs plan r := fun r => by
    rw [Counts, Counts, alike.qualify]
  unfold Engine.domains
  simp only [counts]

theorem mem_domains {resolutions : List Resolution} {domain : Text} :
    domain ∈ domains inputs plan resolutions ↔
      ∃ r ∈ resolutions, Counts inputs plan r ∧ r.declaredDomain = domain := by
  simp [domains, and_assoc]

theorem live_of_not_lost {r : Resolution} (live : ¬(r.status ≠ .satisfied ∧ r.status ≠ .degraded)) :
    Resolution.Resolved r := by
  unfold Resolution.Resolved
  by_contra lost
  exact live (not_or.mp lost)

theorem countDomain_domains {d : Diversity} {r : Resolution} (nodup : d.domains.Nodup) :
    (countDomain inputs plan d r).domains.Nodup ∧
      ∀ domain, domain ∈ (countDomain inputs plan d r).domains ↔
        domain ∈ d.domains ∨ Counts inputs plan r ∧ r.declaredDomain = domain := by
  have skip (out : ¬Counts inputs plan r) : d.domains.Nodup ∧ ∀ domain, domain ∈ d.domains ↔
      domain ∈ d.domains ∨ Counts inputs plan r ∧ r.declaredDomain = domain :=
    ⟨nodup, fun _ => (or_iff_left fun counted => out counted.1).symm⟩
  unfold countDomain
  split
  next unknown =>
    exact skip fun counts => by simp [Counts, Resolution.Resolved, unknown] at counts
  split
  next lost => exact skip fun counts => counts.1.elim lost.1 lost.2
  next live =>
    cases found : qualify inputs r plan with
    | missingEvidence => exact skip fun counts => by simp [Counts, found] at counts
    | disqualified => exact skip fun counts => by simp [Counts, found] at counts
    | qualified =>
        have counts : Counts inputs plan r := ⟨live_of_not_lost live, found⟩
        dsimp only
        split
        next present =>
          refine ⟨nodup, fun domain => (or_iff_left_of_imp ?_).symm⟩
          rintro ⟨-, rfl⟩
          simpa using present
        next absent =>
          refine ⟨?_, fun domain => ?_⟩
          · simpa [List.nodup_append, nodup] using
              fun a mem eq => absent (by simpa [eq] using mem)
          · simp [counts, eq_comm]

theorem countDomain_anyUnknown {d : Diversity} {r : Resolution} :
    (countDomain inputs plan d r).anyUnknown = true ↔
      d.anyUnknown = true ∨ Unproven inputs plan r := by
  unfold countDomain Unproven
  split
  next unknown => simp [unknown]
  next known =>
    split
    next lost => simp [known, lost, Resolution.Resolved]
    next live =>
      have resolved := live_of_not_lost live
      cases qualify inputs r plan <;> simp [known, resolved]
      split <;> rfl

theorem foldl_countDomain (resolutions : List Resolution) {d : Diversity} (nodup : d.domains.Nodup) :
    (resolutions.foldl (countDomain inputs plan) d).domains.Nodup ∧
      (∀ domain, domain ∈ (resolutions.foldl (countDomain inputs plan) d).domains ↔
        domain ∈ d.domains ∨
          ∃ r ∈ resolutions, Counts inputs plan r ∧ r.declaredDomain = domain) ∧
      ((resolutions.foldl (countDomain inputs plan) d).anyUnknown = true ↔
        d.anyUnknown = true ∨ ∃ r ∈ resolutions, Unproven inputs plan r) := by
  induction resolutions generalizing d with
  | nil => simpa using nodup
  | cons r rest ih =>
      obtain ⟨distinct, members⟩ := countDomain_domains (r := r) nodup
      obtain ⟨nodup, counted, unknown⟩ := ih distinct
      refine ⟨nodup, fun domain => ?_, ?_⟩
      · rw [List.foldl_cons, counted, members, List.exists_mem_cons_iff, or_assoc]
      · rw [List.foldl_cons, unknown, countDomain_anyUnknown, List.exists_mem_cons_iff, or_assoc]

theorem mem_diversity {resolutions : List Resolution} {domain : Text} :
    domain ∈ (diversity inputs plan resolutions).domains ↔
      domain ∈ domains inputs plan resolutions := by
  rw [diversity, (foldl_countDomain resolutions List.nodup_nil).2.1, mem_domains]
  simp

theorem length_diversity (resolutions : List Resolution) :
    (diversity inputs plan resolutions).domains.length =
      (domains inputs plan resolutions).length := by
  have nodup : (diversity inputs plan resolutions).domains.Nodup :=
    (foldl_countDomain resolutions List.nodup_nil).1
  exact ((List.perm_ext_iff_of_nodup nodup (List.nodup_dedup _)).mpr
    fun _ => mem_diversity).length_eq

theorem diversity_anyUnknown {resolutions : List Resolution} :
    (diversity inputs plan resolutions).anyUnknown = true ↔
      ∃ r ∈ resolutions, Unproven inputs plan r := by
  rw [diversity, (foldl_countDomain resolutions List.nodup_nil).2.2]
  simp

theorem domains_length_le {resolutions : List Resolution} :
    (domains inputs plan resolutions).length ≤ resolutions.length := by
  calc (domains inputs plan resolutions).length
      ≤ ((resolutions.filter (Counts inputs plan ·)).map Resolution.declaredDomain).length :=
        (List.dedup_sublist _).length_le
    _ ≤ resolutions.length := by
        rw [List.length_map]
        exact List.length_filter_le _ _

theorem domains_length_lt (accepted : Accepted inputs) (plan : List ObligationPlan) :
    (domains inputs plan (resolve inputs)).length < UInt64.size := by
  have counted : (domains inputs plan (resolve inputs)).length ≤ inputs.path.components.length :=
    length_resolve ▸ domains_length_le
  exact Nat.lt_of_le_of_lt (Nat.le_trans counted (validatePath_length accepted.path)) (by decide)

theorem count_ge_iff (accepted : Accepted inputs) {required : UInt64} :
    UInt64.ofNat (domains inputs plan (resolve inputs)).length ≥ required ↔
      required.toNat ≤ (domains inputs plan (resolve inputs)).length := by
  rw [ge_iff_le, UInt64.le_iff_toNat_le, UInt64.toNat_ofNat_of_lt' (domains_length_lt accepted plan)]

def diversityStatus (inputs : EvaluationInputs) (required count : UInt64) (unproven : Bool) :
    ObligationStatus :=
  if count ≥ required then .satisfied
  else if unproven then .unknown
  else if degradationPermitted inputs.klass inputs.policy &&
      (decide (count ≥ diversityFloor required (relaxationWindow inputs.klass inputs.policy)) ||
        reportOnly inputs.klass inputs.policy) then .degraded
  else .violated

theorem assessDiversity_status (resolutions : List Resolution) (item : ObligationPlan) :
    (assessDiversity inputs plan resolutions item).status =
      diversityStatus inputs item.required
        (UInt64.ofNat (domains inputs plan resolutions).length)
        (diversity inputs plan resolutions).anyUnknown := by
  rw [← length_diversity]
  unfold assessDiversity diversityStatus
  dsimp only
  split
  · rfl
  split
  · rfl
  cases degradationPermitted inputs.klass inputs.policy with
  | false => rfl
  | true =>
      rw [if_pos rfl, Bool.true_and]
      split
      next within => rw [decide_eq_true within, Bool.true_or, if_pos rfl]
      next past =>
        rw [decide_eq_false past, Bool.false_or]
        split <;> rfl

end QoSFabric.Proof.Engine
