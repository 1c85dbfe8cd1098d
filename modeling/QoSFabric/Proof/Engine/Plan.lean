import QoSFabric.Model.Plan
import QoSFabric.Proof.Engine.Validity

namespace QoSFabric.Proof.Engine

open ObligationKind

def requires (klass : QoSClass) (policy : Policy) (key : Text) : Prop :=
  key ∈ klass.requiredPredicates ∨ key ∈ policy.requiredPredicates

def mergeStep (merged : List Text) (key : Text) : List Text :=
  if merged.contains key then merged else merged ++ [key]

theorem mem_mergeStep {merged : List Text} {key k : Text} :
    k ∈ mergeStep merged key ↔ k ∈ merged ∨ k = key := by
  unfold mergeStep
  split
  · next mem =>
      have present : key ∈ merged := by simpa using mem
      constructor
      · exact Or.inl
      · rintro (h | rfl)
        · exact h
        · exact present
  · simp

theorem nodup_mergeStep {merged : List Text} (key : Text) (h : merged.Nodup) :
    (mergeStep merged key).Nodup := by
  unfold mergeStep
  split
  · exact h
  · next absent => simpa [List.nodup_append, h] using fun a mem eq => absent (by simpa [eq] using mem)

theorem length_mergeStep_le (merged : List Text) (key : Text) :
    (mergeStep merged key).length ≤ merged.length + 1 := by
  unfold mergeStep
  split <;> simp

theorem foldl_mergeStep (keys merged : List Text) :
    (merged.Nodup → (keys.foldl mergeStep merged).Nodup) ∧
      (∀ k, k ∈ keys.foldl mergeStep merged ↔ k ∈ merged ∨ k ∈ keys) ∧
      (keys.foldl mergeStep merged).length ≤ merged.length + keys.length := by
  induction keys generalizing merged with
  | nil => simp
  | cons key rest ih =>
      obtain ⟨nodup, mem, length⟩ := ih (mergeStep merged key)
      have step := length_mergeStep_le merged key
      refine ⟨fun h => nodup (nodup_mergeStep key h), fun k => ?_, ?_⟩
      · rw [List.foldl_cons, mem, mem_mergeStep, List.mem_cons, or_assoc]
      · simp only [List.foldl_cons, List.length_cons]
        omega

theorem mergedPredicates_perm (klass : QoSClass) (policy : Policy) :
    (mergedPredicates klass policy).Perm
      (policy.requiredPredicates.foldl mergeStep klass.requiredPredicates) :=
  sortTexts_perm _

theorem mem_mergedPredicates {klass : QoSClass} {policy : Policy} {key : Text} :
    key ∈ mergedPredicates klass policy ↔ requires klass policy key := by
  rw [(mergedPredicates_perm klass policy).mem_iff, (foldl_mergeStep _ _).2.1]
  rfl

theorem mergedPredicates_nodup {klass : QoSClass} {policy : Policy} (valid : ValidClass klass) :
    (mergedPredicates klass policy).Nodup :=
  (mergedPredicates_perm klass policy).nodup_iff.mpr
    ((foldl_mergeStep _ _).1 valid.predicates.nodup)

theorem mergedPredicates_pairwise {klass : QoSClass} {policy : Policy}
    (valid : ValidClass klass) : (mergedPredicates klass policy).Pairwise (· < ·) := by
  have sorted : (mergedPredicates klass policy).Pairwise textLe := sortTexts_pairwise _
  refine (sorted.and (mergedPredicates_nodup valid)).imp ?_
  rintro a b ⟨le, ne⟩
  exact (List.le_iff_lt_or_eq.mp le).resolve_right ne

theorem valid_of_mem_mergedPredicates {klass : QoSClass} {policy : Policy} {key : Text}
    (validClass : ValidClass klass) (validPolicy : PredicateSet policy.requiredPredicates)
    (mem : key ∈ mergedPredicates klass policy) :
    isValidIdentifier key Limits.maxPredicateKeyLen = true := by
  rcases mem_mergedPredicates.mp mem with h | h
  · exact validClass.predicates.valid key h
  · exact validPolicy.valid key h

theorem makeId_predicate {key : Text}
    (valid : isValidIdentifier key Limits.maxPredicateKeyLen = true) :
    makeId .predicate key = text "capability.predicate." ++ key := by
  simp only [isValidIdentifier, Bool.and_eq_true, Bool.not_eq_true',
    decide_eq_true_eq] at valid
  have short : key.length ≤ 64 := valid.1.2
  have split : name .predicate ++ text "." ++ key = text "capability.predicate." ++ key := by
    congr 1
  have length : (text "capability.predicate.").length = 21 := by decide
  rw [makeId, if_neg (by simp [valid.1.1]), split, List.take_of_length_le]
  show (text "capability.predicate." ++ key).length ≤ 96
  rw [List.length_append, length]
  omega

theorem planLess_of_kind {a b : ObligationPlan} (h : a.kind.value < b.kind.value) :
    planLess a b = true := by
  have ne : a.kind ≠ b.kind := by
    intro eq
    rw [eq] at h
    exact UInt8.lt_irrefl _ h
  simp [planLess, ne, h]

theorem kind_of_mem_push {kind : ObligationKind} {required : Option UInt64} {a : ObligationPlan}
    (mem : a ∈ push kind required) : a.kind = kind := by
  cases required with
  | none => simp [push] at mem
  | some value =>
      rw [push, Option.map_some, Option.toList_some, List.mem_singleton] at mem
      rw [mem, plain]

theorem push_pairwise (kind : ObligationKind) (required : Option UInt64) :
    (push kind required).Pairwise (planLess · · = true) := by
  cases required <;> simp [push]

def pushedOf (klass : QoSClass) (policy : Policy) : ObligationKind → List ObligationPlan
  | minRate => push .minRate klass.minRateBps
  | maxRate => push .maxRate klass.maxRateBps
  | peakRate => push .peakRate klass.peakRateBps
  | latency => push .latency klass.maxLatencyUs
  | jitter => push .jitter klass.maxJitterUs
  | loss => push .loss (klass.maxLossPpm.map UInt32.toUInt64)
  | burstBytes => push .burstBytes klass.burstBytes
  | burstInterval => push .burstInterval klass.burstIntervalUs
  | mtu => push .mtu klass.minMtuBytes
  | isolation => push .isolation (some klass.isolation.rank.toUInt64)
  | treatment => push .treatment (some klass.treatment.rank.toUInt64)
  | priorityRank => push .priorityRank (some klass.minPriorityRank.toUInt64)
  | reservation => push .reservation (if klass.requiresReservation then klass.minRateBps else none)
  | disjointPaths => push .disjointPaths (some klass.minDisjointPaths.toUInt64)
  | predicate => (mergedPredicates klass policy).map predicatePlan
  | resourceState => push .resourceState (some stateAvailable)

def pathKinds : List ObligationKind :=
  [minRate, maxRate, peakRate, latency, jitter, loss, burstBytes, burstInterval, mtu, isolation,
    treatment, priorityRank, reservation, disjointPaths]

def kinds : List ObligationKind := pathKinds ++ [predicate, resourceState]

theorem kinds_pairwise : kinds.Pairwise (·.value < ·.value) := by decide

theorem mem_kinds (kind : ObligationKind) : kind ∈ kinds := by
  cases kind <;> decide

theorem pushedPlan_eq (klass : QoSClass) (policy : Policy) :
    pushedPlan klass policy = kinds.flatMap (pushedOf klass policy) := by
  simp [pushedPlan, kinds, pathKinds, pushedOf, List.append_assoc]

theorem kind_of_mem_pushedOf {klass : QoSClass} {policy : Policy} {kind : ObligationKind}
    {a : ObligationPlan} (mem : a ∈ pushedOf klass policy kind) : a.kind = kind := by
  cases kind <;> first
    | exact kind_of_mem_push mem
    | obtain ⟨key, -, rfl⟩ := List.mem_map.mp mem
      rfl

theorem predicatePlan_pairwise {klass : QoSClass} {policy : Policy} (validClass : ValidClass klass)
    (validPolicy : PredicateSet policy.requiredPredicates) :
    ((mergedPredicates klass policy).map predicatePlan).Pairwise (planLess · · = true) := by
  rw [List.pairwise_map]
  refine (mergedPredicates_pairwise validClass).imp_of_mem ?_
  intro a b memA memB lt
  have idA := makeId_predicate (valid_of_mem_mergedPredicates validClass validPolicy memA)
  have idB := makeId_predicate (valid_of_mem_mergedPredicates validClass validPolicy memB)
  simpa [planLess, predicatePlan, idA, idB] using List.append_left_lt lt

theorem pushedPlan_pairwise {klass : QoSClass} {policy : Policy} (validClass : ValidClass klass)
    (validPolicy : PredicateSet policy.requiredPredicates) :
    (pushedPlan klass policy).Pairwise (planLess · · = true) := by
  rw [pushedPlan_eq, List.pairwise_flatMap]
  constructor
  · intro kind _
    cases kind <;> first
      | exact push_pairwise _ _
      | exact predicatePlan_pairwise validClass validPolicy
  · refine kinds_pairwise.imp ?_
    intro k l lt a memA b memB
    apply planLess_of_kind
    rw [kind_of_mem_pushedOf memA, kind_of_mem_pushedOf memB]
    exact lt

theorem planLe_of_planLess {a b : ObligationPlan} (h : planLess a b = true) : planLe a b := by
  unfold planLess at h
  unfold planLe planLess
  by_cases eq : a.kind = b.kind
  · simp only [eq, ne_eq, not_true_eq_false, if_false, decide_eq_true_eq,
      decide_eq_false_iff_not] at h ⊢
    exact List.lt_asymm h
  · have ne : ¬b.kind = a.kind := fun h => eq h.symm
    simp only [ne_eq, eq, ne, not_false_eq_true, if_true, decide_eq_true_eq,
      decide_eq_false_iff_not] at h ⊢
    exact UInt8.lt_asymm h

theorem not_samePlan_of_planLess {a b : ObligationPlan} (h : planLess a b = true) :
    ¬samePlan a b := by
  rintro ⟨kind, id⟩
  simp [planLess, kind, id, List.lt_irrefl] at h

theorem sortedPlan_eq {klass : QoSClass} {policy : Policy} (validClass : ValidClass klass)
    (validPolicy : PredicateSet policy.requiredPredicates) :
    sortedPlan klass policy = pushedPlan klass policy := by
  have sorted := pushedPlan_pairwise validClass validPolicy
  rw [sortedPlan, (sorted.imp planLe_of_planLess).insertionSort_eq]
  exact List.destutter_of_isChain _ _ (sorted.imp not_samePlan_of_planLess).isChain

theorem buildPlan_eq {klass : QoSClass} {policy : Policy} (validClass : ValidClass klass)
    (validPolicy : PredicateSet policy.requiredPredicates) :
    buildPlan klass policy = (pushedPlan klass policy).take Limits.maxObligations := by
  rw [buildPlan, sortedPlan_eq validClass validPolicy]

theorem mem_pushedPlan {klass : QoSClass} {policy : Policy} {a : ObligationPlan} :
    a ∈ pushedPlan klass policy ↔ a ∈ pushedOf klass policy a.kind := by
  rw [pushedPlan_eq, List.mem_flatMap]
  constructor
  · rintro ⟨kind, -, mem⟩
    rwa [kind_of_mem_pushedOf mem]
  · exact fun mem => ⟨a.kind, mem_kinds a.kind, mem⟩

theorem length_push_le (kind : ObligationKind) (required : Option UInt64) :
    (push kind required).length ≤ 1 := by
  cases required <;> simp [push]

theorem length_pathKinds_le (klass : QoSClass) (policy : Policy) :
    (pathKinds.flatMap (pushedOf klass policy)).length ≤ 14 := by
  simp only [pathKinds, List.flatMap_cons, List.flatMap_nil, pushedOf, List.length_append,
    List.length_nil]
  have bound := length_push_le
  grind

theorem pushedPlan_split (klass : QoSClass) (policy : Policy) :
    pushedPlan klass policy = pathKinds.flatMap (pushedOf klass policy) ++
      ((mergedPredicates klass policy).map predicatePlan ++ [plain .resourceState stateAvailable]) := by
  rw [pushedPlan_eq, kinds, List.flatMap_append]
  simp [pushedOf, push]

/-- The obligations past the budget. -/
def clipped (klass : QoSClass) (policy : Policy) : List ObligationPlan :=
  (pushedPlan klass policy).drop Limits.maxObligations

theorem mem_pushedPlan_iff {klass : QoSClass} {policy : Policy} (validClass : ValidClass klass)
    (validPolicy : PredicateSet policy.requiredPredicates) {a : ObligationPlan} :
    a ∈ pushedPlan klass policy ↔ a ∈ buildPlan klass policy ∨ a ∈ clipped klass policy := by
  rw [buildPlan_eq validClass validPolicy, clipped, ← List.mem_append, List.take_append_drop]

theorem mem_buildPlan {klass : QoSClass} {policy : Policy} (validClass : ValidClass klass)
    (validPolicy : PredicateSet policy.requiredPredicates) {a : ObligationPlan}
    (mem : a ∈ pushedPlan klass policy) (kind : a.kind ∈ pathKinds) :
    a ∈ buildPlan klass policy := by
  have head : a ∈ pathKinds.flatMap (pushedOf klass policy) :=
    List.mem_flatMap.mpr ⟨a.kind, kind, mem_pushedPlan.mp mem⟩
  have length := length_pathKinds_le klass policy
  rw [buildPlan_eq validClass validPolicy, pushedPlan_split, List.take_append,
    List.take_of_length_le (Nat.le_trans length (by decide))]
  exact List.mem_append_left _ head

theorem kind_of_mem_clipped {klass : QoSClass} {policy : Policy} {a : ObligationPlan}
    (mem : a ∈ clipped klass policy) : a.kind = .predicate ∨ a.kind = .resourceState := by
  have length := length_pathKinds_le klass policy
  rw [clipped, pushedPlan_split, List.drop_append,
    List.drop_of_length_le (Nat.le_trans length (by decide)), List.nil_append] at mem
  rcases List.mem_append.mp (List.mem_of_mem_drop mem) with h | h
  · obtain ⟨key, -, rfl⟩ := List.mem_map.mp h
    exact .inl rfl
  · exact .inr (by rw [List.mem_singleton.mp h]; rfl)

end QoSFabric.Proof.Engine
