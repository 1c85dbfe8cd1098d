import QoSFabric.Model.Decision
import Mathlib.Data.List.Destutter

/-!
# The obligation plan

The canonical obligation set a class and a policy imply, sorted by kind and identifier.
-/

namespace QoSFabric

def ppm : UInt64 := 1000000

def stateAvailable : UInt64 := 3

structure ObligationPlan where
  kind : ObligationKind
  id : Text
  predicate : Text
  required : UInt64
  binding : Bool
  deriving DecidableEq, Repr

def planLess (a b : ObligationPlan) : Bool :=
  if a.kind ≠ b.kind then a.kind.value < b.kind.value else decide (a.id < b.id)

/-- The order `std::sort` arranges a plan by. -/
def planLe (a b : ObligationPlan) : Prop := planLess b a = false

instance : DecidableRel planLe := fun a b => inferInstanceAs (Decidable (planLess b a = false))

def samePlan (a b : ObligationPlan) : Prop := a.kind = b.kind ∧ a.id = b.id

instance : DecidableRel samePlan := fun a b =>
  inferInstanceAs (Decidable (a.kind = b.kind ∧ a.id = b.id))

def makeId (kind : ObligationKind) (suffix : Text) : Text :=
  let full := if suffix.isEmpty then kind.name else kind.name ++ text "." ++ suffix
  full.take Limits.maxIdentifierLen

def mergedPredicates (klass : QoSClass) (policy : Policy) : List Text :=
  sortTexts <| policy.requiredPredicates.foldl
    (fun merged key => if merged.contains key then merged else merged ++ [key])
    klass.requiredPredicates

def plain (kind : ObligationKind) (required : UInt64) : ObligationPlan :=
  ⟨kind, makeId kind [], [], required, true⟩

def predicatePlan (key : Text) : ObligationPlan :=
  ⟨.predicate, makeId .predicate key, key, 1, true⟩

def push (kind : ObligationKind) (required : Option UInt64) : List ObligationPlan :=
  (required.map (plain kind)).toList

/-- Every obligation in the order `build_plan` pushes them. -/
def pushedPlan (klass : QoSClass) (policy : Policy) : List ObligationPlan :=
  push .minRate klass.minRateBps
    ++ push .maxRate klass.maxRateBps
    ++ push .peakRate klass.peakRateBps
    ++ push .latency klass.maxLatencyUs
    ++ push .jitter klass.maxJitterUs
    ++ push .loss (klass.maxLossPpm.map UInt32.toUInt64)
    ++ push .burstBytes klass.burstBytes
    ++ push .burstInterval klass.burstIntervalUs
    ++ push .mtu klass.minMtuBytes
    ++ push .isolation (some klass.isolation.rank.toUInt64)
    ++ push .treatment (some klass.treatment.rank.toUInt64)
    ++ push .priorityRank (some klass.minPriorityRank.toUInt64)
    ++ push .reservation (if klass.requiresReservation then klass.minRateBps else none)
    ++ push .disjointPaths (some klass.minDisjointPaths.toUInt64)
    ++ (mergedPredicates klass policy).map predicatePlan
    ++ push .resourceState (some stateAvailable)

def sortedPlan (klass : QoSClass) (policy : Policy) : List ObligationPlan :=
  ((pushedPlan klass policy).insertionSort planLe).destutter fun a b => ¬samePlan a b

def buildPlan (klass : QoSClass) (policy : Policy) : List ObligationPlan :=
  (sortedPlan klass policy).take Limits.maxObligations

def ObligationPlan.assessment (item : ObligationPlan) : ObligationAssessment where
  kind := item.kind
  id := item.id
  binding := item.binding
  relaxable := item.kind.relaxable
  direction := item.kind.direction
  aggregate := item.kind.aggregate
  pathLevel := item.kind == .disjointPaths
  requiredValue := item.required
  effectiveLimit := item.required
  composedValue := none
  relaxationAppliedPpm := 0
  relaxationReportedOnly := false
  status := .satisfied
  bindingResource := none
  weakestResource := none
  headroomPpm := 0
  detail := if item.kind = .predicate then item.predicate.take Limits.maxDetailLen else []

def deriveObligations (klass : QoSClass) (policy : Policy) :
    Result (List ObligationAssessment) := do
  validateQoSClass klass
  validatePolicy policy
  return (buildPlan klass policy).map ObligationPlan.assessment

end QoSFabric
