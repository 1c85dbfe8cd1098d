import QoSFabric.Model.Plan

/-!
# Per-component values and end-to-end composition
-/

namespace QoSFabric

structure Resolution where
  index : Nat
  resource : Text
  declaredDomain : Text
  role : PathRole
  boundGeneration : Generation
  status : ComponentStatus
  capability : Option ResourceCapability
  reservation : Option Reservation
  observedGeneration : Option Generation
  observedIncarnation : Option PublisherIncarnation
  selfDeclaredDegraded : Bool
  domainContradiction : Bool
  reason : Text
  deriving DecidableEq

structure RawValue where
  present : Bool
  value : UInt64
  detail : Text
  deriving DecidableEq, Repr

namespace RawValue

def absent : RawValue := ⟨false, 0, []⟩

def missing (detail : String) : RawValue := ⟨false, 0, text detail⟩

def declared (value : UInt64) : RawValue := ⟨true, value, []⟩

def ofOption (value : Option UInt64) (detail : String) : RawValue :=
  match value with
  | some value => declared value
  | none => missing detail

end RawValue

def reservationMatchesClass (reservation : Reservation) (klass : QoSClass) : Bool :=
  reservation.classId == klass.id && reservation.classGeneration == klass.generation

def epochBehind (epoch : FabricEpoch) (policy : Policy) (currentEpoch : FabricEpoch) : Bool :=
  epoch + policy.maxStaleEpochs.toUInt64 < currentEpoch

def reservationValue (reservation : Option Reservation) (klass : QoSClass) (policy : Policy)
    (currentEpoch : FabricEpoch) (nowMs : UInt64) : RawValue :=
  match reservation with
  | none => .missing "no reservation evidence for this resource"
  | some reservation =>
      if !reservationMatchesClass reservation klass then
        .missing "reservation names a different class or class generation"
      else if reservation.expiresAtMs != 0 && nowMs > reservation.expiresAtMs then
        .missing "reservation expired"
      else if epochBehind reservation.epoch policy currentEpoch then
        .missing "reservation epoch behind the fabric epoch"
      else .declared reservation.reservedMinRateBps

def capabilityValue (plan : ObligationPlan) (capability : ResourceCapability)
    (resolution : Resolution) (klass : QoSClass) (policy : Policy) (currentEpoch : FabricEpoch)
    (nowMs : UInt64) : RawValue :=
  match plan.kind with
  | .minRate | .maxRate | .peakRate =>
      .ofOption capability.supportedRateBps "resource declares no supported rate"
  | .latency => .ofOption capability.latencyBoundUs "resource declares no latency bound"
  | .jitter => .ofOption capability.jitterBoundUs "resource declares no jitter bound"
  | .loss => .ofOption (capability.lossPpm.map UInt32.toUInt64) "resource declares no loss bound"
  | .burstBytes => .ofOption capability.maxBurstBytes "resource declares no burst capacity"
  | .burstInterval => .ofOption capability.burstWindowUs "resource declares no burst window"
  | .mtu => .ofOption capability.mtuBytes "resource declares no MTU"
  | .isolation => .declared capability.maxIsolation.rank.toUInt64
  | .treatment => .declared capability.maxTreatment.rank.toUInt64
  | .priorityRank => .declared capability.maxPriorityRank.toUInt64
  | .resourceState =>
      .declared (if resolution.selfDeclaredDegraded then CapabilityState.degraded.value.toUInt64
        else CapabilityState.available.value.toUInt64)
  | .reservation => reservationValue resolution.reservation klass policy currentEpoch nowMs
  | .predicate =>
      if capability.predicates.contains plan.predicate then .declared 1
      else .missing "resource does not declare the required capability predicate"
  | .disjointPaths => .missing "obligation is evaluated at path level"

/-- `component_value`; every caller has checked that the component resolved to a capability. -/
def componentValue (plan : ObligationPlan) (resolution : Resolution) (klass : QoSClass)
    (policy : Policy) (currentEpoch : FabricEpoch) (nowMs : UInt64) : RawValue :=
  match resolution.capability with
  | none => .absent
  | some capability =>
      capabilityValue plan capability resolution klass policy currentEpoch nowMs

/-! ## Composition -/

structure Composition where
  overflow : Bool
  value : Option UInt64
  bindingIndex : Nat
  weakestIndex : Nat
  detail : Text
  deriving DecidableEq, Repr

/-- The best value so far and its index, over the values from `index` on. -/
def scan (better : UInt64 → UInt64 → Bool) :
    List UInt64 → Nat → UInt64 × Nat → UInt64 × Nat
  | [], _, best => best
  | value :: rest, index, best =>
      scan better rest (index + 1) (if better value best.1 then (value, index) else best)

def extremum (better : UInt64 → UInt64 → Bool) (first : UInt64) (rest : List UInt64) :
    UInt64 × Nat :=
  scan better rest 1 (first, 0)

def addAll (fixedOverhead : UInt64) (values : List UInt64) : Option UInt64 :=
  values.foldlM checkedAdd fixedOverhead

def clampLoss (loss : UInt64) : UInt64 := if loss > ppm then ppm else loss

def deliver (delivery loss : UInt64) : Option UInt64 :=
  (checkedMul delivery (ppm - clampLoss loss)).map (· / ppm)

def deliverAll (values : List UInt64) : Option UInt64 :=
  values.foldlM deliver ppm

namespace Composition

def ofValue (value : UInt64) (index : Nat) : Composition :=
  ⟨false, some value, index, index, []⟩

def ofTotal (total : Option UInt64) (index : Nat) (overflow : String) : Composition :=
  match total with
  | none => ⟨true, none, 0, 0, text overflow⟩
  | some total => .ofValue total index

end Composition

def composePresent (aggregate : AggregateKind) (first : UInt64) (rest : List UInt64)
    (fixedOverhead : UInt64) : Composition :=
  match aggregate with
  | .weakestLink | .allPresent =>
      .ofValue (extremum (· < ·) first rest).1 (extremum (· < ·) first rest).2
  | .worstCase => .ofValue (extremum (· > ·) first rest).1 (extremum (· > ·) first rest).2
  | .additive =>
      .ofTotal (addAll fixedOverhead (first :: rest)) (extremum (· > ·) first rest).2
        "aggregation overflow"
  | .lossCompose =>
      .ofTotal ((deliverAll (first :: rest)).map (ppm - ·))
        (extremum (· > ·) (clampLoss first) (rest.map clampLoss)).2 "loss aggregation overflow"
  | .pathDiversity => ⟨false, none, 0, 0, text "diversity is evaluated at path level"⟩

def composeValues (aggregate : AggregateKind) (values : List RawValue)
    (fixedOverhead : UInt64) : Composition :=
  match values with
  | [] => ⟨false, none, 0, 0, text "no components to compose"⟩
  | first :: rest =>
      match values.findIdx? (!·.present) with
      | some i => ⟨false, none, i, 0, (values.getD i .absent).detail⟩
      | none => composePresent aggregate first.value (rest.map RawValue.value) fixedOverhead

def computeHeadroom (direction : CompareDirection) (required composed : UInt64) : UInt32 :=
  if required = 0 then 1000000
  else
    let numerator := match direction with
      | .atLeast => if composed ≤ required then 0 else composed - required
      | .atMost => if composed ≥ required then 0 else required - composed
    if numerator = 0 then 0
    else match checkedMul numerator ppm with
      | none => 1000000
      | some scaled =>
          let share := scaled / required
          (if share > ppm then ppm else share).toUInt32

def shortText (value : Text) : Text := value.take Limits.maxDetailLen

def compliant (direction : CompareDirection) (value required : UInt64) : Bool :=
  match direction with
  | .atLeast => value ≥ required
  | .atMost => value ≤ required

end QoSFabric
