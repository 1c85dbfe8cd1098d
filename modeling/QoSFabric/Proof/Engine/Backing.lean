import QoSFabric.Proof.Engine.Conflict
import QoSFabric.Proof.Engine.Relaxation

/-!
# Reservations behind a verdict

A reservation obligation is satisfied by what stands at the index of each component: a reservation
of the class, in time, of a current epoch and large enough. Whose resource it reserves is not looked
at, so the path is backed exactly when the reservations at hand are those of its own resources.
-/

namespace QoSFabric.Proof.Engine

variable {inputs : EvaluationInputs} {item : ObligationPlan}

structure Backs (inputs : EvaluationInputs) (component : PathComponent) (reservation : Reservation) :
    Prop where
  resource : reservation.resource = component.resource
  classId : reservation.classId = inputs.klass.id
  classGeneration : reservation.classGeneration = inputs.klass.generation
  unexpired : reservation.expiresAtMs = 0 ∨ inputs.nowMs ≤ reservation.expiresAtMs
  epoch : inputs.currentEpoch.toNat ≤ reservation.epoch.toNat + inputs.policy.maxStaleEpochs.toNat
  rate : ∃ rate, inputs.klass.minRateBps = some rate ∧ rate ≤ reservation.reservedMinRateBps

/-- Every component has a reservation at its index that holds what the class asks. -/
def Backed (inputs : EvaluationInputs) : Prop :=
  ∀ (index : Nat) component, inputs.path.components[index]? = some component →
    ∃ reservation, inputs.reservations[index]? = some (some reservation) ∧
      Backs inputs component reservation

/-- The reservation at the index of a component, if any, is one of its resource. -/
def OwnReservations (inputs : EvaluationInputs) : Prop :=
  ∀ (index : Nat) component reservation, inputs.path.components[index]? = some component →
    inputs.reservations[index]? = some (some reservation) →
    reservation.resource = component.resource

theorem assessOrdinary_overflowed {resolutions : List Resolution}
    (overflowed : (assessOrdinary inputs resolutions item).overflowed = true) :
    (assessOrdinary inputs resolutions item).assessment.status = .unknown := by
  revert overflowed
  unfold assessOrdinary
  cases blocked resolutions with
  | some finding => exact nofun
  | none =>
      dsimp only
      cases (scratch inputs resolutions item).findIdx? (!·.present) with
      | some i => exact nofun
      | none =>
          dsimp only
          rw [assessComposition_overflowed]
          intro overflow
          unfold assessComposition
          rw [if_pos overflow]

theorem met_of_satisfied (accepted : Accepted inputs) (ordinary : Ordinary item.kind)
    (satisfied : (assessOrdinary inputs (resolve inputs) item).assessment.status = .satisfied) :
    (∀ r ∈ resolve inputs, Resolution.Resolved r) ∧
      (∀ v ∈ declaredValues inputs item, v.present = true) ∧
        Composes item.kind.aggregate (fixedOverhead inputs.path item.kind) item.required
          ((declaredValues inputs item).map RawValue.value) := by
  have resolved : ∀ r ∈ resolve inputs, Resolution.Resolved r := by
    rw [← blocked_eq_none]
    cases stopped : blocked (resolve inputs) with
    | none => rfl
    | some finding =>
        have status : finding.1 = .satisfied := by
          unfold assessOrdinary at satisfied
          rw [stopped] at satisfied
          exact satisfied
        exact absurd (blocked_status stopped) (by rw [status]; decide)
  refine ⟨resolved, (assessOrdinary_le accepted resolved ordinary).mp ⟨?_, ?_⟩⟩
  · intro overflowed
    rw [assessOrdinary_overflowed overflowed] at satisfied
    cases satisfied
  · rw [satisfied]
    decide

theorem reservationValue_present {slot : Option Reservation} {klass : QoSClass} {policy : Policy}
    {currentEpoch nowMs : UInt64}
    (present : (reservationValue slot klass policy currentEpoch nowMs).present = true) :
    ∃ reservation, slot = some reservation ∧ reservation.classId = klass.id ∧
      reservation.classGeneration = klass.generation ∧
      (reservation.expiresAtMs = 0 ∨ nowMs ≤ reservation.expiresAtMs) ∧
      epochBehind reservation.epoch policy currentEpoch = false ∧
      (reservationValue slot klass policy currentEpoch nowMs).value =
        reservation.reservedMinRateBps := by
  cases slot with
  | none => cases present
  | some reservation =>
      unfold reservationValue at present ⊢
      dsimp only at present ⊢
      split at present
      · cases present
      next matching =>
        split at present
        · cases present
        next timely =>
          split at present
          · cases present
          next recent =>
            rw [if_neg matching, if_neg timely, if_neg recent]
            simp only [reservationMatchesClass, Bool.not_eq_true', Bool.not_eq_false,
              Bool.and_eq_true, beq_iff_eq] at matching
            simp only [Bool.and_eq_true, bne_iff_ne, decide_eq_true_eq, not_and, gt_iff_lt,
              UInt64.not_lt] at timely
            refine ⟨reservation, rfl, matching.1, matching.2, ?_, Bool.not_eq_true _ ▸ recent, rfl⟩
            by_cases never : reservation.expiresAtMs = 0
            · exact .inl never
            · exact .inr (timely never)

theorem reservation_declared {component : PathComponent} {index : Nat}
    (kind : item.kind = .reservation)
    (found : inputs.path.components[index]? = some component)
    (resolved : ∀ r ∈ resolve inputs, Resolution.Resolved r) :
    reservationValue (inputs.reservations.getD index none) inputs.klass inputs.policy
      inputs.currentEpoch inputs.nowMs ∈ declaredValues inputs item := by
  have mem := mem_resolve.mpr ⟨index, component, found, rfl⟩
  obtain ⟨capability, held, valid, domain⟩ := resolved_iff.mp (resolved _ mem)
  refine List.mem_map.mpr ⟨_, mem, ?_⟩
  rw [resolveAt_of_resolves held valid domain]
  unfold componentValue capabilityValue
  rw [kind]
  rfl

theorem reservation_required {klass : QoSClass} {policy : Policy}
    (mem : item ∈ pushedPlan klass policy) (kind : item.kind = .reservation) :
    klass.minRateBps = some item.required := by
  have pushed := mem_pushedPlan.mp mem
  rw [kind] at pushed
  obtain ⟨rate, asked, rfl⟩ := Option.map_eq_some_iff.mp (Option.mem_toList.mp pushed)
  split at asked
  · exact asked
  · cases asked

/-- A path with a satisfied reservation obligation is backed exactly when no reservation at hand is
one of another resource. -/
theorem reservation_backed_iff {decision : ContractDecision}
    (evaluated : evaluate inputs = .ok decision) {a : ObligationAssessment}
    (mem : a ∈ decision.obligations) (kind : a.kind = .reservation)
    (satisfied : a.status = .satisfied) : Backed inputs ↔ OwnReservations inputs := by
  have accepted : Accepted inputs := by
    by_contra refused
    rw [evaluate_refused refused evaluated] at mem
    cases mem
  obtain ⟨item, planned, rfl⟩ := mem_obligations accepted evaluated mem
  rw [(assess_names _ _ item).1] at kind
  have ordinary : Ordinary item.kind := by
    rw [kind]
    exact ⟨by decide, by decide⟩
  rw [assess_ordinary ordinary] at satisfied
  obtain ⟨resolved, present, composes⟩ := met_of_satisfied accepted ordinary satisfied
  rw [kind] at composes
  have pushed := (mem_pushedPlan_iff (validateQoSClass_ok accepted.klass)
    (validatePolicy_ok accepted.policy)).mpr (.inl planned)
  constructor
  · intro backed index component reservation found slot
    obtain ⟨held, same, backs⟩ := backed index component found
    obtain rfl := Option.some.inj (Option.some.inj (slot.symm.trans same))
    exact backs.resource
  · intro own index component found
    have declared := reservation_declared kind found resolved
    obtain ⟨reservation, slot, classId, generation, unexpired, recent, value⟩ :=
      reservationValue_present (present _ declared)
    have held := getElem?_of_getD slot
    refine ⟨reservation, held, own index component reservation found held, classId, generation,
      unexpired, epoch_le_of_not_epochBehind recent, item.required,
      reservation_required pushed kind, ?_⟩
    rw [← value]
    exact composes _ (List.mem_map_of_mem declared)

/-- The only component is `r1`; the reservation at its index is one of `r2`. -/
def borrowingInputs : EvaluationInputs :=
  { plainInputs with
    klass := { plainClass with minRateBps := some 100, requiresReservation := true }
    capabilities := [some { plainCapability with supportedRateBps := some 100 }]
    reservations := [some {
      resource := text "r2"
      generation := 1
      classId := text "gold"
      classGeneration := 1
      reservedMinRateBps := 100
      reservedBurstBytes := 0
      epoch := 0
      publisher := text "p1"
      incarnation := 1
      expiresAtMs := 0
      digest := .zero
      provenance := .none }] }

theorem borrowingInputs_accepted : Accepted borrowingInputs := by
  rw [← intake_le (show ¬Outcome.rejected ≤ .supported by decide)]
  decide +kernel

theorem borrowing_satisfied : ∃ decision a, evaluate borrowingInputs = .ok decision ∧
    a ∈ decision.obligations ∧ a.kind = .reservation ∧ a.status = .satisfied := by
  obtain ⟨decision, evaluated⟩ := evaluate_ok borrowingInputs
  let plan := buildPlan borrowingInputs.klass borrowingInputs.policy
  let item := plain .reservation 100
  have planned : item ∈ plan := by decide +kernel
  have mem : (assess borrowingInputs plan (resolve borrowingInputs) item).assessment ∈
      decision.obligations := by
    rw [(evaluate_reports borrowingInputs_accepted evaluated).obligations]
    exact List.mem_map_of_mem (mem_assessAll.mpr ⟨item, planned, rfl⟩)
  exact ⟨decision, _, evaluated, mem, (assess_names _ _ item).1, by decide +kernel⟩

theorem reservation_backed_iff_borrowing : ∃ decision a, evaluate borrowingInputs = .ok decision ∧
    a ∈ decision.obligations ∧ a.kind = .reservation ∧ a.status = .satisfied ∧
    (Backed borrowingInputs ↔ OwnReservations borrowingInputs) := by
  obtain ⟨decision, a, evaluated, mem, kind, satisfied⟩ := borrowing_satisfied
  exact ⟨decision, a, evaluated, mem, kind, satisfied,
    reservation_backed_iff evaluated mem kind satisfied⟩

/-- The obligation is satisfied by a reservation of a resource that is not on the path. -/
theorem borrowed_reservation : ¬∀ inputs decision a, evaluate inputs = .ok decision →
    a ∈ decision.obligations → a.kind = .reservation → a.status = .satisfied → Backed inputs := by
  intro backs
  obtain ⟨decision, a, evaluated, mem, kind, satisfied⟩ := borrowing_satisfied
  obtain ⟨reservation, slot, backed⟩ := backs borrowingInputs decision a evaluated mem kind satisfied
    0 _ rfl
  obtain rfl := Option.some.inj (Option.some.inj slot)
  exact absurd backed.resource (by decide)

end QoSFabric.Proof.Engine
