import QoSFabric.Proof.Engine.Evidence

/-!
# Staleness

Capabilities, reservations and the epoch a request observed are compared with the fabric epoch by
one unsigned sum. The sum wraps, so an epoch near the top of the range is taken to be behind.
-/

namespace QoSFabric.Proof.Engine

variable {inputs : EvaluationInputs} {epoch currentEpoch : FabricEpoch} {policy : Policy}

/-- The sum of the comparison does not wrap, or what is left of it still reaches the fabric epoch. -/
def Unwrapped (epoch : FabricEpoch) (policy : Policy) (currentEpoch : FabricEpoch) : Prop :=
  epoch.toNat + policy.maxStaleEpochs.toNat < 2 ^ 64 ∨
    currentEpoch.toNat + 2 ^ 64 ≤ epoch.toNat + policy.maxStaleEpochs.toNat

theorem epochBehind_iff : epochBehind epoch policy currentEpoch = true ↔
    (epoch.toNat + policy.maxStaleEpochs.toNat) % 2 ^ 64 < currentEpoch.toNat := by
  simp only [epochBehind, decide_eq_true_eq, UInt64.lt_iff_toNat_lt, UInt64.toNat_add,
    UInt32.toNat_toUInt64]

theorem epochBehind_exact_iff :
    (epochBehind epoch policy currentEpoch = true ↔
      epoch.toNat + policy.maxStaleEpochs.toNat < currentEpoch.toNat) ↔
    Unwrapped epoch policy currentEpoch := by
  rw [epochBehind_iff]
  unfold Unwrapped
  have range := epoch.toNat_lt
  have stale := policy.maxStaleEpochs.toNat_lt
  have current := currentEpoch.toNat_lt
  rcases Nat.lt_or_ge (epoch.toNat + policy.maxStaleEpochs.toNat) (2 ^ 64) with small | large
  · rw [Nat.mod_eq_of_lt small]
    exact iff_of_true Iff.rfl (.inl small)
  · rw [Nat.mod_eq_sub_mod large, Nat.mod_eq_of_lt (by omega)]
    omega

theorem epochBehind_earlier {earlier : FabricEpoch} (unwrapped : Unwrapped epoch policy currentEpoch)
    (le : earlier ≤ epoch) (behind : epochBehind epoch policy currentEpoch = true) :
    epochBehind earlier policy currentEpoch = true := by
  rw [epochBehind_exact_iff.mpr unwrapped] at behind
  rw [epochBehind_iff]
  have below := UInt64.le_iff_toNat_le.mp le
  exact Nat.lt_of_le_of_lt (Nat.mod_le _ _) (by omega)

/-- An epoch that is compared with the fabric epoch, and what it means that it is taken to be
behind. Evidence that an earlier check sets aside is not compared. -/
inductive Compares (inputs : EvaluationInputs) : FabricEpoch → Prop → Prop where
  | capability {component : PathComponent} {index : Nat} {capability : ResourceCapability}
      (slot : inputs.capabilities.getD index none = some capability)
      (resource : capability.resource = component.resource)
      (generation : capability.generation = component.capabilityGeneration) :
      Compares inputs capability.epoch ((resolveAt inputs component index).status = .stale ∧
        (resolveAt inputs component index).reason =
          text "capability epoch is behind the fabric epoch")
  | reservation {component : PathComponent} {index : Nat} {item : ObligationPlan}
      {reservation : Reservation} (kind : item.kind = .reservation)
      (resolved : Resolution.Resolved (resolveAt inputs component index))
      (slot : inputs.reservations.getD index none = some reservation)
      (klass : reservationMatchesClass reservation inputs.klass = true)
      (unexpired : reservation.expiresAtMs = 0 ∨ inputs.nowMs ≤ reservation.expiresAtMs) :
      Compares inputs reservation.epoch (scratchValue inputs item (resolveAt inputs component index) =
        .missing "reservation epoch behind the fabric epoch")
  | observed (nonzero : inputs.request.observedEpoch ≠ 0) :
      Compares inputs inputs.request.observedEpoch
        ((currency { inputs with currency := ⟨none, none, none⟩ } .clean).outcome = .stale)

theorem invalidation_behind_iff {component : PathComponent} {capability : ResourceCapability}
    (resource : capability.resource = component.resource)
    (generation : capability.generation = component.capabilityGeneration) :
    invalidation inputs.policy inputs.currentEpoch inputs.nowMs component capability =
        some (.stale, text "capability epoch is behind the fabric epoch") ↔
      epochBehind capability.epoch inputs.policy inputs.currentEpoch = true := by
  unfold invalidation
  rw [if_neg (not_not.mpr resource), if_neg (not_not.mpr generation)]
  cases epochBehind capability.epoch inputs.policy inputs.currentEpoch with
  | true => exact iff_of_true rfl rfl
  | false =>
      rw [if_neg Bool.false_ne_true]
      refine iff_of_false ?_ Bool.false_ne_true
      split_ifs <;> decide

theorem capability_behind_iff {component : PathComponent} {index : Nat}
    {capability : ResourceCapability} (slot : inputs.capabilities.getD index none = some capability)
    (resource : capability.resource = component.resource)
    (generation : capability.generation = component.capabilityGeneration) :
    ((resolveAt inputs component index).status = .stale ∧
        (resolveAt inputs component index).reason =
          text "capability epoch is behind the fabric epoch") ↔
      epochBehind capability.epoch inputs.policy inputs.currentEpoch = true := by
  rw [← invalidation_behind_iff resource generation]
  unfold resolveAt resolveComponent
  rw [slot]
  dsimp only
  cases invalidation inputs.policy inputs.currentEpoch inputs.nowMs component capability with
  | some finding =>
      obtain ⟨status, reason⟩ := finding
      dsimp only
      rw [Option.some.injEq, Prod.mk.injEq]
  | none =>
      refine iff_of_false ?_ nofun
      dsimp only
      split
      · exact fun behind => absurd behind.1 (by dsimp only; decide)
      · rintro ⟨status, -⟩
        dsimp only at status
        split at status <;> cases status

theorem reservation_behind_iff {component : PathComponent} {index : Nat} {item : ObligationPlan}
    {reservation : Reservation} (kind : item.kind = .reservation)
    (resolved : Resolution.Resolved (resolveAt inputs component index))
    (slot : inputs.reservations.getD index none = some reservation)
    (klass : reservationMatchesClass reservation inputs.klass = true)
    (unexpired : reservation.expiresAtMs = 0 ∨ inputs.nowMs ≤ reservation.expiresAtMs) :
    scratchValue inputs item (resolveAt inputs component index) =
        .missing "reservation epoch behind the fabric epoch" ↔
      epochBehind reservation.epoch inputs.policy inputs.currentEpoch = true := by
  obtain ⟨capability, held, valid, domain⟩ := resolved_iff.mp resolved
  have late : (reservation.expiresAtMs != 0 && decide (inputs.nowMs > reservation.expiresAtMs)) =
      false := by
    rw [Bool.and_eq_false_iff, bne_eq_false_iff_eq, decide_eq_false_iff_not, gt_iff_lt,
      UInt64.not_lt]
    exact unexpired
  have value : scratchValue inputs item (resolveAt inputs component index) =
      reservationValue (some reservation) inputs.klass inputs.policy inputs.currentEpoch
        inputs.nowMs := by
    rw [resolveAt_of_resolves held valid domain, slot]
    unfold scratchValue componentValue capabilityValue
    rw [kind]
    cases capability.state == .degraded <;> rfl
  rw [value]
  unfold reservationValue
  dsimp only
  rw [klass, late]
  cases epochBehind reservation.epoch inputs.policy inputs.currentEpoch with
  | true => exact iff_of_true rfl rfl
  | false => exact iff_of_false nofun Bool.false_ne_true

theorem observed_behind_iff (nonzero : inputs.request.observedEpoch ≠ 0) :
    (currency { inputs with currency := ⟨none, none, none⟩ } .clean).outcome = .stale ↔
      epochBehind inputs.request.observedEpoch inputs.policy inputs.currentEpoch = true := by
  have asserted : (inputs.request.observedEpoch != 0) = true := bne_iff_ne.mpr nonzero
  unfold currency
  dsimp only
  rw [asserted]
  cases epochBehind inputs.request.observedEpoch inputs.policy inputs.currentEpoch with
  | true => exact iff_of_true rfl rfl
  | false => exact iff_of_false nofun Bool.false_ne_true

theorem Compares.behind_iff {behind : Prop} (compares : Compares inputs epoch behind) :
    behind ↔ epochBehind epoch inputs.policy inputs.currentEpoch = true := by
  cases compares with
  | capability slot resource generation => exact capability_behind_iff slot resource generation
  | reservation kind resolved slot klass unexpired =>
      exact reservation_behind_iff kind resolved slot klass unexpired
  | observed nonzero => exact observed_behind_iff nonzero

/-- An epoch is taken to be behind exactly when it is, unless the sum wraps below the fabric epoch;
where it does not, no earlier epoch is fresher. -/
theorem staleness_exact_iff {behind : Prop} (compares : Compares inputs epoch behind) :
    ((behind ↔ epoch.toNat + inputs.policy.maxStaleEpochs.toNat < inputs.currentEpoch.toNat) ↔
      Unwrapped epoch inputs.policy inputs.currentEpoch) ∧
    (Unwrapped epoch inputs.policy inputs.currentEpoch → ∀ earlier ≤ epoch, behind →
      epochBehind earlier inputs.policy inputs.currentEpoch = true) := by
  rw [compares.behind_iff]
  exact ⟨epochBehind_exact_iff, fun unwrapped _ le => epochBehind_earlier unwrapped le⟩

/-- The fabric is in its first epoch, and the evidence is of the last epoch there can be. -/
def topmostInputs : EvaluationInputs :=
  { plainInputs with
    policy := { plainPolicy with maxStaleEpochs := 1 }
    capabilities := [some { plainCapability with epoch := maxUInt64 }]
    currentEpoch := 1 }

theorem topmost_compares : Compares topmostInputs maxUInt64
    ((resolveAt topmostInputs ⟨text "r1", 1, text "d1", .member⟩ 0).status = .stale ∧
      (resolveAt topmostInputs ⟨text "r1", 1, text "d1", .member⟩ 0).reason =
        text "capability epoch is behind the fabric epoch") :=
  .capability (show topmostInputs.capabilities.getD 0 none =
    some { plainCapability with epoch := maxUInt64 } from rfl) rfl rfl

theorem staleness_exact_iff_topmost : ∃ behind, Compares topmostInputs maxUInt64 behind ∧
    ((behind ↔ maxUInt64.toNat + topmostInputs.policy.maxStaleEpochs.toNat <
      topmostInputs.currentEpoch.toNat) ↔
      Unwrapped maxUInt64 topmostInputs.policy topmostInputs.currentEpoch) ∧
    (Unwrapped maxUInt64 topmostInputs.policy topmostInputs.currentEpoch →
      ∀ earlier ≤ maxUInt64, behind →
        epochBehind earlier topmostInputs.policy topmostInputs.currentEpoch = true) :=
  ⟨_, topmost_compares, staleness_exact_iff topmost_compares⟩

/-- The last epoch is taken to be behind the first one. -/
theorem topmost_behind : ¬∀ inputs epoch behind, Compares inputs epoch behind →
    (behind ↔ epoch.toNat + inputs.policy.maxStaleEpochs.toNat < inputs.currentEpoch.toNat) := by
  intro exact
  have same := exact topmostInputs _ _ topmost_compares
  rw [topmost_compares.behind_iff] at same
  revert same
  decide +kernel

end QoSFabric.Proof.Engine
