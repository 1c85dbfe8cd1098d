import QoSFabric.Proof.Engine.Composition

/-!
# Composed loss

The loss composed over a path is at least the loss of independent components and at least the loss
of every one of them, and each component costs less than one part per million in rounding.
-/

namespace QoSFabric.Proof.Engine

/-- The loss of independent components, in parts per million. -/
def independentLoss (values : List RawValue) : ℚ :=
  1000000 * (1 - (values.map fun v => 1 - (v.value.toNat : ℚ) / 1000000).prod)

variable {values : List RawValue}

theorem independentLoss_eq (declared : ∀ v ∈ values, v.value ≤ ppm) :
    independentLoss values =
      1000000 - 1000000 * Rounding.fraction 1000000 ((values.map RawValue.value).map passes) := by
  unfold independentLoss
  rw [← deliveredShare_eq, mul_sub, mul_one]
  unfold deliveredShare
  rw [List.map_map]
  congr 3
  apply List.map_congr_left
  intro v mem
  have within := UInt64.le_iff_toNat_le.mp (declared v mem)
  rw [ppm_toNat] at within
  rw [Function.comp_apply, Nat.min_eq_left within]

theorem composeValues_loss (present : ∀ v ∈ values, v.present = true) (filled : values ≠ [])
    (overhead : UInt64) : ∃ delivery index,
      composeValues .lossCompose values overhead = ⟨false, some (ppm - delivery), index, index, []⟩ ∧
      delivery.toNat =
        ((values.map RawValue.value).map passes).foldl (Rounding.shrink 1000000) 1000000 := by
  obtain ⟨delivery, run, share⟩ := deliverAll_toNat (values.map RawValue.value)
  rw [foldl_delivered_eq] at share
  cases values with
  | nil => exact absurd rfl filled
  | cons first rest =>
      have whole : (first :: rest).findIdx? (!·.present) = none := by
        rw [List.findIdx?_eq_none_iff]
        intro v mem
        rw [present v mem]
        rfl
      refine ⟨delivery, (extremum (· > ·) (clampLoss first.value)
        ((rest.map RawValue.value).map clampLoss)).2, ?_, share⟩
      unfold composeValues
      dsimp only
      rw [whole]
      unfold composePresent
      dsimp only
      rw [← List.map_cons, run]
      rfl

/-- Composing declared losses never overflows; the result is never below the loss of independent
components, nor above it by one part per million for each of them. -/
theorem loss_conservative (present : ∀ v ∈ values, v.present = true)
    (declared : ∀ v ∈ values, v.value ≤ ppm) (filled : values ≠ []) (overhead : UInt64) :
    (composeValues .lossCompose values overhead).overflow = false ∧
      ∃ loss, (composeValues .lossCompose values overhead).value = some loss ∧
        independentLoss values ≤ loss.toNat ∧
        (loss.toNat : ℚ) < independentLoss values + values.length ∧
        loss.toNat ≤ 1000000 ∧ ∀ v ∈ values, v.value ≤ loss := by
  obtain ⟨delivery, index, composed, share⟩ := composeValues_loss present filled overhead
  have parts := passes_le (values.map RawValue.value)
  have most : delivery.toNat ≤ 1000000 := share ▸ Rounding.foldl_shrink_le_share parts
  have loss : (ppm - delivery).toNat = 1000000 - delivery.toNat := by
    rw [UInt64.toNat_sub_of_le _ _ (UInt64.le_iff_toNat_le.mpr (ppm_toNat ▸ most)), ppm_toNat]
  have cast : ((ppm - delivery).toNat : ℚ) = 1000000 - delivery.toNat := by
    rw [loss, Nat.cast_sub most, Nat.cast_ofNat]
  have above := Rounding.foldl_shrink_le_exact 1000000 1000000
    ((values.map RawValue.value).map passes)
  have below := @Rounding.exact_lt_foldl_shrink 1000000 1000000 _ (by decide) parts
    (by simpa using filled)
  rw [← share, Nat.cast_ofNat] at above below
  rw [List.length_map, List.length_map] at below
  rw [composed, independentLoss_eq declared]
  refine ⟨rfl, ppm - delivery, rfl, ?_, ?_, ?_, ?_⟩
  · rw [cast]
    exact sub_le_sub_left above _
  · rw [cast]
    linarith
  · rw [loss]
    exact Nat.sub_le _ _
  · intro v mem
    have within := UInt64.le_iff_toNat_le.mp (declared v mem)
    rw [ppm_toNat] at within
    have least : delivery.toNat ≤ passes v.value := share ▸
      Rounding.foldl_shrink_le_part parts (Nat.le_refl _)
        (List.mem_map_of_mem (List.mem_map_of_mem mem))
    unfold passes at least
    rw [UInt64.le_iff_toNat_le, loss]
    omega

theorem loss_conservative_halves : ∃ values : List RawValue, values.length = 3 ∧
    (composeValues .lossCompose values 0).overflow = false ∧
      ∃ loss, (composeValues .lossCompose values 0).value = some loss ∧
        independentLoss values ≤ loss.toNat ∧
        (loss.toNat : ℚ) < independentLoss values + values.length ∧
        loss.toNat ≤ 1000000 ∧ ∀ v ∈ values, v.value ≤ loss :=
  ⟨[.declared 500000, .declared 1, .declared 1000000], rfl,
    loss_conservative (by decide) (by decide) (by decide) 0⟩

end QoSFabric.Proof.Engine
