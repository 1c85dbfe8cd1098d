import QoSFabric.Model.Compose
import QoSFabric.Foundation.Rounding

namespace QoSFabric.Proof.Engine

theorem le_scan_iff (required : UInt64) (values : List UInt64) (index : Nat) (best : UInt64 × Nat) :
    required ≤ (scan (· < ·) values index best).1 ↔
      required ≤ best.1 ∧ ∀ v ∈ values, required ≤ v := by
  induction values generalizing index best with
  | nil => simp [scan]
  | cons v rest ih =>
      rw [scan, ih]
      by_cases lower : v < best.1
      · simp only [lower, decide_true, if_true, List.forall_mem_cons]
        constructor
        · rintro ⟨h, hs⟩
          exact ⟨UInt64.le_trans h (UInt64.le_of_lt lower), h, hs⟩
        · rintro ⟨-, h, hs⟩
          exact ⟨h, hs⟩
      · simp only [lower, decide_false, Bool.false_eq_true, if_false, List.forall_mem_cons]
        constructor
        · rintro ⟨h, hs⟩
          exact ⟨h, UInt64.le_trans h (UInt64.not_lt.mp lower), hs⟩
        · rintro ⟨h, -, hs⟩
          exact ⟨h, hs⟩

theorem scan_le_iff (required : UInt64) (values : List UInt64) (index : Nat) (worst : UInt64 × Nat) :
    (scan (· > ·) values index worst).1 ≤ required ↔
      worst.1 ≤ required ∧ ∀ v ∈ values, v ≤ required := by
  induction values generalizing index worst with
  | nil => simp [scan]
  | cons v rest ih =>
      rw [scan, ih]
      by_cases higher : v > worst.1
      · simp only [higher, decide_true, if_true, List.forall_mem_cons]
        constructor
        · rintro ⟨h, hs⟩
          exact ⟨UInt64.le_trans (UInt64.le_of_lt higher) h, h, hs⟩
        · rintro ⟨-, h, hs⟩
          exact ⟨h, hs⟩
      · simp only [higher, decide_false, Bool.false_eq_true, if_false, List.forall_mem_cons]
        constructor
        · rintro ⟨h, hs⟩
          exact ⟨h, UInt64.le_trans (UInt64.not_lt.mp higher) h, hs⟩
        · rintro ⟨h, -, hs⟩
          exact ⟨h, hs⟩

theorem addAll_eq_some {values : List UInt64} {fixed total : UInt64} :
    addAll fixed values = some total ↔
      fixed.toNat + (values.map UInt64.toNat).sum = total.toNat := by
  unfold addAll
  induction values generalizing fixed with
  | nil => simp [UInt64.toNat_inj]
  | cons v rest ih =>
      rw [List.foldlM_cons, Option.bind_eq_bind, Option.bind_eq_some_iff]
      simp only [checkedAdd_eq_some, ih, List.map_cons, List.sum_cons]
      constructor
      · rintro ⟨partialSum, first, rest⟩
        omega
      · intro sum
        have bound := total.toNat_lt
        refine ⟨UInt64.ofNat (fixed.toNat + v.toNat), ?_, ?_⟩ <;>
          rw [UInt64.toNat_ofNat_of_lt' (by omega : fixed.toNat + v.toNat < 2 ^ 64)]
        omega

theorem ppm_toNat : ppm.toNat = 1000000 := by decide

theorem clampLoss_le (loss : UInt64) : clampLoss loss ≤ ppm := by
  unfold clampLoss
  split
  · exact UInt64.le_refl _
  · next h => exact UInt64.not_lt.mp h

theorem clampLoss_toNat (loss : UInt64) : (clampLoss loss).toNat = min loss.toNat 1000000 := by
  unfold clampLoss
  split
  · next h =>
      have h := UInt64.lt_iff_toNat_lt.mp h
      rw [ppm_toNat] at h ⊢
      omega
  · next h =>
      have h := UInt64.le_iff_toNat_le.mp (UInt64.not_lt.mp h)
      rw [ppm_toNat] at h
      omega

theorem ppm_sub_clampLoss_toNat (loss : UInt64) :
    (ppm - clampLoss loss).toNat = 1000000 - min loss.toNat 1000000 := by
  rw [UInt64.toNat_sub_of_le _ _ (clampLoss_le loss), ppm_toNat, clampLoss_toNat]

theorem checkedMul_of_lt {a b : UInt64} (h : a.toNat * b.toNat < 2 ^ 64) :
    ∃ product, checkedMul a b = some product ∧ product.toNat = a.toNat * b.toNat := by
  unfold checkedMul
  split
  · next zero =>
      refine ⟨0, rfl, ?_⟩
      rcases zero with rfl | rfl <;> simp
  · next nonzero =>
      have pos : 0 < b.toNat := by
        rcases Nat.eq_zero_or_pos b.toNat with zero | pos
        · exact absurd (.inr (UInt64.toNat_inj.mp zero)) nonzero
        · exact pos
      have fits : ¬a > maxUInt64 / b := by
        rw [gt_iff_lt, UInt64.not_lt, UInt64.le_iff_toNat_le, UInt64.toNat_div,
          Nat.le_div_iff_mul_le pos]
        have top : maxUInt64.toNat = 2 ^ 64 - 1 := by decide
        omega
      rw [if_neg fits]
      exact ⟨a * b, rfl, by rw [UInt64.toNat_mul, Nat.mod_eq_of_lt h]⟩

theorem deliver_spec {delivery : UInt64} (bound : delivery.toNat ≤ 1000000) (loss : UInt64) :
    ∃ next, deliver delivery loss = some next ∧
      next.toNat = delivery.toNat * (1000000 - min loss.toNat 1000000) / 1000000 := by
  have share := ppm_sub_clampLoss_toNat loss
  have fits : delivery.toNat * (ppm - clampLoss loss).toNat < 2 ^ 64 := by
    have : delivery.toNat * (ppm - clampLoss loss).toNat ≤ 1000000 * 1000000 :=
      Nat.mul_le_mul bound (by omega)
    omega
  obtain ⟨product, eq, value⟩ := checkedMul_of_lt fits
  refine ⟨product / ppm, by rw [deliver, eq]; rfl, ?_⟩
  rw [UInt64.toNat_div, value, share, ppm_toNat]

theorem deliver_le {delivery : UInt64} (bound : delivery.toNat ≤ 1000000) {loss next : UInt64}
    (h : deliver delivery loss = some next) : next.toNat ≤ 1000000 := by
  obtain ⟨n, eq, value⟩ := deliver_spec bound loss
  obtain rfl : n = next := Option.some.inj (eq.symm.trans h)
  rw [value]
  exact Nat.div_le_of_le_mul (Nat.mul_le_mul bound (by omega))

def delivered (share loss : ℕ) : ℕ := share * (1000000 - min loss 1000000) / 1000000

theorem delivered_le {share loss bound : ℕ} (h : share ≤ bound) : delivered share loss ≤ bound := by
  refine Nat.div_le_of_le_mul ?_
  rw [Nat.mul_comm 1000000]
  exact Nat.mul_le_mul h (by omega)

theorem foldlM_deliver_toNat {delivery : UInt64} (bound : delivery.toNat ≤ 1000000)
    (losses : List UInt64) :
    ∃ final, losses.foldlM deliver delivery = some final ∧
      final.toNat = (losses.map UInt64.toNat).foldl delivered delivery.toNat := by
  induction losses generalizing delivery with
  | nil => exact ⟨delivery, rfl, rfl⟩
  | cons loss rest ih =>
      obtain ⟨next, eq, value⟩ := deliver_spec bound loss
      obtain ⟨final, run, total⟩ := ih (deliver_le bound eq)
      refine ⟨final, by rw [List.foldlM_cons, eq]; exact run, ?_⟩
      rw [total, List.map_cons, List.foldl_cons, value]
      rfl

theorem deliverAll_toNat (losses : List UInt64) :
    ∃ final, deliverAll losses = some final ∧
      final.toNat = (losses.map UInt64.toNat).foldl delivered 1000000 :=
  ppm_toNat ▸ foldlM_deliver_toNat (le_of_eq ppm_toNat) losses

theorem foldl_delivered_le {losses : List ℕ} {share : ℕ} :
    losses.foldl delivered share ≤ share := by
  induction losses generalizing share with
  | nil => exact Nat.le_refl _
  | cons loss rest ih => exact Nat.le_trans ih (delivered_le (Nat.le_refl _))

theorem foldl_delivered_mono {losses losses' : List ℕ} (worse : List.Forall₂ (· ≤ ·) losses losses')
    {share share' : ℕ} (less : share' ≤ share) :
    losses'.foldl delivered share' ≤ losses.foldl delivered share := by
  induction worse generalizing share share' with
  | nil => exact less
  | cons le _ ih =>
      apply ih
      exact Nat.div_le_div_right (Nat.mul_le_mul less (by omega))

def deliveredShare (losses : List UInt64) : ℚ :=
  (losses.map fun loss => 1 - (min loss.toNat 1000000 : ℕ) / (1000000 : ℚ)).prod

def passes (loss : UInt64) : ℕ := 1000000 - min loss.toNat 1000000

theorem passes_le (losses : List UInt64) : ∀ part ∈ losses.map passes, part ≤ 1000000 := by
  intro part mem
  obtain ⟨loss, -, rfl⟩ := List.mem_map.mp mem
  exact Nat.sub_le _ _

theorem deliveredShare_eq (losses : List UInt64) :
    deliveredShare losses = Rounding.fraction 1000000 (losses.map passes) := by
  unfold deliveredShare Rounding.fraction
  rw [List.map_map]
  congr 2
  funext loss
  rw [Function.comp_apply, passes, Nat.cast_sub (Nat.min_le_right _ _), sub_div, Nat.cast_ofNat,
    div_self (by norm_num)]

theorem foldl_delivered_eq (losses : List UInt64) (share : ℕ) :
    (losses.map UInt64.toNat).foldl delivered share =
      (losses.map passes).foldl (Rounding.shrink 1000000) share := by
  rw [List.foldl_map, List.foldl_map]
  rfl

theorem deliverAll_spec (losses : List UInt64) :
    ∃ final, deliverAll losses = some final ∧ final.toNat ≤ 1000000 ∧
      (final.toNat : ℚ) ≤ 1000000 * deliveredShare losses := by
  obtain ⟨final, run, share⟩ := deliverAll_toNat losses
  rw [foldl_delivered_eq] at share
  refine ⟨final, run, ?_, ?_⟩
  · rw [share]
    exact Rounding.foldl_shrink_le_share (passes_le losses)
  · rw [share, deliveredShare_eq]
    exact Rounding.foldl_shrink_le_exact 1000000 1000000 (losses.map passes)

end QoSFabric.Proof.Engine
