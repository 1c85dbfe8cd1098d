import Mathlib.Algebra.Order.Field.Rat
import Mathlib.Algebra.Order.BigOperators.GroupWithZero.List
import Mathlib.Data.Nat.Cast.Order.Field
import Mathlib.Algebra.BigOperators.Group.List.Basic
import Mathlib.Tactic.Linarith

/-!
# Products rounded down factor by factor

A share of a scale is multiplied by one fraction after another, and every product is rounded down.
The result never exceeds the exact product, and falls short of it by less than one for each factor.
-/

namespace Rounding

def shrink (scale share part : ℕ) : ℕ := share * part / scale

def fraction (scale : ℕ) (parts : List ℕ) : ℚ := (parts.map fun part : ℕ => (part : ℚ) / scale).prod

variable {scale share part : ℕ} {parts : List ℕ}

theorem fraction_cons (scale part : ℕ) (parts : List ℕ) :
    fraction scale (part :: parts) = part / scale * fraction scale parts := by
  rw [fraction, List.map_cons, List.prod_cons, fraction]

theorem fraction_nonneg (scale : ℕ) (parts : List ℕ) : 0 ≤ fraction scale parts := by
  apply List.prod_nonneg
  intro factor mem
  obtain ⟨part, -, rfl⟩ := List.mem_map.mp mem
  exact div_nonneg (Nat.cast_nonneg part) (Nat.cast_nonneg scale)

theorem fraction_le_one (within : ∀ part ∈ parts, part ≤ scale) : fraction scale parts ≤ 1 := by
  induction parts with
  | nil => exact le_of_eq List.prod_nil
  | cons part parts ih =>
      obtain ⟨first, rest⟩ := List.forall_mem_cons.mp within
      have head : (part : ℚ) / scale ≤ 1 :=
        div_le_one_of_le₀ (Nat.cast_le.mpr first) (Nat.cast_nonneg scale)
      rw [fraction_cons]
      exact mul_le_one₀ head (fraction_nonneg scale parts) (ih rest)

theorem shrink_le_exact (scale share part : ℕ) :
    (shrink scale share part : ℚ) ≤ share * (part / scale) := by
  rw [← mul_div_assoc, ← Nat.cast_mul]
  exact Nat.cast_div_le

theorem exact_lt_shrink (positive : 0 < scale) :
    (share : ℚ) * (part / scale) < shrink scale share part + 1 := by
  have positive' : (0 : ℚ) < scale := Nat.cast_pos.mpr positive
  rw [← mul_div_assoc, div_lt_iff₀ positive']
  have above : share * part < (shrink scale share part + 1) * scale := by
    rw [Nat.mul_comm _ scale]
    exact Nat.lt_mul_div_succ (share * part) positive
  exact_mod_cast above

theorem shrink_le_share (within : part ≤ scale) : shrink scale share part ≤ share :=
  Nat.div_le_of_le_mul (Nat.mul_comm scale share ▸ Nat.mul_le_mul_left share within)

theorem shrink_le_part (within : share ≤ scale) : shrink scale share part ≤ part :=
  Nat.div_le_of_le_mul (Nat.mul_le_mul_right part within)

theorem foldl_shrink_le_share (within : ∀ part ∈ parts, part ≤ scale) :
    parts.foldl (shrink scale) share ≤ share := by
  induction parts generalizing share with
  | nil => exact Nat.le_refl share
  | cons part parts ih =>
      obtain ⟨first, rest⟩ := List.forall_mem_cons.mp within
      exact Nat.le_trans (ih rest) (shrink_le_share first)

theorem foldl_shrink_le_part (within : ∀ part ∈ parts, part ≤ scale) (bounded : share ≤ scale)
    (mem : part ∈ parts) : parts.foldl (shrink scale) share ≤ part := by
  induction parts generalizing share with
  | nil => cases mem
  | cons head parts ih =>
      obtain ⟨first, rest⟩ := List.forall_mem_cons.mp within
      rw [List.foldl_cons]
      cases mem with
      | head => exact Nat.le_trans (foldl_shrink_le_share rest) (shrink_le_part bounded)
      | tail _ mem => exact ih rest (Nat.le_trans (shrink_le_share first) bounded) mem

theorem foldl_shrink_le_exact (scale share : ℕ) (parts : List ℕ) :
    ((parts.foldl (shrink scale) share : ℕ) : ℚ) ≤ share * fraction scale parts := by
  induction parts generalizing share with
  | nil => exact le_of_eq (mul_one (share : ℚ)).symm
  | cons part parts ih =>
      calc (((part :: parts).foldl (shrink scale) share : ℕ) : ℚ)
          ≤ shrink scale share part * fraction scale parts := ih _
        _ ≤ share * (part / scale) * fraction scale parts :=
          mul_le_mul_of_nonneg_right (shrink_le_exact scale share part)
            (fraction_nonneg scale parts)
        _ = share * fraction scale (part :: parts) := by rw [fraction_cons, mul_assoc]

private theorem mul_lt_of_lt_succ {x y f : ℚ} (lt : x < y + 1) (nonneg : 0 ≤ f) (le : f ≤ 1) :
    x * f < y * f + 1 := by
  rcases nonneg.eq_or_lt with rfl | positive
  · rw [mul_zero, mul_zero, zero_add]
    exact one_pos
  · calc x * f < (y + 1) * f := mul_lt_mul_of_pos_right lt positive
      _ = y * f + f := by rw [add_mul, one_mul]
      _ ≤ y * f + 1 := add_le_add_right le _

theorem exact_le_foldl_shrink (positive : 0 < scale) (within : ∀ part ∈ parts, part ≤ scale) :
    (share : ℚ) * fraction scale parts ≤
      ((parts.foldl (shrink scale) share : ℕ) : ℚ) + parts.length := by
  induction parts generalizing share with
  | nil =>
      rw [List.foldl_nil, List.length_nil, Nat.cast_zero, add_zero]
      exact le_of_eq (mul_one (share : ℚ))
  | cons part parts ih =>
      obtain ⟨-, rest⟩ := List.forall_mem_cons.mp within
      have step := mul_lt_of_lt_succ (@exact_lt_shrink scale share part positive)
        (fraction_nonneg scale parts) (fraction_le_one rest)
      have later := @ih (shrink scale share part) rest
      rw [fraction_cons, List.foldl_cons, List.length_cons, Nat.cast_succ, ← mul_assoc]
      linarith

theorem exact_lt_foldl_shrink (positive : 0 < scale) (within : ∀ part ∈ parts, part ≤ scale)
    (filled : parts ≠ []) :
    (share : ℚ) * fraction scale parts <
      ((parts.foldl (shrink scale) share : ℕ) : ℚ) + parts.length := by
  cases parts with
  | nil => exact absurd rfl filled
  | cons part parts =>
      obtain ⟨-, rest⟩ := List.forall_mem_cons.mp within
      have step := mul_lt_of_lt_succ (@exact_lt_shrink scale share part positive)
        (fraction_nonneg scale parts) (fraction_le_one rest)
      have later := @exact_le_foldl_shrink scale (shrink scale share part) parts positive rest
      rw [fraction_cons, List.foldl_cons, List.length_cons, Nat.cast_succ, ← mul_assoc]
      linarith

end Rounding
