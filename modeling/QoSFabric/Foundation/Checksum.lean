import Mathlib.Data.List.Basic
import Mathlib.Logic.Function.Basic

/-!
# Checksums that fold

A checksum that folds a step over its items. A step that loses neither the state it had nor the item
it reads lets every change of one item show in the result, however much follows.
-/

namespace Checksum

variable {σ α : Type}

/-- A step that loses neither the state nor the item. -/
structure Lossless (step : σ → α → σ) : Prop where
  state : ∀ a, Function.Injective (step · a)
  item : ∀ s, Function.Injective (step s)

namespace Lossless

variable {step : σ → α → σ}

theorem foldl_injective (lossless : Lossless step) (items : List α) :
    Function.Injective (items.foldl step) := by
  induction items with
  | nil => exact Function.injective_id
  | cons a items ih => exact ih.comp (lossless.state a)

theorem foldl_ne (lossless : Lossless step) (before after : List α) {a b : α} (ne : a ≠ b) (s : σ) :
    (before ++ a :: after).foldl step s ≠ (before ++ b :: after).foldl step s := by
  rw [List.foldl_append, List.foldl_append, List.foldl_cons, List.foldl_cons]
  intro same
  exact ne (lossless.item _ (lossless.foldl_injective after same))

theorem foldl_set_ne (lossless : Lossless step) {items : List α} {i : Nat} {a : α}
    (lt : i < items.length) (ne : a ≠ items[i]) (s : σ) :
    (items.set i a).foldl step s ≠ items.foldl step s := by
  have split : items = items.take i ++ items[i] :: items.drop (i + 1) := by simp
  rw [List.set_eq_take_append_cons_drop, if_pos lt]
  conv_rhs => rw [split]
  exact lossless.foldl_ne _ _ ne s

end Lossless

end Checksum
