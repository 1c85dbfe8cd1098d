import QoSFabric.Model.Engine
import Mathlib.Order.Lattice
import Mathlib.Order.Defs.LinearOrder

namespace QoSFabric

namespace Outcome

theorem value_injective : Function.Injective value := by
  intro a b h
  cases a <;> cases b <;> first | rfl | cases h

instance : LE Outcome := ⟨fun a b => a.value ≤ b.value⟩

instance : DecidableLE Outcome := fun a b => inferInstanceAs (Decidable (a.value ≤ b.value))

protected theorem le_refl (a : Outcome) : a ≤ a := UInt8.le_refl a.value

protected theorem le_trans {a b c : Outcome} (first : a ≤ b) (second : b ≤ c) : a ≤ c :=
  UInt8.le_trans first second

theorem eq_of_le_iff {a b : Outcome} (same : ∀ level, a ≤ level ↔ b ≤ level) : a = b :=
  value_injective (UInt8.le_antisymm ((same b).mpr (Outcome.le_refl b))
    ((same a).mp (Outcome.le_refl a)))

theorem dominant_le {a b level : Outcome} :
    a.dominant b ≤ level ↔ a ≤ level ∧ b ≤ level := by
  cases a <;> cases b <;> cases level <;> decide

theorem le_supported {a : Outcome} : a ≤ supported ↔ a = supported := by
  cases a <;> decide

theorem le_supportedDegraded {a : Outcome} : a ≤ supportedDegraded ↔ a.isPositive = true := by
  cases a <;> decide

end Outcome

namespace Proof.Engine

open Outcome

variable {level : Outcome}

theorem clean_le : Findings.clean.outcome ≤ level := by
  cases level <;> decide

@[simp] theorem note_outcome (f : Findings) (reason : Text) :
    (f.note reason).outcome = f.outcome := by
  unfold Findings.note
  split <;> rfl

theorem merge_le {f : Findings} {outcome : Outcome} :
    (f.merge outcome).outcome ≤ level ↔ f.outcome ≤ level ∧ outcome ≤ level :=
  dominant_le

theorem find_le {f : Findings} {condition : Bool} {outcome : Outcome} {reason : Text} :
    (f.find condition outcome reason).outcome ≤ level ↔
      f.outcome ≤ level ∧ (condition = true → outcome ≤ level) := by
  cases condition with
  | false => simp [Findings.find]
  | true => simp [Findings.find, merge_le]

theorem check_le {f : Findings} {label : String} {result : Result Unit} :
    (f.check label result).outcome ≤ level ↔
      f.outcome ≤ level ∧ (result = .ok () ∨ rejected ≤ level) := by
  cases result with
  | ok => simp [Findings.check]
  | error error => simp [Findings.check, merge_le]

theorem foldl_le {α : Type} {step : Findings → α → Findings} {good : α → Prop}
    (spec : ∀ f a, (step f a).outcome ≤ level ↔ f.outcome ≤ level ∧ good a)
    (items : List α) (f : Findings) :
    (items.foldl step f).outcome ≤ level ↔ f.outcome ≤ level ∧ ∀ a ∈ items, good a := by
  induction items generalizing f with
  | nil => simp
  | cons a rest ih => simp [ih, spec, and_assoc]

end Proof.Engine

end QoSFabric
