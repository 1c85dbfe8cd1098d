import Mathlib.Data.List.TakeWhile
import Mathlib.Data.Nat.Digits.Lemmas
import QoSFabric.Model.Scenario
import QoSFabric.Proof.Registry.Leases

/-!
# Numbers of a scenario

A number in a statement goes through one conversion to 64 bits, which saturates, and, for some
fields, a cast to 32 bits, which reduces it. What a record holds is therefore the number that was
written exactly when the number fits the width of its field.
-/

namespace QoSFabric

def IsNumber (t : Text) : Prop := t ≠ [] ∧ ∀ c ∈ t, isDigit c = true

theorem isDigit_iff {c : UInt8} : isDigit c = true ↔ 48 ≤ c.toNat ∧ c.toNat ≤ 57 := by
  simp [isDigit, UInt8.le_iff_toNat_le]

theorem strtoull_of_number {t : Text} (number : IsNumber t) : strtoull t = parseDecimal t := by
  obtain ⟨filled, digits⟩ := number
  cases t with
  | nil => exact absurd rfl filled
  | cons c rest =>
      have first := isDigit_iff.mp (digits c List.mem_cons_self)
      have bare : isSpace c = false := by
        simp [isSpace, UInt8.le_iff_toNat_le, ← UInt8.toNat_inj]
        omega
      have whole : (c :: rest).takeWhile isDigit = c :: rest :=
        List.takeWhile_eq_self_iff.mpr digits
      unfold strtoull
      rw [List.dropWhile_cons_of_neg (by simp [bare])]
      split
      next same =>
        obtain ⟨rfl, -⟩ := List.cons.inj same
        simp at first
      next same =>
        obtain ⟨rfl, -⟩ := List.cons.inj same
        simp at first
      next => rw [whole]

structure NumericField (α : Type) where
  given : Statement → Option Text
  width : Nat
  number : α → Option Nat

section Fields

variable {α : Type}

def NumericField.atSecond (number : α → Generation) : NumericField α :=
  ⟨fun s => s.positional[1]?, 64, fun value => some (number value).toNat⟩

def NumericField.wide (key : String) (number : α → Option UInt64) : NumericField α :=
  ⟨fun s => s.named.lookup (text key), 64, fun value => (number value).map UInt64.toNat⟩

def NumericField.narrow (key : String) (number : α → Option UInt32) : NumericField α :=
  ⟨fun s => s.named.lookup (text key), 32, fun value => (number value).map UInt32.toNat⟩

/-- What a field of some width holds of a number: the conversion saturates, and the cast reduces. -/
def held (width n : Nat) : Nat := min n (2 ^ 64 - 1) % 2 ^ width

end Fields

namespace ScenarioVerb

def numbers : (verb : ScenarioVerb) → List (NumericField verb.kind.Carrier)
  | .class => [
      .atSecond QoSClass.generation, .wide "min_rate" QoSClass.minRateBps,
      .wide "max_rate" QoSClass.maxRateBps, .wide "peak_rate" QoSClass.peakRateBps,
      .wide "latency" QoSClass.maxLatencyUs, .wide "jitter" QoSClass.maxJitterUs,
      .wide "burst" QoSClass.burstBytes, .wide "burst_interval" QoSClass.burstIntervalUs,
      .wide "mtu" QoSClass.minMtuBytes, .narrow "loss" QoSClass.maxLossPpm,
      .narrow "priority" fun value => some (QoSClass.minPriorityRank value),
      .narrow "disjoint" fun value => some (QoSClass.minDisjointPaths value),
      .narrow "relax_ppm" fun value => some (QoSClass.degradeMaxRelaxationPpm value)]
  | policy => [
      .atSecond Policy.generation,
      .narrow "relax_ppm" fun value => some (Policy.maxRelaxationPpm value),
      .narrow "stale_epochs" fun value => some (Policy.maxStaleEpochs value),
      .wide "max_age_ms" fun value => some (Policy.capabilityMaxAgeMs value),
      .narrow "unknown" fun value => some (Policy.maxUnknownComponents value)]
  | capability => [
      .atSecond ResourceCapability.generation,
      .wide "incarnation" fun value => some (ResourceCapability.incarnation value),
      .wide "epoch" fun value => some (ResourceCapability.epoch value),
      .wide "published" fun value => some (ResourceCapability.publishedAtMs value),
      .wide "expires" fun value => some (ResourceCapability.expiresAtMs value),
      .wide "rate" ResourceCapability.supportedRateBps,
      .wide "latency" ResourceCapability.latencyBoundUs,
      .wide "jitter" ResourceCapability.jitterBoundUs,
      .wide "burst" ResourceCapability.maxBurstBytes,
      .wide "burst_window" ResourceCapability.burstWindowUs, .wide "mtu" ResourceCapability.mtuBytes,
      .narrow "loss" ResourceCapability.lossPpm,
      .narrow "priority" fun value => some (ResourceCapability.maxPriorityRank value)]

end ScenarioVerb

section Stored

variable {α : Type} {s : Statement} {value : α} {key : String}

end Stored

end QoSFabric
