import Mathlib.Init

/-!
# Budgets and failures

The constants of `limits.hpp`, the typed errors of `error.hpp` and the checked arithmetic of
`checked.hpp`. A `std::string` is a list of bytes.
-/

namespace QoSFabric

abbrev Bytes := List UInt8

abbrev Text := List UInt8

def text (s : String) : Text :=
  s.toList.map fun c => UInt8.ofNat c.toNat

/-- `std::to_string` of an unsigned integer. -/
def decimal (n : Nat) : Text :=
  (Nat.toDigits 10 n).map fun c => UInt8.ofNat c.toNat

namespace Limits

abbrev maxIdentifierLen : Nat := 96
abbrev maxLabelLen : Nat := 128
abbrev maxDetailLen : Nat := 192
abbrev maxReasonLen : Nat := 256
abbrev maxOriginLen : Nat := 128
abbrev maxPredicateKeyLen : Nat := 64

abbrev maxPathComponents : Nat := 256
abbrev maxRequiredPredicates : Nat := 64
abbrev maxCapabilityPredicates : Nat := 64
abbrev maxObligations : Nat := 128
abbrev maxDegradations : Nat := 64
abbrev maxAuthorityEntries : Nat := 8 + 2 * maxPathComponents

abbrev maxCanonicalRecordBytes : Nat := 1048576
abbrev maxWalRecordBytes : Nat := 4194304
abbrev maxSnapshotBytes : Nat := 67108864
abbrev maxWireFrameBytes : Nat := 262144
abbrev maxErrorDetailBytes : Nat := 512

abbrev maxGenerationsPerId : Nat := 8
abbrev maxClassesRetained : Nat := 512
abbrev maxPoliciesRetained : Nat := 256
abbrev maxPathsRetained : Nat := 1024
abbrev maxCapabilitiesRetained : Nat := 4096
abbrev maxPublishersRetained : Nat := 512
abbrev maxDecisionsRetained : Nat := 4096
abbrev maxJournalIntentsInFlight : UInt32 := 256

abbrev maxRateBps : UInt64 := 1000000000000
abbrev maxLatencyUs : UInt64 := 3600000000
abbrev maxJitterUs : UInt64 := 3600000000
abbrev maxBurstBytes : UInt64 := 1099511627776
abbrev maxBurstIntervalUs : UInt64 := 3600000000
abbrev maxMtuBytes : UInt64 := 16777216
abbrev maxLossPpm : UInt32 := 1000000
abbrev maxRelaxationPpm : UInt32 := 1000000
abbrev maxPriorityRank : UInt32 := 64
abbrev maxDisjointPaths : UInt32 := 64
abbrev maxStaleEpochs : UInt32 := 4096
abbrev maxLeaseMs : UInt64 := 3600000

end Limits

/-! ## Errors -/

inductive ErrorCode where
  | invalidArgument | malformed | tooLarge | notFound | duplicate | conflict | stale | fenced
  | unauthorized | corrupt | ioError | versionMismatch | overflow | notSupported
  | capacityExhausted | shuttingDown | cancelled | internal
  deriving DecidableEq, Repr

structure Error where
  code : ErrorCode
  detail : Text
  deriving DecidableEq, Repr

def makeError (code : ErrorCode) (detail : String) : Error :=
  ⟨code, (text detail).take Limits.maxErrorDetailBytes⟩

@[simp] theorem makeError_code (code : ErrorCode) (detail : String) :
    (makeError code detail).code = code := rfl

abbrev Result (α : Type) := Except Error α

/-! ## Checked arithmetic -/

def maxUInt64 : UInt64 := 0xFFFFFFFFFFFFFFFF

theorem le_maxUInt64 (v : UInt64) : v ≤ maxUInt64 := by
  rw [UInt64.le_iff_toNat_le]
  exact Nat.le_of_lt_succ v.toNat_lt

def checkedAdd (a b : UInt64) : Option UInt64 :=
  if b > maxUInt64 - a then none else some (a + b)

theorem checkedAdd_eq_some {a b c : UInt64} :
    checkedAdd a b = some c ↔ a.toNat + b.toNat = c.toNat := by
  have top : maxUInt64.toNat = 2 ^ 64 - 1 := by decide
  have boundA := a.toNat_lt
  have boundB := b.toNat_lt
  have boundC := c.toNat_lt
  have difference : (maxUInt64 - a).toNat = 2 ^ 64 - 1 - a.toNat := by
    rw [UInt64.toNat_sub_of_le _ _ (UInt64.le_iff_toNat_le.mpr (by omega)), top]
  unfold checkedAdd
  split
  · next above =>
      have above := UInt64.lt_iff_toNat_lt.mp above
      constructor
      · intro h
        cases h
      · intro h
        omega
  · next fits =>
      have fits := UInt64.le_iff_toNat_le.mp (UInt64.not_lt.mp fits)
      have sum : (a + b).toNat = a.toNat + b.toNat := by
        rw [UInt64.toNat_add, Nat.mod_eq_of_lt (by omega)]
      rw [Option.some.injEq, ← sum, UInt64.toNat_inj]

def checkedMul (a b : UInt64) : Option UInt64 :=
  if a = 0 ∨ b = 0 then some 0
  else if a > maxUInt64 / b then none
  else some (a * b)

def checkedCeilDiv (a b : UInt64) : Option UInt64 :=
  if b = 0 then none
  else
    let q := a / b
    if a % b ≠ 0 then
      if q = maxUInt64 then none else some (q + 1)
    else some q

def relativePpm (reference shortfall : UInt64) : Option UInt32 :=
  if shortfall = 0 then some 0
  else if reference = 0 then some 1000000
  else match checkedMul shortfall 1000000 with
    | none => some 1000000
    | some scaled => (checkedCeilDiv scaled reference).map fun ppm =>
        (if ppm > 1000000 then 1000000 else ppm).toUInt32

/-! ## Identifiers -/

def isValidIdentifierChar (c : UInt8) : Bool :=
  (48 ≤ c && c ≤ 57) || (97 ≤ c && c ≤ 122) || (65 ≤ c && c ≤ 90) ||
    c == 46 || c == 95 || c == 45 || c == 58 || c == 47

def isValidIdentifier (value : Text) (maxLen : Nat) : Bool :=
  !value.isEmpty && value.length ≤ maxLen && value.all isValidIdentifierChar

/-- `is_valid` at its default length. -/
def isValid (id : Text) : Bool :=
  isValidIdentifier id Limits.maxIdentifierLen

end QoSFabric
