import QoSFabric.Proof.Codec.Fields

namespace QoSFabric

def ByteWriter.Within {limit : Nat} (w : ByteWriter limit) (bound : Nat) : Prop :=
  ∃ bytes, w.data = some bytes ∧ bytes.length ≤ bound

namespace ByteWriter.Within

variable {limit bound : Nat} {w : ByteWriter limit}

theorem empty : (ByteWriter.empty : ByteWriter limit).Within 0 := ⟨[], rfl, Nat.le_refl _⟩

theorem raw {bytes : Bytes} {length : Nat} (within : w.Within bound) (size : bytes.length ≤ length)
    (fits : bound + length ≤ limit) : (w.raw bytes).Within (bound + length) := by
  obtain ⟨buffer, data, small⟩ := within
  refine ⟨buffer ++ bytes, ?_, ?_⟩
  · show w.data.bind _ = _
    rw [data]
    exact if_pos (by omega)
  · rw [List.length_append]
    omega

theorem u8 (within : w.Within bound) (value : UInt8) (fits : bound + 1 ≤ limit) :
    (w.u8 value).Within (bound + 1) := within.raw (Nat.le_refl _) fits

theorem u16 (within : w.Within bound) (value : UInt16) (fits : bound + 2 ≤ limit) :
    (w.u16 value).Within (bound + 2) :=
  within.raw (Nat.le_of_eq (LittleEndian.length_encode 2 _)) fits

theorem u32 (within : w.Within bound) (value : UInt32) (fits : bound + 4 ≤ limit) :
    (w.u32 value).Within (bound + 4) :=
  within.raw (Nat.le_of_eq (LittleEndian.length_encode 4 _)) fits

theorem u64 (within : w.Within bound) (value : UInt64) (fits : bound + 8 ≤ limit) :
    (w.u64 value).Within (bound + 8) :=
  within.raw (Nat.le_of_eq (LittleEndian.length_encode 8 _)) fits

theorem str (within : w.Within bound) (value : Text) {maxLen : Nat} (short : value.length ≤ maxLen)
    (fits : bound + 4 + maxLen ≤ limit) : (w.str value maxLen).Within (bound + 4 + maxLen) := by
  rw [ByteWriter.str, if_neg (Nat.not_lt.mpr short)]
  exact (within.u32 _ (by omega)).raw short fits

theorem digest (within : w.Within bound) (value : Digest256) (fits : bound + 32 ≤ limit) :
    (w.digest value).Within (bound + 32) := within.raw (Nat.le_of_eq value.size) fits

theorem counted_nil {α : Type} (within : w.Within bound)
    (emit : ByteWriter limit → α → ByteWriter limit) (fits : bound + 4 ≤ limit) :
    (w.counted ([] : List α) emit).Within (bound + 4) := by
  rw [counted, List.length_nil, if_neg (by decide)]
  exact within.u32 _ fits

theorem presence (within : w.Within bound) (present : Bool) (fits : bound + 1 ≤ limit) :
    (w.presence present).Within (bound + 1) := within.u8 _ fits

theorem mono {bound' : Nat} (within : w.Within bound) (le : bound ≤ bound') : w.Within bound' := by
  obtain ⟨bytes, data, small⟩ := within
  exact ⟨bytes, data, Nat.le_trans small le⟩

theorem optionalU64 (within : w.Within bound) (value : Option UInt64) (fits : bound + 9 ≤ limit) :
    (w.optionalU64 value).Within (bound + 9) := by
  cases value with
  | none => exact (within.presence false (by omega)).mono (by omega)
  | some value => exact (within.presence true (by omega)).u64 value (by omega)

theorem optionalResource (within : w.Within bound) {value : Option Text}
    (short : (value.getD []).length ≤ Limits.maxIdentifierLen)
    (fits : bound + 5 + Limits.maxIdentifierLen ≤ limit) :
    (w.optionalResource value).Within (bound + 5 + Limits.maxIdentifierLen) := by
  cases value with
  | none => exact (within.presence false (by omega)).mono (by omega)
  | some value => exact (within.presence true (by omega)).str value short (by omega)

theorem counted {α : Type} {items : List α} {emit : ByteWriter limit → α → ByteWriter limit}
    (size count : Nat) (within : w.Within bound) (few : items.length ≤ count)
    (each : ∀ item ∈ items, ∀ (w : ByteWriter limit) (bound : Nat), w.Within bound →
      bound + size ≤ limit → (emit w item).Within (bound + size))
    (small : count ≤ 0xFFFFFFFF) (fits : bound + 4 + count * size ≤ limit) :
    (w.counted items emit).Within (bound + 4 + count * size) := by
  have loop : ∀ (items : List α) (w : ByteWriter limit) (bound : Nat), w.Within bound →
      (∀ item ∈ items, ∀ (w : ByteWriter limit) (bound : Nat), w.Within bound →
        bound + size ≤ limit → (emit w item).Within (bound + size)) →
      bound + items.length * size ≤ limit →
      (items.foldl emit w).Within (bound + items.length * size) := by
    intro items
    induction items with
    | nil =>
        intro w bound within _ _
        exact within.mono (by omega)
    | cons item items ih =>
        intro w bound within each fits
        rw [List.length_cons, Nat.add_one_mul] at fits ⊢
        have first := each item List.mem_cons_self w bound within (by omega)
        exact (ih _ _ first (fun item mem => each item (List.mem_cons_of_mem _ mem))
          (by omega)).mono (by omega)
  have total : items.length * size ≤ count * size := Nat.mul_le_mul_right size few
  rw [ByteWriter.counted, if_neg (by omega)]
  exact (loop items _ _ (within.u32 _ (by omega)) each (by omega)).mono (by omega)

theorem header (within : w.Within bound) (tag : UInt16) (fits : bound + 4 ≤ limit) :
    (w.header tag).Within (bound + 4) :=
  (within.u16 tag (by omega)).u16 schemaVersion (by omega)

theorem ident (within : w.Within bound) {value : Text}
    (short : value.length ≤ Limits.maxIdentifierLen)
    (fits : bound + 4 + Limits.maxIdentifierLen ≤ limit) :
    (w.ident value).Within (bound + 4 + Limits.maxIdentifierLen) := within.str value short fits

theorem optionalU32 (within : w.Within bound) (value : Option UInt32) (fits : bound + 5 ≤ limit) :
    (w.optionalU32 value).Within (bound + 5) := by
  cases value with
  | none => exact (within.presence false (by omega)).mono (by omega)
  | some value => exact (within.presence true (by omega)).u32 value (by omega)

theorem provenance (within : w.Within bound) {value : Provenance}
    (short : value.origin.length ≤ Limits.maxOriginLen)
    (fits : bound + 28 + Limits.maxOriginLen ≤ limit) :
    (w.provenance value).Within (bound + 28 + Limits.maxOriginLen) := by
  have writer := within
    |>.str value.origin short (by omega)
    |>.u64 value.epoch (by omega)
    |>.u64 value.generation (by omega)
    |>.u64 value.sequence (by omega)
  exact writer.mono (by omega)

theorem keys (within : w.Within bound) {keys : List Text} {maxCount : Nat}
    (few : keys.length ≤ maxCount)
    (short : ∀ key ∈ keys, key.length ≤ Limits.maxPredicateKeyLen) (small : maxCount ≤ 0xFFFFFFFF)
    (fits : bound + 4 + maxCount * (4 + Limits.maxPredicateKeyLen) ≤ limit) :
    (w.keys keys maxCount).Within
      (bound + 4 + maxCount * (4 + Limits.maxPredicateKeyLen)) := by
  rw [ByteWriter.keys, if_neg (Nat.not_lt.mpr few)]
  apply within.counted
  · exact few
  · intro key mem w bound within fits
    exact (within.str key (short key mem) (by omega)).mono (by omega)
  · exact small
  · exact fits

end ByteWriter.Within

section SameSize

variable {limit : Nat} {v w : ByteWriter limit}

def ByteWriter.SameSize (v w : ByteWriter limit) : Prop :=
  v.data.map List.length = w.data.map List.length

namespace ByteWriter.SameSize

theorem refl (w : ByteWriter limit) : w.SameSize w := rfl

theorem trans {u : ByteWriter limit} (first : u.SameSize v) (second : v.SameSize w) :
    u.SameSize w := Eq.trans first second

theorem raw {bytes bytes' : Bytes} (same : v.SameSize w) (length : bytes.length = bytes'.length) :
    (v.raw bytes).SameSize (w.raw bytes') := by
  unfold SameSize at same ⊢
  unfold ByteWriter.raw
  dsimp only
  cases held : v.data with
  | none =>
      have failed : w.data = none := by simpa [held] using same
      rw [failed]
      rfl
  | some buffer =>
      obtain ⟨buffer', held', size⟩ : ∃ buffer', w.data = some buffer' ∧
          buffer'.length = buffer.length := by simpa [held, eq_comm] using same
      rw [held', Option.bind_some, Option.bind_some, size, length]
      split <;> simp [size, length]

theorem u64 (same : v.SameSize w) (value : UInt64) : (v.u64 value).SameSize (w.u64 value) :=
  same.raw rfl

theorem str (same : v.SameSize w) (value : Text) (maxLen : Nat) :
    (v.str value maxLen).SameSize (w.str value maxLen) := by
  unfold ByteWriter.str
  split
  · exact rfl
  · exact (same.raw rfl).raw rfl

theorem provenance (same : v.SameSize w) (value : Provenance) :
    (v.provenance value).SameSize (w.provenance value) :=
  (((same.str ..).u64 _).u64 _).u64 _

theorem swap (same : v.SameSize w) (first second : Text) (maxLen : Nat) :
    ((v.str second maxLen).str first maxLen).SameSize
      ((w.str first maxLen).str second maxLen) := by
  unfold ByteWriter.str
  split
  · split
    · exact rfl
    · exact rfl
  · split
    · exact rfl
    · simp only [u32_ofNat, raw_raw]
      refine same.raw ?_
      simp only [List.length_append, LittleEndian.length_encode]
      omega

theorem foldl {maxLen : Nat} (texts : List Text) (same : v.SameSize w) :
    (texts.foldl (fun w value => w.str value maxLen) v).SameSize
      (texts.foldl (fun w value => w.str value maxLen) w) := by
  induction texts generalizing v w with
  | nil => exact same
  | cons value texts ih => exact ih (same.str value maxLen)

theorem foldl_perm {texts texts' : List Text} (perm : texts.Perm texts') (maxLen : Nat)
    (same : v.SameSize w) :
    (texts.foldl (fun w value => w.str value maxLen) v).SameSize
      (texts'.foldl (fun w value => w.str value maxLen) w) := by
  induction perm generalizing v w with
  | nil => exact same
  | cons value _ ih => exact ih (same.str value maxLen)
  | swap first second rest => exact (same.swap first second maxLen).foldl rest
  | trans _ _ ih₁ ih₂ => exact (ih₁ (refl v)).trans (ih₂ same)

theorem counted_perm {texts texts' : List Text} (perm : texts.Perm texts') (maxLen : Nat)
    (same : v.SameSize w) :
    (v.counted texts fun w value => w.str value maxLen).SameSize
      (w.counted texts' fun w value => w.str value maxLen) := by
  unfold ByteWriter.counted
  rw [perm.length_eq]
  split
  · exact rfl
  · exact foldl_perm perm maxLen (same.raw rfl)

end ByteWriter.SameSize

end SameSize

end QoSFabric
