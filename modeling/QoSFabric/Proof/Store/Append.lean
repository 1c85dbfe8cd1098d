import QoSFabric.Proof.Store.Run

namespace QoSFabric

open FileSystem Interaction

namespace Store

theorem tryIncrement_eq_some {v n : UInt64} :
    tryIncrement v = some n ↔ n.toNat = v.toNat + 1 := by
  have top : maxUInt64.toNat = 2 ^ 64 - 1 := by decide
  have boundN := n.toNat_lt
  have boundV := v.toNat_lt
  unfold tryIncrement
  split
  · next eq =>
      subst eq
      simp only [reduceCtorEq, false_iff]
      omega
  · next ne =>
      have below : v.toNat ≠ 2 ^ 64 - 1 := fun eq => ne (UInt64.toNat_inj.mp (eq.trans top.symm))
      have next : (v + 1).toNat = v.toNat + 1 := by
        rw [UInt64.toNat_add, show (1 : UInt64).toNat = 1 from rfl, Nat.mod_eq_of_lt (by omega)]
      rw [Option.some.injEq, ← next, UInt64.toNat_inj, eq_comm]

structure Planned (s : Store) (f : Frame) (size : UInt64) : Prop where
  sequence : f.sequence.toNat = s.lastSequence.toNat + 1
  fits : f.Fits s.options.maxRecordBytes
  total : size.toNat = s.walBytes.toNat + (encodeFrame f).length
  budget : size ≤ s.options.maxWalBytes

theorem withinBudget_eq_ok {maxWalBytes size : UInt64} {total : Option UInt64} :
    withinBudget maxWalBytes total = .ok size ↔ total = some size ∧ size ≤ maxWalBytes := by
  cases total with
  | none => simp [withinBudget]
  | some frameBytes =>
      rw [withinBudget]
      split
      · next above =>
          simp only [reduceCtorEq, Option.some.injEq, false_iff, not_and]
          rintro rfl
          exact UInt64.not_le.mpr above
      · next within =>
          simp only [Except.ok.injEq, Option.some.injEq]
          exact ⟨fun eq => ⟨eq, eq ▸ UInt64.not_lt.mp within⟩, And.left⟩

theorem sizeWith_eq_ok {s : Store} {body : Bytes} {size : UInt64}
    (small : frameHeaderBytes + body.length < 2 ^ 64) :
    s.sizeWith body = .ok size ↔
      size.toNat = s.walBytes.toNat + (frameHeaderBytes + body.length) ∧
        size ≤ s.options.maxWalBytes := by
  have record : (UInt64.ofNat (frameHeaderBytes + body.length)).toNat =
      frameHeaderBytes + body.length := by
    rw [UInt64.toNat_ofNat']
    exact Nat.mod_eq_of_lt small
  rw [sizeWith, withinBudget_eq_ok, checkedAdd_eq_some, record]
  exact and_congr_left fun _ => ⟨fun eq => by omega, fun eq => by omega⟩

theorem planFrame_eq_ok {s : Store} {type : RecordType} {flags : UInt8} {attempt : AttemptId}
    {payload bytes : Bytes} {next : Sequence} {size : UInt64}
    (small : s.options.maxRecordBytes ≤ Limits.maxWalRecordBytes) :
    s.planFrame type flags attempt payload = .ok (next, bytes, size) ↔
      s.Planned ⟨type, flags, next, attempt, payload⟩ size ∧
        bytes = encodeFrame ⟨type, flags, next, attempt, payload⟩ := by
  constructor
  · intro h
    unfold planFrame at h
    split at h
    case h_1 => cases h
    case h_2 sequence incremented =>
    split at h
    case isTrue => cases h
    case isFalse =>
    split at h
    case h_1 => cases h
    case h_2 body written =>
    rw [Frame.data_write] at written
    split at written
    case isFalse => cases written
    case isTrue fit =>
    cases written
    cases sized : s.sizeWith (Frame.payload ⟨type, flags, sequence, attempt, payload⟩) with
    | error e =>
        rw [sized] at h
        cases h
    | ok frameBytes =>
        rw [sized] at h
        cases h
        have length : payload.length ≤ Limits.maxWalRecordBytes := by
          simp only [recordHeaderBytes] at fit
          omega
        have bound : frameHeaderBytes +
            (Frame.payload ⟨type, flags, next, attempt, payload⟩).length < 2 ^ 64 := by
          simp only [Frame.length_payload, frameHeaderBytes, recordHeaderBytes,
            Limits.maxWalRecordBytes] at length ⊢
          omega
        obtain ⟨total, budget⟩ := (sizeWith_eq_ok bound).mp sized
        refine ⟨⟨tryIncrement_eq_some.mp incremented, ⟨fit, length⟩, ?_, budget⟩, rfl⟩
        rw [total, Frame.length_payload, length_encodeFrame]
  · rintro ⟨planned, rfl⟩
    have length := planned.fits.2
    have body : ¬payload.length > s.options.maxRecordBytes := by
      have := planned.fits.1
      simp only [recordHeaderBytes] at this
      omega
    have bound : frameHeaderBytes +
        (Frame.payload ⟨type, flags, next, attempt, payload⟩).length < 2 ^ 64 := by
      simp only [Frame.length_payload, frameHeaderBytes, recordHeaderBytes,
        Limits.maxWalRecordBytes] at length ⊢
      omega
    have sized : s.sizeWith (Frame.payload ⟨type, flags, next, attempt, payload⟩) = .ok size := by
      rw [sizeWith_eq_ok bound, Frame.length_payload, ← length_encodeFrame]
      exact ⟨planned.total, planned.budget⟩
    have written : (Frame.write ⟨type, flags, next, attempt, payload⟩ :
        ByteWriter s.options.maxRecordBytes).data =
          some (Frame.payload ⟨type, flags, next, attempt, payload⟩) := by
      rw [Frame.data_write, if_pos planned.fits.1]
    unfold planFrame
    rw [tryIncrement_eq_some.mpr planned.sequence]
    dsimp only
    rw [if_neg body, written]
    dsimp only
    rw [sized]
    rfl

structure Wrote (s s' : Store) (d d' : Disk FileName) (f : Frame) : Prop where
  planned : s.Planned f s'.walBytes
  writable : s.readOnly = false
  handle : ∃ handle, s.walHandle = some handle ∧ d' = d.write handle (encodeFrame f)
  members : s' = { s with
    walBytes := s'.walBytes, lastSequence := f.sequence, stagedCount := s'.stagedCount }

theorem execute_appendFrame {s s' : Store} {d d' : Disk FileName} {type : RecordType}
    {flags : UInt8} {attempt : AttemptId} {payload : Bytes} {result : Result Sequence}
    (small : s.options.maxRecordBytes ≤ Limits.maxWalRecordBytes)
    (h : execute (s.appendFrame type flags attempt payload) d = ((result, s'), d')) :
    (s' = s ∧ d' = d ∧ ∃ e, result = .error e) ∨
      ∃ next, result = .ok next ∧ Wrote s s' d d' ⟨type, flags, next, attempt, payload⟩ := by
  unfold appendFrame at h
  split at h
  case h_1 handle writable opened =>
    cases plan : s.planFrame type flags attempt payload with
    | error e =>
        simp only [plan, execute_pure, Prod.mk.injEq] at h
        obtain ⟨⟨rfl, rfl⟩, rfl⟩ := h
        exact .inl ⟨rfl, rfl, e, rfl⟩
    | ok planned =>
        obtain ⟨next, bytes, size⟩ := planned
        obtain ⟨planned, rfl⟩ := (planFrame_eq_ok small).mp plan
        simp only [plan, execute_bind, execute_write, execute_sync, Bool.not_true,
          Bool.false_eq_true, if_false, execute_pure, Prod.mk.injEq] at h
        obtain ⟨⟨rfl, rfl⟩, rfl⟩ := h
        exact .inr ⟨next, rfl, planned, writable, ⟨handle, opened, rfl⟩, rfl⟩
  case h_2 =>
    simp only [execute_pure, Prod.mk.injEq] at h
    obtain ⟨⟨rfl, rfl⟩, rfl⟩ := h
    exact .inl ⟨rfl, rfl, _, rfl⟩

theorem Wrote.count {s s' : Store} {d d' : Disk FileName} {f : Frame} (h : Wrote s s' d d' f)
    (count : UInt32) : Wrote s { s' with stagedCount := count } d d' f where
  planned := h.planned
  writable := h.writable
  handle := h.handle
  members := by
    rw [h.members]

def Appends {α : Type} (s s' : Store) (d d' : Disk FileName) (result : Result α)
    (frame : α → Frame) : Prop :=
  (s' = s ∧ d' = d ∧ ∃ e, result = .error e) ∨ ∃ a, result = .ok a ∧ Wrote s s' d d' (frame a)

section Operations

variable {s s' : Store} {d d' : Disk FileName}
  (small : s.options.maxRecordBytes ≤ Limits.maxWalRecordBytes)
include small

theorem execute_append {type : RecordType} {payload : Bytes} {result : Result Sequence}
    (h : execute (s.append type payload) d = ((result, s'), d')) :
    Appends s s' d d' result fun next => ⟨type, flagNone, next, 0, payload⟩ :=
  execute_appendFrame small h

theorem execute_counted {α : Type} {a : α} {count : Store → UInt32} {type : RecordType}
    {flags : UInt8} {attempt : AttemptId} {payload : Bytes} {result : Result α}
    (h : execute (do
      match ← s.appendFrame type flags attempt payload with
      | (.error e, s) => pure (.error e, s)
      | (.ok _, s) => pure (.ok a, { s with stagedCount := count s })) d = ((result, s'), d')) :
    (s' = s ∧ d' = d ∧ ∃ e, result = .error e) ∨
      ∃ next, result = .ok a ∧ Wrote s s' d d' ⟨type, flags, next, attempt, payload⟩ := by
  rw [execute_bind] at h
  cases appended : execute (s.appendFrame type flags attempt payload) d with
  | mk outcome e =>
      obtain ⟨sequence, t⟩ := outcome
      rw [appended] at h
      rcases execute_appendFrame small appended with ⟨rfl, rfl, failure, rfl⟩ | ⟨next, rfl, wrote⟩
      · cases h
        exact .inl ⟨rfl, rfl, failure, rfl⟩
      · cases h
        exact .inr ⟨next, rfl, wrote.count _⟩

theorem execute_stage {type : RecordType} {payload : Bytes} {result : Result AttemptId}
    (h : execute (s.stage type payload) d = ((result, s'), d')) :
    Appends s s' d d' result fun attempt =>
      ⟨.mutationIntent, flagHasAttempt, attempt, attempt, intentBody type attempt payload⟩ := by
  unfold stage at h
  split at h
  · cases h
    exact .inl ⟨rfl, rfl, _, rfl⟩
  dsimp only at h
  split at h
  · cases h
    exact .inl ⟨rfl, rfl, _, rfl⟩
  next body written =>
  rw [data_writeIntent] at written
  split at written
  case isFalse => cases written
  cases written
  rcases execute_counted small h with unchanged | ⟨next, rfl, wrote⟩
  · exact .inl unchanged
  · have taken : next = s.lastSequence + 1 := by
      have increment := tryIncrement_eq_some.mpr wrote.planned.sequence
      unfold tryIncrement at increment
      split at increment
      · cases increment
      · exact (Option.some.inj increment).symm
    exact .inr ⟨s.lastSequence + 1, rfl, taken ▸ wrote⟩

theorem execute_commit {attempt : AttemptId} {appliedDigest : Digest256} {result : Result Unit}
    (h : execute (s.commit attempt appliedDigest) d = ((result, s'), d')) :
    (s' = s ∧ d' = d ∧ ∃ e, result = .error e) ∨ ∃ next, result = .ok () ∧
      Wrote s s' d d' ⟨.mutationCommit, flagHasAttempt, next, attempt,
        commitBody attempt appliedDigest⟩ := by
  unfold commit at h
  rw [data_writeCommit] at h
  exact execute_counted small h

theorem execute_abort {attempt : AttemptId} {reason : Text} {result : Result Unit}
    (h : execute (s.abort attempt reason) d = ((result, s'), d')) :
    (s' = s ∧ d' = d ∧ ∃ e, result = .error e) ∨ ∃ next, result = .ok () ∧
      Wrote s s' d d' ⟨.mutationAbort, flagHasAttempt, next, attempt, abortBody attempt reason⟩ := by
  unfold abort at h
  rw [data_writeAbort] at h
  exact execute_counted small h

end Operations

end Store

end QoSFabric
