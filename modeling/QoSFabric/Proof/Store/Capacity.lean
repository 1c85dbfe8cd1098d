import QoSFabric.Proof.Store.Live

namespace QoSFabric

open FileSystem Interaction

variable {s : Store} {d : Disk FileName}

namespace Store

def grown (s : Store) (length : Nat) : Store :=
  { s with
    walBytes := s.walBytes + UInt64.ofNat (frameHeaderBytes + (recordHeaderBytes + length))
    lastSequence := s.lastSequence + 1 }

structure Takes (s : Store) (length : Nat) : Prop where
  sequence : s.lastSequence.toNat + 1 < 2 ^ 64
  record : recordHeaderBytes + length ≤ s.options.maxRecordBytes
  small : s.options.maxRecordBytes ≤ Limits.maxWalRecordBytes
  log : s.walBytes.toNat + (frameHeaderBytes + (recordHeaderBytes + length)) ≤
    s.options.maxWalBytes.toNat

variable {length : Nat}

theorem Takes.sequence_grown (takes : s.Takes length) :
    (s.grown length).lastSequence.toNat = s.lastSequence.toNat + 1 := by
  show (s.lastSequence + 1).toNat = s.lastSequence.toNat + 1
  rw [UInt64.toNat_add]
  exact Nat.mod_eq_of_lt takes.sequence

theorem Takes.walBytes_grown (takes : s.Takes length) :
    (s.grown length).walBytes.toNat =
      s.walBytes.toNat + (frameHeaderBytes + (recordHeaderBytes + length)) := by
  have bound := s.options.maxWalBytes.toNat_lt
  have log := takes.log
  show (s.walBytes + UInt64.ofNat _).toNat = _
  rw [UInt64.toNat_add, UInt64.toNat_ofNat', Nat.mod_eq_of_lt (a := _ + (recordHeaderBytes + length))
    (by omega), Nat.mod_eq_of_lt (by omega)]

theorem Takes.planned {type : RecordType} {flags : UInt8} {attempt : AttemptId} {body : Bytes}
    (takes : s.Takes body.length) :
    s.Planned ⟨type, flags, s.lastSequence + 1, attempt, body⟩ (s.grown body.length).walBytes where
  sequence := takes.sequence_grown
  fits := by
    have record := takes.record
    have small := takes.small
    refine ⟨record, ?_⟩
    show body.length ≤ _
    omega
  total := by
    rw [takes.walBytes_grown, length_encodeFrame]
  budget := by
    rw [UInt64.le_iff_toNat_le, takes.walBytes_grown]
    exact takes.log

/-- A store that can append. -/
def Ready (s : Store) : Prop := s.readOnly = false ∧ ∃ handle, s.walHandle = some handle

theorem execute_appendFrame_of_takes (type : RecordType) (flags : UInt8) (attempt : AttemptId)
    {body : Bytes} (ready : s.Ready) (takes : s.Takes body.length) (d : Disk FileName) :
    ∃ d', execute (s.appendFrame type flags attempt body) d =
      ((.ok (s.lastSequence + 1), s.grown body.length), d') := by
  obtain ⟨writable, handle, opened⟩ := ready
  have planned : s.Planned ⟨type, flags, s.lastSequence + 1, attempt, body⟩ _ := takes.planned
  have plan := (planFrame_eq_ok takes.small).mpr ⟨planned, rfl⟩
  refine ⟨d.write handle (encodeFrame ⟨type, flags, s.lastSequence + 1, attempt, body⟩), ?_⟩
  unfold appendFrame
  split
  case h_1 same _ eq =>
    obtain rfl : handle = same := Option.some.inj (opened.symm.trans eq)
    rw [plan]
    rfl
  case h_2 closed => exact absurd opened (closed handle writable)

theorem execute_stage_of_takes (type : RecordType) {body : Bytes} (ready : s.Ready)
    (none : s.stagedCount = 0) (takes : s.Takes (14 + body.length)) (d : Disk FileName) :
    ∃ d', execute (s.stage type body) d =
      ((.ok (s.lastSequence + 1), { s.grown (14 + body.length) with stagedCount := 1 }), d') := by
  have written : (writeIntent type (s.lastSequence + 1) body :
      ByteWriter s.options.maxRecordBytes).data =
        some (intentBody type (s.lastSequence + 1) body) := by
    have record := takes.record
    rw [data_writeIntent, if_pos (by omega)]
  have intent : s.Takes (intentBody type (s.lastSequence + 1) body).length := by
    rwa [length_intentBody]
  obtain ⟨d', executed⟩ := execute_appendFrame_of_takes .mutationIntent flagHasAttempt
    (s.lastSequence + 1) ready intent d
  refine ⟨d', ?_⟩
  unfold stage
  rw [if_neg (by rw [none]; decide)]
  dsimp only
  rw [written]
  dsimp only
  rw [execute_bind, executed, length_intentBody]
  show ((_, { s.grown _ with stagedCount := s.stagedCount + 1 }), d') = _
  rw [none]
  rfl

theorem execute_commit_of_takes (attempt : AttemptId) (appliedDigest : Digest256)
    (ready : s.Ready) (takes : s.Takes 40) (d : Disk FileName) :
    ∃ d', execute (s.commit attempt appliedDigest) d = ((.ok (), (s.grown 40).retire), d') := by
  have length : (commitBody attempt appliedDigest).length = 40 := by
    simp [commitBody, appliedDigest.size]
  have takes : s.Takes (commitBody attempt appliedDigest).length := by rwa [length]
  obtain ⟨d', executed⟩ := execute_appendFrame_of_takes .mutationCommit flagHasAttempt attempt ready
    takes d
  refine ⟨d', ?_⟩
  unfold commit
  rw [data_writeCommit]
  dsimp only
  rw [execute_bind, executed, length]
  rfl

end Store

end QoSFabric
