import QoSFabric.Model.Frame

/-!
# Replaying the write-ahead log

The loop of `Store::replay_log` and its classification of what stands behind the last frame.
-/

namespace QoSFabric

open Framing (Stop)

structure LogRecord where
  type : RecordType
  sequence : Sequence
  payload : Bytes
  deriving DecidableEq, Repr

/-- The variables of the loop. -/
structure Replay where
  staged : List (AttemptId × LogRecord)
  replayed : List LogRecord
  lastSequence : Sequence
  durableEpoch : FabricEpoch
  discardedIntents : Nat
  epochAdvances : Nat
  sawCleanShutdown : Bool
  deriving DecidableEq, Repr

namespace Replay

def start (lastSequence : Sequence) (durableEpoch : FabricEpoch) : Replay :=
  ⟨[], [], lastSequence, durableEpoch, 0, 0, false⟩

def noteSequence (s : Replay) (sequence : Sequence) : Replay :=
  { s with lastSequence := if sequence > s.lastSequence then sequence else s.lastSequence }

def stage (s : Replay) (attempt : AttemptId) (type : RecordType) (payload : Bytes) : Replay :=
  { s with staged := s.staged ++ [(attempt, ⟨type, 0, payload⟩)] }

def commit (s : Replay) (attempt : AttemptId) (sequence : Sequence) : Replay :=
  match s.staged.find? (·.1 == attempt) with
  | none => s
  | some (_, record) =>
      { s with
        replayed := s.replayed ++ [{ record with sequence }]
        staged := s.staged.eraseP (·.1 == attempt) }

def abort (s : Replay) (attempt : AttemptId) : Replay :=
  match s.staged.find? (·.1 == attempt) with
  | none => s
  | some _ =>
      { s with
        staged := s.staged.eraseP (·.1 == attempt)
        discardedIntents := s.discardedIntents + 1 }

def append (s : Replay) (type : RecordType) (sequence : Sequence) (payload : Bytes) : Replay :=
  { s with replayed := s.replayed ++ [⟨type, sequence, payload⟩] }

def advance (s : Replay) (epoch : FabricEpoch) : Replay :=
  { s with durableEpoch := epoch, epochAdvances := s.epochAdvances + 1 }

end Replay

/-- The body of a frame past the snapshot; `false` says that it is malformed. -/
def applyBody (s : Replay) (f : Frame) : Replay × Bool :=
  match f.type with
  | .mutationIntent =>
      match readIntent f.body with
      | none => (s, false)
      | some (type, attempt, payload) => (s.stage attempt type payload, true)
  | .mutationCommit =>
      match readAttempt f.body with
      | none => (s, false)
      | some attempt => (s.commit attempt f.sequence, true)
  | .mutationAbort =>
      match readAttempt f.body with
      | none => (s, false)
      | some attempt => (s.abort attempt, true)
  | .epochAdvance =>
      if f.body.length < 8 then (s, false)
      else ((s.advance (UInt64.ofNat (LittleEndian.decode (f.body.take 8)))).append f.type
        f.sequence f.body, true)
  | .cleanShutdown => ({ s with sawCleanShutdown := true }, true)
  | .storeHeader => (s, !(f.body.length < 32))
  | .unknown => (s, false)
  | type => (s.append type f.sequence f.body, true)

def applyFrame (snapshotSequence : UInt64) (s : Replay) (f : Frame) : Replay × Bool :=
  let s := { s with sawCleanShutdown := false }
  if f.sequence ≤ snapshotSequence then (s, true)
  else applyBody (s.noteSequence f.sequence) f

def replayLoop (maxRecordBytes : Nat) (snapshotSequence : UInt64) (s : Replay) (bytes : Bytes) :
    Replay × Stop :=
  Framing.scan frameHeaderBytes (parseFrame maxRecordBytes) (applyFrame snapshotSequence)
    bytes.length s bytes

/-- What the loop leaves behind the last good frame: whether it saw a bad one, the bytes from the
cutoff on, and how many bytes stand behind `good_end`. -/
structure Tail where
  sawBad : Bool
  rest : Bytes
  dropped : Nat

def tailOf : Stop → Option Tail
  | .ended [] => none
  | .ended rest => some ⟨false, rest, rest.length⟩
  | .unparsed rest => some ⟨true, rest, rest.length⟩
  | .refused rest after => some ⟨true, rest, after.length⟩

namespace Tail

def completeFrameBad (maxRecordBytes : Nat) (t : Tail) : Bool :=
  t.sawBad && frameHeaderBytes ≤ t.rest.length &&
    LittleEndian.decode (t.rest.take 4) ≤ maxRecordBytes &&
    frameHeaderBytes + LittleEndian.decode (t.rest.take 4) ≤ t.rest.length

def validFrameFollows (maxRecordBytes : Nat) (t : Tail) : Bool :=
  t.sawBad && anyValidFrameAfter maxRecordBytes t.rest

def refused (maxRecordBytes : Nat) (repair : Bool) (t : Tail) : Bool :=
  (t.completeFrameBad maxRecordBytes || t.validFrameFollows maxRecordBytes) &&
    (!repair || t.validFrameFollows maxRecordBytes)

end Tail

end QoSFabric
