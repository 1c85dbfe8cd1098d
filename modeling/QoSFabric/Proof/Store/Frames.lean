import QoSFabric.Proof.Store.Rebuild

namespace QoSFabric

open Framing (Outcome Scanned)

variable {maxRecordBytes size : Nat} {rest log : Bytes} {f : Frame} {s : Store}
  {snapshotSequence : UInt64}

structure StandsWhole (maxRecordBytes : Nat) (rest : Bytes) (size : Nat) : Prop where
  header : frameHeaderBytes ≤ rest.length
  budget : LittleEndian.decode (rest.take 4) ≤ maxRecordBytes
  covers : size = frameHeaderBytes + LittleEndian.decode (rest.take 4)
  within : size ≤ rest.length

theorem standsWhole (whole : parseFrame maxRecordBytes rest = .whole f size) :
    StandsWhole maxRecordBytes rest size := by
  unfold parseFrame at whole
  split at whole
  · cases whole
  next header =>
  dsimp only at whole
  split at whole
  · cases whole
  next budget =>
  split at whole
  · cases whole
  next within =>
  split at whole
  · cases whole
  split at whole
  · cases whole
  split at whole
  · cases whole
  cases whole
  exact ⟨Nat.not_lt.mp header, Nat.not_lt.mp budget, rfl, Nat.not_lt.mp within⟩

theorem StandsWhole.positive (stands : StandsWhole maxRecordBytes rest size) : 0 < size := by
  rw [stands.covers]
  exact Nat.add_pos_left (by decide) _

theorem StandsWhole.completeFrameBad (stands : StandsWhole maxRecordBytes rest size)
    (dropped : Nat) : Tail.completeFrameBad maxRecordBytes ⟨true, rest, dropped⟩ = true := by
  have within := stands.within
  rw [stands.covers] at within
  simp only [Tail.completeFrameBad, Bool.true_and, Bool.and_eq_true, decide_eq_true_eq]
  exact ⟨⟨stands.header, stands.budget⟩, within⟩

def Frame.passes (snapshotSequence : UInt64) (f : Frame) : Bool :=
  f.sequence ≤ snapshotSequence || (applyBody (.start 0 0) f).2

theorem Frame.passes_iff : f.passes snapshotSequence = true ↔
    (snapshotSequence < f.sequence → f.Replays) := by
  rw [passes, Bool.or_eq_true, decide_eq_true_eq, Replays]
  constructor
  · rintro (covered | well) later
    · exact absurd covered (UInt64.not_le.mpr later)
    · exact well
  · intro well
    by_cases covered : f.sequence ≤ snapshotSequence
    · exact .inl covered
    · exact .inr (well (UInt64.not_le.mp covered))

theorem applyFrame_passes (snapshotSequence : UInt64) (r : Replay) (f : Frame) :
    (applyFrame snapshotSequence r f).2 = f.passes snapshotSequence := by
  unfold applyFrame Frame.passes
  dsimp only
  split
  · next covered => rw [decide_eq_true covered, Bool.true_or]
  · next later =>
      rw [decide_eq_false later, Bool.false_or]
      exact applyBody_accepts rfl rfl _ _

def framesOf (maxRecordBytes : Nat) (log : Bytes) : List (Frame × Bytes) :=
  Framing.frames frameHeaderBytes (parseFrame maxRecordBytes) log.length log

def framedLength (maxRecordBytes : Nat) (log : Bytes) : Nat :=
  log.length -
    (Framing.extent frameHeaderBytes (parseFrame maxRecordBytes) log.length log).rest.length

def replayFrames (snapshotSequence : UInt64) (r : Replay) (frames : List (Frame × Bytes)) : Replay :=
  frames.foldl (fun r p => (applyFrame snapshotSequence r p.1).1) r

theorem replayOf_scanned (s : Store) (log : Bytes) :
    Scanned frameHeaderBytes (parseFrame s.options.maxRecordBytes) (applyFrame s.snapshotSequence)
      (Frame.passes s.snapshotSequence) log.length (.start s.lastSequence s.durableEpoch) log :=
  Framing.scanned (applyFrame_passes s.snapshotSequence) _ _ _

def Frame.latestPast (snapshotSequence : UInt64) (sequence : Sequence) (f : Frame) : Sequence :=
  if f.sequence ≤ snapshotSequence then sequence else Frame.latest sequence f

theorem lastSequence_applyFrame (snapshotSequence : UInt64) (r : Replay) (f : Frame) :
    (applyFrame snapshotSequence r f).1.lastSequence =
      f.latestPast snapshotSequence r.lastSequence := by
  unfold applyFrame Frame.latestPast
  dsimp only
  split
  · rfl
  · exact applyBody_lastSequence _ _

theorem lastSequence_replayFrames_ne {r : Replay} {frames : List (Frame × Bytes)} :
    (replayFrames snapshotSequence r frames).lastSequence ≠ maxUInt64 ↔
      r.lastSequence ≠ maxUInt64 ∧
        ∀ p ∈ frames, snapshotSequence < p.1.sequence → p.1.sequence ≠ maxUInt64 := by
  induction frames generalizing r with
  | nil => exact ⟨fun ne => ⟨ne, nofun⟩, And.left⟩
  | cons p frames ih =>
      rw [replayFrames, List.foldl_cons, ← replayFrames, ih, lastSequence_applyFrame,
        List.forall_mem_cons, ← and_assoc]
      refine and_congr_left fun _ => ?_
      unfold Frame.latestPast
      split
      · next covered =>
          exact ⟨fun ne => ⟨ne, fun later => absurd covered (UInt64.not_le.mpr later)⟩, And.left⟩
      next later =>
      unfold Frame.latest
      split
      · next above =>
          constructor
          · intro ne
            refine ⟨?_, fun _ => ne⟩
            intro full
            exact absurd (full ▸ le_maxUInt64 p.1.sequence) (UInt64.not_le.mpr above)
          · rintro ⟨-, ne⟩
            exact ne (UInt64.not_le.mp later)
      · next below =>
          constructor
          · intro ne
            refine ⟨ne, fun _ full => ne ?_⟩
            exact UInt64.le_antisymm (le_maxUInt64 _) (full ▸ UInt64.not_lt.mp below)
          · exact And.left

open Framing (Covers Format)

structure ReplaysTo (s : Store) (log front rest : Bytes) (frames : List Frame) : Prop where
  split : log = front ++ rest
  framed : framedLength s.options.maxRecordBytes log = front.length
  items : frames = (framesOf s.options.maxRecordBytes log).map Prod.fst
  covers : Covers frameHeaderBytes (parseFrame s.options.maxRecordBytes) front frames
  passed : ∀ f ∈ frames, f.passes s.snapshotSequence = true
  visited : Format.visitAll (applyFrame s.snapshotSequence)
    (.start s.lastSequence s.durableEpoch) frames = some (s.replayOf log).1
  cut : (s.cutOf log).getD log.length = front.length

structure ReplayStops (s : Store) (log front frame rest : Bytes) (frames : List Frame) (f : Frame) :
    Prop where
  split : log = front ++ (frame ++ rest)
  covers : Covers frameHeaderBytes (parseFrame s.options.maxRecordBytes) front frames
  passed : ∀ f ∈ frames, f.passes s.snapshotSequence = true
  long : frameHeaderBytes ≤ frame.length
  found : ∀ more, parseFrame s.options.maxRecordBytes (frame ++ more) = .whole f frame.length
  refused : f.passes s.snapshotSequence = false
  cut : (s.cutOf log).getD log.length = front.length + frame.length

theorem visitAll_of_passed {frames : List Frame} (r : Replay)
    (passed : ∀ f ∈ frames, f.passes snapshotSequence = true) :
    Format.visitAll (applyFrame snapshotSequence) r frames =
      some (frames.foldl (fun r f => (applyFrame snapshotSequence r f).1) r) := by
  obtain ⟨t, visited⟩ := Format.visitAll_of_accepted (applyFrame snapshotSequence) (s := r)
    fun r f mem => (applyFrame_passes snapshotSequence r f).trans (passed f mem)
  have folded := Format.visitAll_foldl _ id (fun r f => (applyFrame snapshotSequence r f).1)
    (fun _ _ _ => rfl) visited
  rw [visited]
  exact congrArg some folded

end QoSFabric
