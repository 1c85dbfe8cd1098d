import QoSFabric.Proof.Store.Lifetime
import QoSFabric.Proof.Store.Reopen

namespace QoSFabric

open FileSystem Interaction

open Framing (Format)

variable {s : Store} {d : Disk FileName} {frames : List Frame} {f : Frame}

namespace Frame

def latest (sequence : Sequence) (f : Frame) : Sequence :=
  if f.sequence > sequence then f.sequence else sequence

def epochAfter (epoch : FabricEpoch) (f : Frame) : FabricEpoch :=
  if f.type = .epochAdvance ∧ f.body.length ≥ 8 then
    UInt64.ofNat (LittleEndian.decode (f.body.take 8))
  else epoch

def identityAfter (id : Text) (f : Frame) : Text :=
  if f.type = .storeHeader ∧ f.body.length ≥ 32 then (Digest256.ofBuffer f.body).hex else id

def Replays (f : Frame) : Prop := (applyBody (.start 0 0) f).2 = true

end Frame

theorem latest_of_lt {sequence : Sequence} (lt : sequence < f.sequence) :
    Frame.latest sequence f = f.sequence :=
  if_pos lt

theorem le_latest (sequence : Sequence) (f : Frame) :
    sequence ≤ Frame.latest sequence f ∧ f.sequence ≤ Frame.latest sequence f := by
  unfold Frame.latest
  split
  · next later => exact ⟨UInt64.le_of_lt later, UInt64.le_refl _⟩
  · next earlier => exact ⟨UInt64.le_refl _, UInt64.not_lt.mp earlier⟩

theorem le_foldl_latest (frames : List Frame) (sequence : Sequence) :
    sequence ≤ frames.foldl Frame.latest sequence ∧
      ∀ f ∈ frames, f.sequence ≤ frames.foldl Frame.latest sequence := by
  induction frames generalizing sequence with
  | nil => exact ⟨UInt64.le_refl _, nofun⟩
  | cons f frames ih =>
      have first := le_latest sequence f
      obtain ⟨start, rest⟩ := ih (Frame.latest sequence f)
      refine ⟨UInt64.le_trans first.1 start, ?_⟩
      intro g mem
      rcases List.mem_cons.mp mem with rfl | mem
      · exact UInt64.le_trans first.2 start
      · exact rest g mem

theorem foldl_latest_le {sequence bound : Sequence} (start : sequence ≤ bound)
    (le : ∀ f ∈ frames, f.sequence ≤ bound) : frames.foldl Frame.latest sequence ≤ bound := by
  induction frames generalizing sequence with
  | nil => exact start
  | cons f frames ih =>
      refine ih ?_ fun g mem => le g (List.mem_cons_of_mem _ mem)
      unfold Frame.latest
      split
      · exact le f List.mem_cons_self
      · exact start

theorem foldl_latest_of_le {base sequence : Sequence} (above : base ≤ sequence)
    (start : sequence ≤ frames.foldl Frame.latest base) :
    frames.foldl Frame.latest sequence = frames.foldl Frame.latest base := by
  apply UInt64.le_antisymm
  · exact foldl_latest_le start (le_foldl_latest frames base).2
  · exact foldl_latest_le (UInt64.le_trans above (le_foldl_latest frames sequence).1)
      (le_foldl_latest frames sequence).2

theorem foldl_epochAfter (frames : List Frame) :
    (∀ epoch, frames.foldl Frame.epochAfter epoch = epoch) ∨
      ∀ epoch other, frames.foldl Frame.epochAfter epoch = frames.foldl Frame.epochAfter other := by
  induction frames with
  | nil => exact .inl fun _ => rfl
  | cons f frames ih =>
      by_cases advances : f.type = .epochAdvance ∧ f.body.length ≥ 8
      · right
        intro epoch other
        simp only [List.foldl_cons, Frame.epochAfter, if_pos advances]
      · have same (epoch : FabricEpoch) : Frame.epochAfter epoch f = epoch := if_neg advances
        simp only [List.foldl_cons, same]
        exact ih

theorem foldl_epochAfter_self (frames : List Frame) (epoch : FabricEpoch) :
    frames.foldl Frame.epochAfter (frames.foldl Frame.epochAfter epoch) =
      frames.foldl Frame.epochAfter epoch := by
  rcases foldl_epochAfter frames with kept | said
  · exact kept _
  · exact said _ _

def Store.restated (s : Store) (frames : List Frame) : Store :=
  { s with
    lastSequence := frames.foldl Frame.latest s.lastSequence
    durableEpoch := frames.foldl Frame.epochAfter s.durableEpoch
    storeId := frames.foldl Frame.identityAfter s.storeId }

theorem rebuildFrame_eq (s : Store) (f : Frame) :
    Store.rebuildFrame s f = (s.restated [f], true) := by
  unfold Store.rebuildFrame Store.restated
  simp only [List.foldl_cons, List.foldl_nil, Frame.latest, Frame.epochAfter, Frame.identityAfter]
  split <;> split <;> rfl

theorem visitAll_rebuildFrame (s : Store) (frames : List Frame) :
    Format.visitAll Store.rebuildFrame s frames = some (s.restated frames) := by
  induction frames generalizing s with
  | nil => rfl
  | cons f frames ih =>
      unfold Format.visitAll
      rw [rebuildFrame_eq]
      exact ih _

theorem execute_rebuildFromLog (fits : ∀ f ∈ frames, f.Fits s.options.maxRecordBytes)
    (content : d.content walFileName = some ((walFormat s.options.maxRecordBytes).log frames)) :
    execute s.rebuildFromLog d =
      (if ((walFormat s.options.maxRecordBytes).log frames).length > maxWalScanBytes then s
        else s.restated frames, d) := by
  unfold Store.rebuildFromLog
  rw [execute_bind, execute_exists, Store.isSome_file_of_content content]
  dsimp only
  rw [if_pos rfl, execute_bind, execute_readFile content]
  by_cases large : ((walFormat s.options.maxRecordBytes).log frames).length > maxWalScanBytes
  · rw [if_pos large, if_pos large]
    rfl
  · have scanned := (walFormat s.options.maxRecordBytes).scan_whole _ fits
      (visitAll_rebuildFrame s frames)
    rw [if_neg large, if_neg large]
    exact congrArg (fun scan => (scan.1, d)) scanned

theorem applyBody_durableEpoch (r : Replay) (f : Frame) :
    (applyBody r f).1.durableEpoch = f.epochAfter r.durableEpoch := by
  unfold Frame.epochAfter
  by_cases advance : f.type = .epochAdvance
  · unfold applyBody
    rw [advance]
    dsimp only
    split
    next short => exact (if_neg fun both => absurd both.2 (Nat.not_le.mpr short)).symm
    next long => exact (if_pos ⟨rfl, Nat.not_lt.mp long⟩).symm
  · rw [if_neg fun both => advance both.1]
    unfold applyBody Replay.commit Replay.abort
    split <;> (repeat' split) <;> first | rfl | contradiction

theorem applyBody_accepts {f g : Frame} (type : f.type = g.type) (body : f.body = g.body)
    (r r' : Replay) : (applyBody r f).2 = (applyBody r' g).2 := by
  unfold applyBody
  rw [type, body]
  cases g.type <;> dsimp only <;> split <;> rfl

structure Replay.Alike (r r' : Replay) : Prop where
  staged : r.staged = r'.staged
  replayed : r.replayed = r'.replayed

theorem Replay.Alike.applyBody {r r' : Replay} (alike : r.Alike r') (f : Frame) :
    (QoSFabric.applyBody r f).1.Alike (QoSFabric.applyBody r' f).1 := by
  obtain ⟨staged, replayed⟩ := alike
  unfold QoSFabric.applyBody Replay.commit Replay.abort
  rw [staged]
  cases f.type <;> dsimp only <;> (repeat' split) <;> constructor <;>
    simp [Replay.stage, Replay.append, Replay.advance, staged, replayed]

theorem Replay.Alike.applyFrame {r r' : Replay} (alike : r.Alike r') (snapshotSequence : UInt64)
    (f : Frame) :
    (QoSFabric.applyFrame snapshotSequence r f).1.Alike
        (QoSFabric.applyFrame snapshotSequence r' f).1 ∧
      (QoSFabric.applyFrame snapshotSequence r f).2 =
        (QoSFabric.applyFrame snapshotSequence r' f).2 := by
  unfold QoSFabric.applyFrame
  dsimp only
  split
  · exact ⟨⟨alike.staged, alike.replayed⟩, rfl⟩
  · have noted : ({ r with sawCleanShutdown := false }.noteSequence f.sequence).Alike
        ({ r' with sawCleanShutdown := false }.noteSequence f.sequence) :=
      ⟨alike.staged, alike.replayed⟩
    exact ⟨noted.applyBody f, applyBody_accepts rfl rfl _ _⟩

theorem replayOf_alike {t : Store} (same : t.options.maxRecordBytes = s.options.maxRecordBytes)
    (sequence : t.snapshotSequence = s.snapshotSequence) (log : Bytes) :
    (t.replayOf log).1.Alike (s.replayOf log).1 ∧ (t.replayOf log).2 = (s.replayOf log).2 := by
  unfold Store.replayOf replayLoop
  rw [same, sequence]
  exact Framing.scan_simulates (fun _ _ f alike => alike.applyFrame s.snapshotSequence f) ⟨rfl, rfl⟩

theorem completeFrameBad_encodeFrame {maxRecordBytes dropped : Nat} (fit : f.Fits maxRecordBytes)
    (rest : Framing.Bytes) :
    Tail.completeFrameBad maxRecordBytes ⟨true, encodeFrame f ++ rest, dropped⟩ = true := by
  have length : LittleEndian.decode ((encodeFrame f ++ rest).take 4) = f.payload.length := by
    rw [encodeFrame, List.append_assoc]
    exact decode_header_length fit.payload_lt _
  have size : (encodeFrame f ++ rest).length =
      frameHeaderBytes + f.payload.length + rest.length := by
    simp [encodeFrame, Nat.add_assoc]
  have budget : f.payload.length ≤ maxRecordBytes := by
    rw [Frame.length_payload]
    exact fit.1
  unfold Tail.completeFrameBad
  simp only [length, size, Bool.true_and, Bool.and_eq_true, decide_eq_true_eq]
  exact ⟨⟨by omega, budget⟩, by omega⟩

theorem Frame.Replays.congr {g : Frame} (replays : f.Replays) (type : g.type = f.type)
    (body : g.body = f.body) : g.Replays :=
  (applyBody_accepts type body _ _).trans replays

theorem Frame.Replays.applyFrame (replays : f.Replays) (snapshotSequence : UInt64) (r : Replay) :
    (QoSFabric.applyFrame snapshotSequence r f).2 = true := by
  unfold QoSFabric.applyFrame
  dsimp only
  split
  · rfl
  · exact (applyBody_accepts rfl rfl _ _).trans replays

theorem visitAll_of_admits (cut : s.options.repairTruncateCorruptTail = true →
      ∀ f ∈ frames, f.Replays)
    (fits : ∀ f ∈ frames, f.Fits s.options.maxRecordBytes)
    (admits : s.Admits ((walFormat s.options.maxRecordBytes).log frames)) :
    ∃ r, Format.visitAll (applyFrame s.snapshotSequence) (.start s.lastSequence s.durableEpoch)
      frames = some r := by
  by_cases repair : s.options.repairTruncateCorruptTail = true
  · apply Format.visitAll_of_accepted
    intro r f mem
    exact (cut repair f mem).applyFrame _ r
  · by_contra none
    have refused := Option.eq_none_iff_forall_ne_some.mpr fun r visited => none ⟨r, visited⟩
    obtain ⟨spare, eq⟩ :=
      Nat.exists_eq_add_of_le ((walFormat s.options.maxRecordBytes).length_le_log frames)
    obtain ⟨t, before, f, later, split, stopped⟩ :=
      (walFormat s.options.maxRecordBytes).scan_refused _ fits spare [] refused
    have fit := fits f (by rw [split]; simp)
    rw [List.append_nil, List.append_nil, ← eq] at stopped
    have stop : (s.replayOf ((walFormat s.options.maxRecordBytes).log frames)).2 = _ :=
      congrArg Prod.snd stopped
    have admitted := admits _ (by rw [stop]; rfl)
    unfold Tail.refused at admitted
    rw [show (walFormat s.options.maxRecordBytes).encode f = encodeFrame f from rfl,
      completeFrameBad_encodeFrame fit, Bool.eq_false_of_not_eq_true repair] at admitted
    cases admitted

end QoSFabric
