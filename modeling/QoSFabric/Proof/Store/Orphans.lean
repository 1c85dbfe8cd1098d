import QoSFabric.Proof.Store.Survival
import QoSFabric.Proof.Store.Verify
import QoSFabric.Proof.Store.Waiting

/-!
# Commits across a compaction

Several clients of one store call it in any order, close it and open it again. A snapshot retires the
intents it finds in the log, and a replay passes over a commit whose intent is gone.
-/

namespace QoSFabric

open FileSystem Interaction

def StoreCall.journals (s s' : Store) : StoreCall → Journal × Journal → Journal × Journal
  | .append type payload, (past, j) => (past, j ++ [(s'.lastSequence, .append type payload)])
  | .stage type payload, (past, j) => (past, j ++ [(s'.lastSequence, .stage type payload)])
  | .commit attempt digest, (past, j) => (past, j ++ [(s'.lastSequence, .commit attempt digest)])
  | .abort attempt reason, (past, j) => (past, j ++ [(s'.lastSequence, .abort attempt reason)])
  | .writeSnapshot _, (past, j) => (past ++ j, [])
  | .adoptStoreIdentity _, (past, j) => (past, j)
  | .close, (past, j) =>
      if s.readOnly = true ∨ s.walHandle = none then (past, j)
      else (past, j ++ [(s'.lastSequence, .append .cleanShutdown [])])

/-- The clients of one store call it in turns, and it is opened again, with the entry of an identity
when it takes one. -/
inductive Interleaving (options : StoreOptions) :
    Journal → Journal → Store → Disk FileName → Prop where
  | created {boot : Bytes} {s : Store} {d : Disk FileName}
      (opening : execute (Store.open options boot) Disk.empty = (.ok s, d)) :
      Interleaving options [] [(s.lastSequence, headerEntry boot)] s d
  | called {past j past' j' : Journal} {s s' : Store} {d d' : Disk FileName} {call : StoreCall}
      {answer : StoreAnswer} (run : Interleaving options past j s d)
      (calling : execute (s.call call) d = ((.ok answer, s'), d'))
      (journals : call.journals s s' (past, j) = (past', j')) : Interleaving options past' j' s' d'
  | reopened {past j header : Journal} {boot : Bytes} {s s' : Store} {d d' : Disk FileName}
      (run : Interleaving options past j s d)
      (opening : execute (Store.open options boot) d = (.ok s', d'))
      (identity : header = [] ∨ header = [(s'.lastSequence, headerEntry boot)])
      (grown : walOf d' = walOf d ++ (walFormat options.maxRecordBytes).log header.frames) :
      Interleaving options past (j ++ header) s' d'

variable {options : StoreOptions} {past j past' j' front rest : Journal} {s s' t : Store}
  {d d' : Disk FileName} {m : Manifest} {held : Option Bytes} {sequence : Sequence} {e : Entry}
  {call : StoreCall} {answer : StoreAnswer} {boot : Bytes} {attempt : AttemptId} {type : RecordType}
  {payload : Bytes} {appliedDigest : Digest256}

theorem Interleaving.run (run : Interleaving options past j s d) :
    ∃ events, StoreRun options events s d := by
  induction run with
  | created opening => exact ⟨_, .created opening⟩
  | called _ calling _ ih =>
      obtain ⟨events, run⟩ := ih
      exact ⟨_, run.called calling⟩
  | reopened _ opening _ _ ih =>
      obtain ⟨events, run⟩ := ih
      exact ⟨_, run.reopened opening⟩

structure Trailing (options : StoreOptions) (past j : Journal) (s : Store)
    (d : Disk FileName) : Prop where
  same : s.options = options
  attached : ∃ m held, Attached s d m held ((walFormat options.maxRecordBytes).log j.frames) ∧
    m.snapshotSequence ≤ m.lastSequence
  fits : ∀ f ∈ j.frames, f.Fits options.maxRecordBytes
  short : ∀ x ∈ j, x.2.Short
  before : ∀ x ∈ past, x.1 ≤ s.snapshotSequence
  after : ∀ x ∈ j, s.snapshotSequence < x.1
  rising : (past ++ j).Pairwise fun x y => x.1 < y.1
  known : ∀ x ∈ past ++ j, x.1 ≤ s.lastSequence

theorem Trailing.taken (trailing : Trailing options past j s d) :
    s.snapshotSequence ≤ s.lastSequence := by
  obtain ⟨m, held, attached, le⟩ := trailing.attached
  rw [attached.sequence]
  exact UInt64.le_trans le attached.recorded

theorem Entry.short_append : (Entry.append type payload).Short := by
  rintro _ _ ⟨⟩

theorem Trailing.created (opening : execute (Store.open options boot) Disk.empty = (.ok s, d)) :
    Trailing options [] [(s.lastSequence, headerEntry boot)] s d := by
  have created := created_of_empty (valid_of_open opening) opening
  have last := created.lastSequence
  have unwritten : s.snapshotSequence = 0 := created.live.sequence
  have frames : Journal.frames [(s.lastSequence, headerEntry boot)] = [headerFrame boot 1] := by
    rw [last]
    rfl
  have zero_le_one : (0 : UInt64) ≤ 1 := by decide
  have zero_lt_one : (0 : UInt64) < 1 := by decide
  refine ⟨created.same_options, ⟨identityManifest boot, none, ?_, zero_le_one⟩, ?_, ?_,
    nofun, ?_, List.pairwise_singleton _ _, ?_⟩
  · rw [frames, Framing.Format.log_cons, Framing.Format.log_nil, List.append_nil]
    exact created.live.attached
  · rw [frames]
    exact List.forall_mem_singleton.mpr created.fits
  · exact List.forall_mem_singleton.mpr Entry.short_append
  · rw [List.forall_mem_singleton, unwritten, last]
    exact zero_lt_one
  · exact List.forall_mem_singleton.mpr (UInt64.le_refl _)

theorem Trailing.wrote (trailing : Trailing options past j s d) (short : e.Short)
    (wrote : Store.Wrote s s' d d' (e.frame sequence)) :
    s'.lastSequence = sequence ∧ Trailing options past (j ++ [(sequence, e)]) s' d' := by
  have taken := trailing.taken
  obtain ⟨same, ⟨m, held, attached, le⟩, fits, shorts, before, after, rising, known⟩ := trailing
  have members := wrote.members
  have last : s'.lastSequence = sequence := by
    rw [members]
    exact e.frame_sequence sequence
  have snapshot : s'.snapshotSequence = s.snapshotSequence := by rw [members]
  have next : sequence.toNat = s.lastSequence.toNat + 1 := by
    rw [← wrote.planned.sequence, Entry.frame_sequence]
  have later (v : Sequence) (le : v ≤ s.lastSequence) : v < sequence := by
    rw [UInt64.le_iff_toNat_le] at le
    rw [UInt64.lt_iff_toNat_lt]
    omega
  refine ⟨last, ?_, ⟨m, held, ?_, le⟩, ?_, ?_, ?_, ?_, ?_, ?_⟩
  · rw [members]
    exact same
  · rw [Journal.frames_append, Framing.Format.log_append,
      show Journal.frames [(sequence, e)] = [e.frame sequence] from rfl,
      Framing.Format.log_cons, Framing.Format.log_nil, List.append_nil]
    exact attached.wrote wrote
  · rw [Journal.frames_append, List.forall_mem_append]
    exact ⟨fits, List.forall_mem_singleton.mpr (same ▸ wrote.planned.fits)⟩
  · rw [List.forall_mem_append]
    exact ⟨shorts, List.forall_mem_singleton.mpr short⟩
  · rw [snapshot]
    exact before
  · rw [snapshot, List.forall_mem_append]
    exact ⟨after, List.forall_mem_singleton.mpr (later _ taken)⟩
  · rw [← List.append_assoc, List.pairwise_append]
    refine ⟨rising, List.pairwise_singleton _ _, ?_⟩
    intro x mem
    exact List.forall_mem_singleton.mpr (later x.1 (known x mem))
  · rw [last, ← List.append_assoc, List.forall_mem_append]
    refine ⟨?_, List.forall_mem_singleton.mpr (UInt64.le_refl _)⟩
    intro x mem
    exact UInt64.le_of_lt (later x.1 (known x mem))

theorem Trailing.compacted (trailing : Trailing options past j s d) {snapshot : Bytes}
    (executed : execute (s.writeSnapshot snapshot) d = ((.ok (), s'), d')) :
    Trailing options (past ++ j) [] s' d' := by
  obtain ⟨same, ⟨m, held, attached, -⟩, -, -, -, -, rising, known⟩ := trailing
  obtain ⟨same', attached'⟩ := attached.compacted executed
  have sequence : s'.snapshotSequence = s.lastSequence := attached'.sequence
  have last : s.lastSequence ≤ s'.lastSequence := attached'.recorded
  refine ⟨same'.trans same, ⟨_, _, attached', UInt64.le_refl _⟩, nofun, nofun, ?_, nofun, ?_, ?_⟩
  · rw [sequence]
    exact known
  · rw [List.append_nil]
    exact rising
  · rw [List.append_nil]
    exact fun x mem => UInt64.le_trans (known x mem) last

theorem Trailing.called (trailing : Trailing options past j s d)
    (calling : execute (s.call call) d = ((.ok answer, s'), d'))
    (journals : call.journals s s' (past, j) = (past', j')) : Trailing options past' j' s' d' := by
  obtain ⟨m, held, attached, le⟩ := trailing.attached
  have done := Store.called_of_execute attached.valid.small calling
  have wrote {e : Entry} {next : Sequence} {u : Store} {d₁ : Disk FileName} (short : e.Short)
      (w : Store.Wrote s u d d₁ (e.frame next)) :
      Trailing options past (j ++ [(u.lastSequence, e)]) u d₁ := by
    obtain ⟨last, trailing⟩ := trailing.wrote short w
    exact last ▸ trailing
  cases done with
  | @appended type payload next _ _ w =>
      cases journals
      have w : Store.Wrote s s' d d' ((Entry.append type payload).frame next) := w
      exact wrote Entry.short_append w
  | @staged type payload attempt _ _ w =>
      cases journals
      have w : Store.Wrote s s' d d' ((Entry.stage type payload).frame attempt) := w
      refine wrote ?_ w
      rintro _ _ ⟨⟩
      exact w.short_stage
  | @committed attempt appliedDigest next _ _ w =>
      cases journals
      have w : Store.Wrote s s' d d' ((Entry.commit attempt appliedDigest).frame next) := w
      exact wrote nofun w
  | @aborted attempt reason next _ _ w =>
      cases journals
      have w : Store.Wrote s s' d d' ((Entry.abort attempt reason).frame next) := w
      exact wrote nofun w
  | compacted executed =>
      cases journals
      exact trailing.compacted executed
  | adopted published =>
      cases journals
      have taken := trailing.taken
      obtain ⟨same, -, fits, short, before, after, rising, known⟩ := trailing
      exact ⟨same, ⟨_, held, attached.adopted published, taken⟩, fits, short, before, after, rising,
        known⟩
  | @closed next t _ w =>
      obtain ⟨handle, opened, -⟩ := w.handle
      have open_ : ¬(s.readOnly = true ∨ s.walHandle = none) := by
        rw [w.writable, opened]
        exact not_or.mpr ⟨Bool.false_ne_true, Option.some_ne_none handle⟩
      obtain ⟨rfl, rfl⟩ := Prod.mk.inj ((if_neg open_).symm.trans journals)
      have w : Store.Wrote s t d d' ((Entry.append .cleanShutdown []).frame next) := w
      obtain ⟨same, ⟨m', held', attached', le'⟩, fits, short, before, after, rising, known⟩ :=
        wrote Entry.short_append w
      exact ⟨same, ⟨m', held', ⟨attached'.shows, attached'.valid, nofun, attached'.walBytes,
        attached'.path, attached'.sequence, attached'.recorded⟩, le'⟩, fits, short, before, after,
        rising, known⟩
  | idle silent =>
      obtain ⟨rfl, rfl⟩ := Prod.mk.inj ((if_pos silent).symm.trans journals)
      obtain ⟨same, -, fits, short, before, after, rising, known⟩ := trailing
      exact ⟨same, ⟨m, held, ⟨attached.shows, attached.valid, attached.handle, attached.walBytes,
        attached.path, attached.sequence, attached.recorded⟩, le⟩, fits, short, before, after, rising,
        known⟩

theorem framesOf_log {maxRecordBytes : Nat} {frames : List Frame}
    (fits : ∀ f ∈ frames, f.Fits maxRecordBytes) :
    (framesOf maxRecordBytes ((walFormat maxRecordBytes).log frames)).map Prod.fst = frames := by
  have whole : (walFormat maxRecordBytes).Torn [] := .inl rfl
  have listed := (walFormat maxRecordBytes).frames_log fits whole.unframed
    ((walFormat maxRecordBytes).length_le_log frames)
  rwa [List.append_nil] at listed

theorem Journal.through (fits : ∀ f ∈ j.frames, f.Fits t.options.maxRecordBytes)
    (admits : t.Admits ((walFormat t.options.maxRecordBytes).log j.frames)) :
    ReadThrough t ((walFormat t.options.maxRecordBytes).log j.frames) ∧
      (t.replayOf ((walFormat t.options.maxRecordBytes).log j.frames)).1 =
        j.taken t.snapshotSequence (.start t.lastSequence t.durableEpoch) := by
  have framed : Framed t.options.maxRecordBytes ((walFormat t.options.maxRecordBytes).log j.frames) :=
    ⟨j.frames, fits, rfl⟩
  have through := readThrough_of_admits framed.extent admits
  refine ⟨through, ?_⟩
  rw [replayOf_readThrough framed.extent through, replayFrames]
  calc (framesOf t.options.maxRecordBytes
        ((walFormat t.options.maxRecordBytes).log j.frames)).foldl
          (fun r p => (applyFrame t.snapshotSequence r p.1).1) (.start t.lastSequence t.durableEpoch)
      = ((framesOf t.options.maxRecordBytes
          ((walFormat t.options.maxRecordBytes).log j.frames)).map Prod.fst).foldl
            (fun r f => (applyFrame t.snapshotSequence r f).1)
              (.start t.lastSequence t.durableEpoch) := by rw [List.foldl_map]
    _ = j.frames.foldl (fun r f => (applyFrame t.snapshotSequence r f).1)
          (.start t.lastSequence t.durableEpoch) := by rw [framesOf_log fits]
    _ = j.taken t.snapshotSequence (.start t.lastSequence t.durableEpoch) := by
        rw [Journal.frames, List.foldl_map]
        rfl

theorem Trailing.through (trailing : Trailing options past j s d)
    (admits : ((Store.fresh options).adopt m).Admits ((walFormat options.maxRecordBytes).log j.frames)) :
    keptOf options m ((walFormat options.maxRecordBytes).log j.frames) =
        (walFormat options.maxRecordBytes).log j.frames ∧
      (((Store.fresh options).adopt m).replayOf ((walFormat options.maxRecordBytes).log j.frames)).1 =
        Journal.taken m.snapshotSequence (.start m.lastSequence m.durableEpoch) j := by
  obtain ⟨through, replays⟩ := @Journal.through j ((Store.fresh options).adopt m) trailing.fits admits
  refine ⟨?_, replays⟩
  have kept : (((Store.fresh options).adopt m).cutOf
      ((walFormat options.maxRecordBytes).log j.frames)).getD
        ((walFormat options.maxRecordBytes).log j.frames).length =
      ((walFormat options.maxRecordBytes).log j.frames).length := cutOf_readThrough through
  rw [keptOf, kept, List.take_length]

theorem Journal.le_taken {snapshotSequence : Sequence} {r : Replay}
    (after : ∀ x ∈ j, snapshotSequence < x.1) :
    r.lastSequence ≤ (j.taken snapshotSequence r).lastSequence ∧
      ∀ x ∈ j, x.1 ≤ (j.taken snapshotSequence r).lastSequence := by
  induction j generalizing r with
  | nil => exact ⟨UInt64.le_refl _, nofun⟩
  | cons x j ih =>
      rw [List.forall_mem_cons] at after
      have noted := noteSequence_le { r with sawCleanShutdown := false } x.1
      rw [← applyBody_lastSequence _ (x.2.frame x.1), ← applyFrame_entry after.1] at noted
      obtain ⟨grown, rest⟩ := @ih (applyFrame snapshotSequence r (x.2.frame x.1)).1 after.2
      rw [taken, List.foldl_cons, ← taken, List.forall_mem_cons]
      exact ⟨UInt64.le_trans noted.2 grown, UInt64.le_trans noted.1 grown, rest⟩

theorem Trailing.entries {m' : Manifest} {header : Journal} {frames : List Frame}
    (trailing : Trailing options past j s d)
    (shown : d.content walFileName = some ((walFormat options.maxRecordBytes).log j.frames))
    (reopened : Reopened options m held ((walFormat options.maxRecordBytes).log j.frames) boot s' d' m'
      frames)
    (identity : header = [] ∨ header = [(s'.lastSequence, headerEntry boot)])
    (grown : walOf d' = walOf d ++ (walFormat options.maxRecordBytes).log header.frames) :
    header.frames = frames := by
  obtain ⟨kept, -⟩ := trailing.through reopened.readable.admits
  have added : frames.flatMap encodeFrame =
      (walFormat options.maxRecordBytes).log header.frames := by
    rw [walOf, walOf, reopened.live.shows.log, shown, Option.getD_some, Option.getD_some,
      kept] at grown
    exact List.append_cancel_left grown
  have nonempty (f : Frame) : [f].flatMap encodeFrame ≠ [] := by
    rw [List.flatMap_singleton]
    exact encodeFrame_ne_nil f
  rcases identity with rfl | rfl
  · rcases reopened.header with ⟨rfl, -⟩ | ⟨-, rfl, -⟩
    · rfl
    · exact absurd added (nonempty _)
  · rcases reopened.header with ⟨rfl, -⟩ | ⟨-, rfl, -⟩
    · exact absurd added.symm (nonempty _)
    · rfl

theorem Trailing.reopened {header : Journal} (trailing : Trailing options past j s d)
    (opening : execute (Store.open options boot) d = (.ok s', d'))
    (identity : header = [] ∨ header = [(s'.lastSequence, headerEntry boot)])
    (grown : walOf d' = walOf d ++ (walFormat options.maxRecordBytes).log header.frames) :
    Trailing options past (j ++ header) s' d' := by
  obtain ⟨same, ⟨m, held, attached, le⟩, fits, short, before, after, rising, -⟩ := id trailing
  have valid : options.Valid := same ▸ attached.valid
  obtain ⟨m', frames, reopened⟩ := reopened_of_open valid attached.shows opening
  obtain ⟨kept, replays⟩ := trailing.through reopened.readable.admits
  have snapshot : s'.snapshotSequence = s.snapshotSequence :=
    reopened.sequence.trans attached.sequence.symm
  have attached' := reopened.live.attached
  have entries := trailing.entries attached.shows.log reopened identity grown
  have added : frames.flatMap encodeFrame =
      (walFormat options.maxRecordBytes).log header.frames := by
    rw [entries]
    rfl
  rw [kept, added, ← Framing.Format.log_append, ← Journal.frames_append] at attached'
  rw [attached.sequence] at after before
  obtain ⟨later, last⟩ := @Journal.le_taken j m.snapshotSequence
    (.start m.lastSequence m.durableEpoch) after
  rw [← replays] at later last
  have known (x : Sequence × Entry) (mem : x ∈ past ++ j) : x.1 ≤
      (((Store.fresh options).adopt m).replayOf
        ((walFormat options.maxRecordBytes).log j.frames)).1.lastSequence := by
    rcases List.mem_append.mp mem with old | inside
    · exact UInt64.le_trans (before x old) (UInt64.le_trans le later)
    · exact last x inside
  rcases reopened.header with ⟨rfl, rfl, same'⟩ | ⟨-, rfl, fit, next, recorded⟩
  · obtain rfl : header = [] := List.map_eq_nil_iff.mp entries
    rw [List.append_nil] at attached' ⊢
    rw [← reopened.sequence] at before after
    exact ⟨reopened.same_options, ⟨m', held, attached', le⟩, fits, short, before, after, rising,
      fun x mem => same' ▸ known x mem⟩
  · obtain rfl := identity.resolve_left (by rintro rfl; cases entries)
    have above (v : Sequence) (bound : v ≤ (((Store.fresh options).adopt m).replayOf
        ((walFormat options.maxRecordBytes).log j.frames)).1.lastSequence) : v < s'.lastSequence := by
      rw [UInt64.le_iff_toNat_le] at bound
      rw [UInt64.lt_iff_toNat_lt]
      omega
    have past_snapshot : m.snapshotSequence < s'.lastSequence := above _ (UInt64.le_trans le later)
    have sequence' : m'.snapshotSequence ≤ m'.lastSequence := by
      rw [← attached'.sequence, recorded, reopened.sequence]
      exact UInt64.le_of_lt past_snapshot
    rw [← reopened.sequence] at before after past_snapshot
    refine ⟨reopened.same_options, ⟨m', held, attached', sequence'⟩, ?_, ?_, before, ?_, ?_, ?_⟩
    · rw [Journal.frames_append, List.forall_mem_append]
      exact ⟨fits, List.forall_mem_singleton.mpr fit⟩
    · rw [List.forall_mem_append]
      exact ⟨short, List.forall_mem_singleton.mpr Entry.short_append⟩
    · rw [List.forall_mem_append]
      exact ⟨after, List.forall_mem_singleton.mpr past_snapshot⟩
    · rw [← List.append_assoc, List.pairwise_append]
      refine ⟨rising, List.pairwise_singleton _ _, ?_⟩
      intro x mem
      exact List.forall_mem_singleton.mpr (above x.1 (known x mem))
    · rw [← List.append_assoc, List.forall_mem_append]
      refine ⟨?_, List.forall_mem_singleton.mpr (UInt64.le_refl _)⟩
      intro x mem
      exact UInt64.le_of_lt (above x.1 (known x mem))

theorem Interleaving.trailing (run : Interleaving options past j s d) :
    Trailing options past j s d := by
  induction run with
  | created opening => exact .created opening
  | called _ calling journals ih => exact ih.called calling journals
  | reopened _ opening identity grown ih => exact ih.reopened opening identity grown

theorem StoreRun.interleaving {events : List StoreEvent} (run : StoreRun options events s d) :
    ∃ past j, Interleaving options past j s d := by
  induction run with
  | created opening => exact ⟨_, _, .created opening⟩
  | called run calling ih =>
      obtain ⟨past, j, interleaving⟩ := ih
      exact ⟨_, _, interleaving.called calling rfl⟩
  | @reopened events boot s s' d d' run opening ih =>
      obtain ⟨past, j, interleaving⟩ := ih
      have trailing := interleaving.trailing
      obtain ⟨m, held, attached, le⟩ := trailing.attached
      have valid : options.Valid := trailing.same ▸ attached.valid
      obtain ⟨m', frames, reopened⟩ := reopened_of_open valid attached.shows opening
      obtain ⟨kept, -⟩ := trailing.through reopened.readable.admits
      have grown : walOf d' = walOf d ++ frames.flatMap encodeFrame := by
        rw [walOf, walOf, reopened.live.shows.log, attached.shows.log, Option.getD_some,
          Option.getD_some, kept]
      rcases reopened.header with ⟨rfl, -⟩ | ⟨-, rfl, -⟩
      · exact ⟨_, _, interleaving.reopened opening (.inl rfl) grown⟩
      · exact ⟨_, _, interleaving.reopened opening (.inr rfl) grown⟩

theorem Trailing.committed_replayed (trailing : Trailing options past j s d)
    (split : j = front ++ (sequence, .commit attempt appliedDigest) :: rest)
    (opening : execute (Store.open options boot) d = (.ok t, d')) :
    ⟨type, sequence, payload⟩ ∈ t.replayed ↔
      (front.waiting attempt).head? = some (type, payload) := by
  obtain ⟨m, held, attached, -⟩ := trailing.attached
  have valid : options.Valid := trailing.same ▸ attached.valid
  obtain ⟨m', frames, reopened⟩ := reopened_of_open valid attached.shows opening
  obtain ⟨-, replays⟩ := trailing.through reopened.readable.admits
  have after := trailing.after
  have rising := (List.pairwise_append.mp trailing.rising).2.1
  rw [attached.sequence] at after
  rw [reopened.replayed, replays]
  subst split
  refine Journal.mem_taken_commit after (fun x mem => trailing.short x (List.mem_append_left _ mem)) ?_
    ⟨rfl, rfl⟩
  obtain ⟨-, ordered, across⟩ := List.pairwise_append.mp rising
  rw [List.forall_mem_append]
  refine ⟨fun x mem => UInt64.ne_of_lt (across x mem _ List.mem_cons_self), ?_⟩
  exact fun x mem => (UInt64.ne_of_lt (List.rel_of_pairwise_cons ordered mem)).symm

/-- A reopening replays the payload of an attempt that was committed behind the last snapshot exactly
when its own intent waits first under its number where the commit stands in the log, and the directory
opens. Where only `Stage` has left intents under that number and none has been taken, this says that
it was staged behind the snapshot. -/
theorem committed_replayed_iff (run : Interleaving options past j s d)
    (split : j = front ++ (sequence, .commit attempt appliedDigest) :: rest)
    (staged : (attempt, .stage type payload) ∈ past ++ front) :
    (∀ boot, (∃ t d', execute (Store.open options boot) d = (.ok t, d') ∧
        ⟨type, sequence, payload⟩ ∈ t.replayed) ↔
      (front.waiting attempt).head? = some (type, payload) ∧
        (walOf d).length ≤ maxWalScanBytes ∧ ∃ m, Reopenable options d m) ∧
    ((∀ x ∈ front, x.2.takes ≠ some attempt) →
      (∀ x ∈ front, ∀ staged, x.2.intent x.1 = some (attempt, staged) → x.1 = attempt) →
        ((front.waiting attempt).head? = some (type, payload) ↔ s.snapshotSequence < attempt)) := by
  have trailing := run.trailing
  obtain ⟨events, stored⟩ := run.run
  refine ⟨?_, ?_⟩
  · intro boot
    rw [← stored.opens_iff boot]
    constructor
    · rintro ⟨t, d', opening, mem⟩
      exact ⟨(trailing.committed_replayed split opening).mp mem, t, d', opening⟩
    · rintro ⟨waits, t, d', opening⟩
      exact ⟨t, d', opening, (trailing.committed_replayed split opening).mpr waits⟩
  · intro untaken own
    have rising : (past ++ front).Pairwise fun x y => x.1 < y.1 := by
      have rising := trailing.rising
      rw [split, ← List.append_assoc] at rising
      exact (List.pairwise_append.mp rising).1
    rw [Journal.head_waiting_iff rising staged untaken own]
    constructor
    · intro inside
      exact trailing.after _ (split ▸ List.mem_append_left _ inside)
    · intro later
      rcases List.mem_append.mp staged with old | inside
      · exact absurd (trailing.before _ old) (UInt64.not_le.mpr later)
      · exact inside

def rehearseCalls (options : StoreOptions) (boot : Bytes) : List (Option StoreCall) →
    (Journal × Journal) × Store × Disk FileName → Option ((Journal × Journal) × Store × Disk FileName)
  | [], site => some site
  | some call :: steps, (entries, s, d) =>
      match execute (s.call call) d with
      | ((.ok _, s'), d') =>
          rehearseCalls options boot steps (call.journals s s' entries, s', d')
      | ((.error _, _), _) => none
  | none :: steps, (entries, _, d) =>
      match execute (Store.open options boot) d with
      | (.ok s', d') =>
          if walOf d' = walOf d then rehearseCalls options boot steps (entries, s', d') else none
      | (.error _, _) => none

theorem Interleaving.rehearsed {steps : List (Option StoreCall)}
    (run : Interleaving options past j s d)
    (rehearsal : rehearseCalls options boot steps ((past, j), s, d) = some ((past', j'), s', d')) :
    Interleaving options past' j' s' d' := by
  induction steps generalizing past j s d with
  | nil =>
      cases rehearsal
      exact run
  | cons step steps ih =>
      unfold rehearseCalls at rehearsal
      cases step with
      | some call =>
          dsimp only at rehearsal
          split at rehearsal
          next answer s₁ d₁ calling => exact ih (run.called calling rfl) rehearsal
          next => cases rehearsal
      | none =>
          dsimp only at rehearsal
          split at rehearsal
          next _ _ opening =>
            split at rehearsal
            next kept =>
              have run := run.reopened opening (.inl rfl) (kept.trans (List.append_nil _).symm)
              rw [List.append_nil] at run
              exact ih run rehearsal
            next => cases rehearsal
          next => cases rehearsal

def reopens (d : Disk FileName) : Bool :=
  (execute (Store.open .default (List.replicate 16 9)) d).1.toBool

theorem opens_of_reopens (opens : reopens d = true) :
    ∃ t d', execute (Store.open .default (List.replicate 16 9)) d = (.ok t, d') := by
  unfold reopens at opens
  cases reopening : execute (Store.open .default (List.replicate 16 9)) d with
  | mk result e =>
      rw [reopening] at opens
      cases result with
      | ok t => exact ⟨t, e, rfl⟩
      | error failure => cases opens

def leavesEntries (steps : List (Option StoreCall)) (entries : Journal × Journal)
    (check : Disk FileName → Bool) : Bool :=
  match execute (Store.open .default (List.replicate 16 7)) Disk.empty with
  | (.ok s, d) =>
      match rehearseCalls .default (List.replicate 16 8) steps
          (([], [(s.lastSequence, headerEntry (List.replicate 16 7))]), s, d) with
      | some (left, _, d) => left = entries && check d
      | none => false
  | (.error _, _) => false

theorem exists_interleaving {steps : List (Option StoreCall)} {check : Disk FileName → Bool}
    (leaves : leavesEntries steps (past, j) check = true) :
    ∃ s d, Interleaving .default past j s d ∧ check d = true := by
  unfold leavesEntries at leaves
  split at leaves
  next s d opening =>
    split at leaves
    next left s' d' rehearsal =>
      rw [Bool.and_eq_true, decide_eq_true_eq] at leaves
      obtain ⟨rfl, checked⟩ := leaves
      exact ⟨s', d', (Interleaving.created opening).rehearsed rehearsal, checked⟩
    next => cases leaves
  next => cases leaves

set_option maxRecDepth 4000 in
/-- The commit of an attempt that is in flight when a snapshot is written is lost. -/
theorem acknowledged_commit_lost : ¬∀ options past j front rest s d attempt type payload
    appliedDigest sequence boot, Interleaving options past j s d →
      j = front ++ (sequence, .commit attempt appliedDigest) :: rest →
      (attempt, .stage type payload) ∈ past ++ front →
      (∀ x ∈ past ++ front, x.2.takes ≠ some attempt) →
        ∃ t d', execute (Store.open options boot) d = (.ok t, d') ∧
          ⟨type, sequence, payload⟩ ∈ t.replayed := by
  intro durable
  have leaves : leavesEntries
      [some (.stage .publishClass [1]), some (.writeSnapshot []), some (.commit 2 .zero)]
      ([(1, headerEntry (List.replicate 16 7)), (2, .stage .publishClass [1])],
        [(3, .commit 2 .zero)]) (fun _ => true) = true := by decide +kernel
  obtain ⟨s, d, run, -⟩ := exists_interleaving leaves
  have untaken : ∀ x ∈ [((1 : Sequence), headerEntry (List.replicate 16 7)),
      (2, .stage .publishClass [1])] ++ [], x.2.takes ≠ some 2 := by
    rintro x (_ | ⟨_, _ | ⟨_, ⟨⟩⟩⟩) <;> exact nofun
  have split : [((3 : Sequence), Entry.commit 2 .zero)] =
      ([] : Journal) ++ (3, .commit 2 .zero) :: [] := rfl
  obtain ⟨t, d', opening, mem⟩ := durable .default _ _ [] [] s d 2 .publishClass [1] .zero 3 [] run split
    (.tail _ (.head _)) untaken
  cases (run.trailing.committed_replayed split opening).mp mem

set_option maxRecDepth 4000 in
/-- Of two attempts that are committed after a reopening, the one staged behind the snapshot is
replayed. -/
theorem committed_replayed_iff_reopened : ∃ past front s d,
    Interleaving .default past (front ++ [(5, .commit 3 .zero)]) s d ∧
      (4, .commit 2 .zero) ∈ front ∧ (2, .stage .publishClass [1]) ∈ past ∧
      ∀ boot, ∃ t d', execute (Store.open .default boot) d = (.ok t, d') ∧
        ⟨.publishClass, 5, [2]⟩ ∈ t.replayed := by
  have leaves : leavesEntries
      [some (.stage .publishClass [1]), some (.writeSnapshot []), some (.stage .publishClass [2]), none,
        some (.commit 2 .zero), some (.commit 3 .zero)]
      ([(1, headerEntry (List.replicate 16 7)), (2, .stage .publishClass [1])],
        [(3, .stage .publishClass [2]), (4, .commit 2 .zero)] ++ [(5, .commit 3 .zero)]) reopens =
          true := by
    decide +kernel
  obtain ⟨s, d, run, opens⟩ := exists_interleaving leaves
  obtain ⟨events, stored⟩ := run.run
  refine ⟨_, _, s, d, run, .tail _ (.head _), .tail _ (.head _), fun boot => ?_⟩
  exact ((committed_replayed_iff run rfl (.tail _ (.tail _ (.head _)))).1 boot).mpr
    ⟨rfl, (stored.opens_iff _).mp (opens_of_reopens opens)⟩

end QoSFabric
