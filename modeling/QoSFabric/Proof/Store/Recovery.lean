import QoSFabric.Proof.Store.Journal
import QoSFabric.Proof.Store.Open

namespace QoSFabric

open Framing (Format)

namespace Journal

def stagedRecord (p : AttemptId × RecordType × Bytes) : AttemptId × LogRecord :=
  (p.1, ⟨p.2.1, 0, p.2.2⟩)

structure Absorbed (j : Journal) (bound : Sequence) (r : Replay) : Prop where
  replayed : r.replayed = j.history
  staged : r.staged = j.pending.map stagedRecord
  later : ∀ x ∈ j, x.1 ≤ r.lastSequence
  bound : bound ≤ r.lastSequence

variable {j : Journal} {sequence snapshotSequence bound : Sequence} {e : Entry} {r : Replay}

theorem Lawful.nodup (lawful : Lawful j) : (j.map Prod.fst).Nodup := by
  induction lawful with
  | nil => exact List.nodup_nil
  | @snoc j sequence e _ later _ ih =>
      rw [List.map_append]
      apply List.nodup_append.mpr
      refine ⟨ih, List.nodup_singleton _, ?_⟩
      intro a inside b last
      rw [List.mem_map] at inside
      obtain ⟨x, mem, rfl⟩ := inside
      rw [List.map_singleton, List.mem_singleton] at last
      rw [last]
      exact UInt64.ne_of_lt (later x mem)

theorem pending_keys (j : Journal) : (j.pending.map Prod.fst).Sublist (j.map Prod.fst) := by
  rw [pending]
  generalize j.resolved = closed
  induction j with
  | nil => exact List.Sublist.refl _
  | cons x j ih =>
      rw [List.map_cons]
      by_cases resolved : closed x.1 = true
      · rw [List.filterMap_cons_none (by rw [if_pos resolved])]
        exact ih.cons _
      · cases staged : x.2.staged with
        | none =>
            rw [List.filterMap_cons_none (by rw [if_neg resolved, staged]; rfl)]
            exact ih.cons _
        | some value =>
            rw [List.filterMap_cons_some (b := (x.1, value))
              (by rw [if_neg resolved, staged]; rfl)]
            exact ih.cons_cons _

theorem Lawful.pending_nodup (lawful : Lawful j) : (j.pending.map Prod.fst).Nodup :=
  lawful.nodup.sublist j.pending_keys

section Find

variable {pending : List (AttemptId × RecordType × Bytes)} {attempt : AttemptId}

theorem find_staged {staged : RecordType × Bytes} (nodup : (pending.map Prod.fst).Nodup)
    (mem : (attempt, staged) ∈ pending) :
    (pending.map stagedRecord).find? (·.1 == attempt) = some (stagedRecord (attempt, staged)) := by
  induction pending with
  | nil => cases mem
  | cons p pending ih =>
      rw [List.map_cons] at nodup
      cases mem with
      | head => exact List.find?_cons_of_pos (beq_self_eq_true _)
      | tail _ mem =>
          have ne : p.1 ≠ attempt := fun eq =>
            (List.nodup_cons.mp nodup).1 (List.mem_map.mpr ⟨_, mem, eq.symm⟩)
          rw [List.map_cons, List.find?_cons_of_neg (by simpa [stagedRecord] using ne)]
          exact ih (List.nodup_cons.mp nodup).2 mem

theorem erase_staged (nodup : (pending.map Prod.fst).Nodup) :
    (pending.map stagedRecord).eraseP (·.1 == attempt) =
      (pending.filter fun p => some attempt != some p.1).map stagedRecord := by
  induction pending with
  | nil => rfl
  | cons p pending ih =>
      rw [List.map_cons] at nodup
      obtain ⟨fresh, nodup⟩ := List.nodup_cons.mp nodup
      by_cases eq : p.1 = attempt
      · have rest : (pending.filter fun p => some attempt != some p.1) = pending := by
          apply List.filter_eq_self.mpr
          intro q mem
          have ne : attempt ≠ q.1 := fun same =>
            fresh (eq ▸ same ▸ List.mem_map_of_mem mem)
          simpa using ne
        rw [List.map_cons, List.eraseP_cons_of_pos (by simpa [stagedRecord] using eq),
          List.filter_cons_of_neg (by simpa using eq.symm), rest]
      · rw [List.map_cons, List.eraseP_cons_of_neg (by simpa [stagedRecord] using eq), ih nodup,
          List.filter_cons_of_pos (by simpa using Ne.symm eq), List.map_cons]

end Find

theorem applyFrame_later {f : Frame} (later : snapshotSequence < f.sequence) :
    applyFrame snapshotSequence r f =
      applyBody ({ r with sawCleanShutdown := false }.noteSequence f.sequence) f := by
  rw [applyFrame]
  exact if_neg (UInt64.not_le.mpr later)

theorem noteSequence_le (r : Replay) (sequence : Sequence) :
    sequence ≤ (r.noteSequence sequence).lastSequence ∧
      r.lastSequence ≤ (r.noteSequence sequence).lastSequence := by
  rw [Replay.noteSequence]
  dsimp only
  split
  · next later => exact ⟨UInt64.le_refl _, UInt64.le_of_lt later⟩
  · next earlier => exact ⟨UInt64.not_lt.mp earlier, UInt64.le_refl _⟩

theorem applyBody_entry (lawful : Lawful j) (later : ∀ x ∈ j, x.1 < sequence)
    (allowed : Allowed j e) (replayed : r.replayed = j.history)
    (staged : r.staged = j.pending.map stagedRecord) :
    ∃ r', applyBody r (e.frame sequence) = (r', true) ∧
      r'.replayed = history (j ++ [(sequence, e)]) ∧
      r'.staged = (pending (j ++ [(sequence, e)])).map stagedRecord ∧
      r'.lastSequence = r.lastSequence := by
  have history := lawful.history_snoc sequence e
  have pending := @pending_snoc j sequence e (lawful.not_resolved later)
  have unresolved (h : e.resolves = none) :
      (j.pending.filter fun p => e.resolves != some p.1) = j.pending := by
    apply List.filter_eq_self.mpr
    intro p _
    rw [h]
    rfl
  cases e with
  | append type payload =>
      have record : record (j ++ [(sequence, .append type payload)])
          (sequence, .append type payload) =
            if type.silent then none else some ⟨type, sequence, payload⟩ := rfl
      have none : (Entry.append type payload).staged = none := rfl
      rw [unresolved rfl, none, Option.map_none, Option.toList_none, List.append_nil] at pending
      rw [record] at history
      rw [history, pending, ← replayed, ← staged]
      cases type with
      | unknown => exact False.elim allowed
      | mutationIntent => exact False.elim allowed
      | mutationCommit => exact False.elim allowed
      | mutationAbort => exact False.elim allowed
      | epochAdvance =>
          have long : ¬payload.length < 8 := Nat.not_lt.mpr allowed
          refine ⟨(r.advance (UInt64.ofNat (LittleEndian.decode (payload.take 8)))).append
            .epochAdvance sequence payload, ?_, rfl, rfl, rfl⟩
          exact if_neg long
      | storeHeader =>
          have long : ¬payload.length < 32 := Nat.not_lt.mpr allowed
          refine ⟨r, ?_, ?_, rfl, rfl⟩
          · simp [applyBody, Entry.frame, long]
          · exact (List.append_nil _).symm
      | cleanShutdown => exact ⟨_, rfl, (List.append_nil _).symm, rfl, rfl⟩
      | _ => exact ⟨_, rfl, rfl, rfl, rfl⟩
  | stage type payload =>
      rw [unresolved rfl] at pending
      rw [history, pending, ← replayed, List.map_append, ← staged]
      refine ⟨r.stage sequence type payload, ?_, (List.append_nil _).symm, rfl, rfl⟩
      simp [applyBody, Entry.frame, readIntent_intentBody type sequence allowed]
  | commit attempt appliedDigest =>
      have applied : applyBody r ((Entry.commit attempt appliedDigest).frame sequence) =
          (r.commit attempt sequence, true) := by
        simp only [applyBody, Entry.frame, commitBody, readAttempt_encode]
      have none : (Entry.commit attempt appliedDigest).staged = none := rfl
      rw [none, Option.map_none, Option.toList_none, List.append_nil] at pending
      rw [applied, history, pending, ← replayed, Replay.commit, staged]
      obtain ⟨value, mem⟩ := allowed
      obtain ⟨-, entry, inside, eq⟩ := mem_pending.mp mem
      have under := @stagedUnder_append j [(sequence, Entry.commit attempt appliedDigest)] _ _
        (lawful.stagedUnder_of_mem inside eq)
      refine ⟨_, rfl, ?_, ?_, ?_⟩ <;> rw [find_staged lawful.pending_nodup mem]
      · rw [record, under]
        rfl
      · exact erase_staged lawful.pending_nodup
  | abort attempt reason =>
      have applied : applyBody r ((Entry.abort attempt reason).frame sequence) =
          (r.abort attempt, true) := by
        simp only [applyBody, Entry.frame, abortBody, readAttempt_encode]
      have silent : record (j ++ [(sequence, .abort attempt reason)])
          (sequence, .abort attempt reason) = none := rfl
      rw [silent, Option.toList_none, List.append_nil] at history
      have none : (Entry.abort attempt reason).staged = none := rfl
      rw [none, Option.map_none, Option.toList_none, List.append_nil] at pending
      rw [applied, history, pending, ← replayed, Replay.abort, staged]
      obtain ⟨value, mem⟩ := allowed
      refine ⟨_, rfl, ?_, ?_, ?_⟩ <;> rw [find_staged lawful.pending_nodup mem]
      exact erase_staged lawful.pending_nodup

theorem visitAll_covered {covered : List Frame} (clean : r.sawCleanShutdown = false)
    (before : ∀ f ∈ covered, f.sequence ≤ snapshotSequence) :
    Format.visitAll (applyFrame snapshotSequence) r covered = some r := by
  have same : { r with sawCleanShutdown := false } = r := by
    rw [← clean]
  induction covered with
  | nil => rfl
  | cons f covered ih =>
      simp only [Format.visitAll, applyFrame, if_pos (before f List.mem_cons_self), same]
      exact ih fun g mem => before g (List.mem_cons_of_mem _ mem)

theorem Lawful.absorbed (bound : Sequence) (lawful : Lawful j)
    (after : ∀ x ∈ j, snapshotSequence < x.1) (durableEpoch : FabricEpoch) :
    ∃ r, Format.visitAll (applyFrame snapshotSequence) (.start bound durableEpoch) j.frames =
      some r ∧ Absorbed j bound r := by
  induction lawful with
  | nil => exact ⟨_, rfl, rfl, rfl, by simp, UInt64.le_refl _⟩
  | @snoc j sequence e lawful later allowed ih =>
      rw [List.forall_mem_append, List.forall_mem_singleton] at after
      obtain ⟨r, visited, absorbed⟩ := ih after.1
      have grown := noteSequence_le { r with sawCleanShutdown := false } sequence
      obtain ⟨r', applied, replayed, staged, last⟩ :=
        @applyBody_entry j sequence e ({ r with sawCleanShutdown := false }.noteSequence sequence)
          lawful later allowed absorbed.replayed absorbed.staged
      refine ⟨r', ?_, replayed, staged, ?_, ?_⟩
      · rw [frames_append, Format.visitAll_append, visited]
        simp only [Option.bind_some, frames, List.map_cons, List.map_nil, Format.visitAll]
        rw [applyFrame_later (by rw [Entry.frame_sequence]; exact after.2), Entry.frame_sequence,
          applied]
      · intro x mem
        rw [last]
        rw [List.mem_append, List.mem_singleton] at mem
        cases mem with
        | inl mem => exact UInt64.le_trans (absorbed.later x mem) grown.2
        | inr mem =>
            cases mem
            exact grown.1
      · rw [last]
        exact UInt64.le_trans absorbed.bound grown.2

end Journal

theorem Store.replayOf_log {s : Store} {covered : List Frame} {j : Journal} {torn : Bytes}
    (fits : ∀ f ∈ covered ++ j.frames, f.Fits s.options.maxRecordBytes)
    (before : ∀ f ∈ covered, f.sequence ≤ s.snapshotSequence)
    (after : ∀ x ∈ j, s.snapshotSequence < x.1) (lawful : j.Lawful)
    (cut : (walFormat s.options.maxRecordBytes).Unframed torn) :
    ∃ r, Journal.Absorbed j s.lastSequence r ∧
      s.replayOf ((walFormat s.options.maxRecordBytes).log (covered ++ j.frames) ++ torn) =
        (r, (walFormat s.options.maxRecordBytes).tornStop torn) := by
  obtain ⟨r, visited, absorbed⟩ := lawful.absorbed s.lastSequence after s.durableEpoch
  have visitedAll : Format.visitAll (applyFrame s.snapshotSequence)
      (.start s.lastSequence s.durableEpoch) (covered ++ j.frames) = some r := by
    rw [Format.visitAll_append, Journal.visitAll_covered rfl before]
    exact visited
  have enough := (walFormat s.options.maxRecordBytes).length_le_log (covered ++ j.frames)
  refine ⟨r, absorbed, ?_⟩
  rw [replayOf, replayLoop, List.length_append]
  obtain ⟨spare, eq⟩ := Nat.exists_eq_add_of_le enough
  rw [eq, Nat.add_assoc]
  refine Eq.trans ((walFormat s.options.maxRecordBytes).scan_log _ fits visitedAll) ?_
  exact (walFormat s.options.maxRecordBytes).scan_torn _ cut (Nat.le_add_left _ _)

end QoSFabric
