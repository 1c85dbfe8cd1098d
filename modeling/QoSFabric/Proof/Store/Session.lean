import QoSFabric.Proof.Store.Compaction
import QoSFabric.Proof.Store.Recovery

namespace QoSFabric

open FileSystem Interaction

structure Holding (budget : Nat) (m : Manifest) (snapshot : Option Bytes) (covered : List Frame)
    (payload : Bytes) (j : Journal) : Prop where
  held : snapshot.getD [] = payload
  fits : ∀ f ∈ covered ++ j.frames, f.Fits budget
  before : ∀ f ∈ covered, f.sequence ≤ m.snapshotSequence
  after : ∀ x ∈ j, m.snapshotSequence < x.1
  lawful : j.Lawful
  recorded : m.snapshotSequence ≤ m.lastSequence

def Rests (budget : Nat) (d : Disk FileName) (payload : Bytes) (j : Journal) : Prop :=
  ∃ m snapshot covered torn,
    Shows d m snapshot ((walFormat budget).log (covered ++ j.frames) ++ torn) ∧
      (walFormat budget).Torn torn ∧ Holding budget m snapshot covered payload j

def Running (s : Store) (d : Disk FileName) (payload : Bytes) (j : Journal) : Prop :=
  ∃ m snapshot covered,
    Live s d m snapshot ((walFormat s.options.maxRecordBytes).log (covered ++ j.frames)) ∧
      Holding s.options.maxRecordBytes m snapshot covered payload j ∧
      ∀ x ∈ j, x.1 ≤ s.lastSequence

variable {s s' : Store} {d d' : Disk FileName} {payload : Bytes} {j : Journal}
  {sequence : Sequence} {e : Entry}

theorem Holding.snoc {budget : Nat} {m : Manifest} {snapshot : Option Bytes} {covered : List Frame}
    (holding : Holding budget m snapshot covered payload j) (fit : (e.frame sequence).Fits budget)
    (later : ∀ x ∈ j, x.1 < sequence) (beyond : m.snapshotSequence < sequence)
    (allowed : j.Allowed e) :
    Holding budget m snapshot covered payload (j ++ [(sequence, e)]) where
  held := holding.held
  fits := by
    intro f mem
    rw [Journal.frames_append, ← List.append_assoc, List.mem_append] at mem
    cases mem with
    | inl mem => exact holding.fits f mem
    | inr mem =>
        rw [Journal.frames, List.map_singleton, List.mem_singleton] at mem
        rw [mem]
        exact fit
  before := holding.before
  after := by
    intro x mem
    rw [List.mem_append, List.mem_singleton] at mem
    cases mem with
    | inl mem => exact holding.after x mem
    | inr mem =>
        rw [mem]
        exact beyond
  lawful := .snoc holding.lawful later allowed
  recorded := holding.recorded

namespace Running

theorem small (running : Running s d payload j) :
    s.options.maxRecordBytes ≤ Limits.maxWalRecordBytes := by
  obtain ⟨m, snapshot, covered, live, -, -⟩ := running
  exact live.small

theorem rests (running : Running s d payload j) :
    Rests s.options.maxRecordBytes d payload j := by
  obtain ⟨m, snapshot, covered, live, holding, -⟩ := running
  refine ⟨m, snapshot, covered, [], ?_, .inl rfl, holding⟩
  rw [List.append_nil]
  exact live.shows

theorem wrote (running : Running s d payload j) (allowed : j.Allowed e)
    (h : Store.Wrote s s' d d' (e.frame sequence)) :
    Running s' d' payload (j ++ [(sequence, e)]) := by
  obtain ⟨m, snapshot, covered, live, holding, known⟩ := running
  have members := h.members
  have options : s'.options = s.options := by rw [members]
  have last : s'.lastSequence = sequence := by
    rw [members]
    exact e.frame_sequence sequence
  have next : sequence.toNat = s.lastSequence.toNat + 1 := by
    rw [← h.planned.sequence, Entry.frame_sequence]
  have later (v : Sequence) (le : v ≤ s.lastSequence) : v < sequence := by
    rw [UInt64.le_iff_toNat_le] at le
    rw [UInt64.lt_iff_toNat_lt]
    omega
  have grown := live.wrote h
  refine ⟨m, snapshot, covered, ?_, ?_, ?_⟩
  · rw [options, Journal.frames_append, ← List.append_assoc, Framing.Format.log_append]
    rw [show Journal.frames [(sequence, e)] = [e.frame sequence] from rfl,
      Framing.Format.log_cons, Framing.Format.log_nil, List.append_nil]
    exact grown
  · rw [options]
    refine holding.snoc h.planned.fits (fun x mem => later _ (known x mem)) (later _ ?_) allowed
    exact UInt64.le_trans holding.recorded live.recorded
  · intro x mem
    rw [last]
    rw [List.mem_append, List.mem_singleton] at mem
    cases mem with
    | inl mem => exact UInt64.le_of_lt (later _ (known x mem))
    | inr mem =>
        rw [mem]
        exact UInt64.le_refl _

theorem cut (running : Running s d payload j) (allowed : j.Allowed e)
    (h : Store.Wrote s s' d d' (e.frame sequence)) {handle : Handle}
    (opened : s.walHandle = some handle) (n : Nat) :
    Rests s.options.maxRecordBytes (d.write handle ((encodeFrame (e.frame sequence)).take n))
        payload j ∨
      Rests s.options.maxRecordBytes (d.write handle ((encodeFrame (e.frame sequence)).take n))
        payload (j ++ [(sequence, e)]) := by
  by_cases whole : (encodeFrame (e.frame sequence)).take n = encodeFrame (e.frame sequence)
  · obtain ⟨i, eq, written⟩ := h.handle
    obtain rfl : handle = i := Option.some.inj (opened.symm.trans eq)
    have options : s'.options = s.options := by rw [h.members]
    have rests := (running.wrote allowed h).rests
    rw [options, written] at rests
    rw [whole]
    exact .inr rests
  · obtain ⟨m, snapshot, covered, live, holding, -⟩ := running
    obtain ⟨-, shows⟩ := live.shows_write opened ((encodeFrame (e.frame sequence)).take n)
    exact .inl ⟨m, snapshot, covered, _, shows,
      .inr ⟨_, h.planned.fits, List.take_prefix _ _, whole⟩, holding⟩

end Running

section Append

variable {crash : Disk FileName → Prop} {type : RecordType} {flags : UInt8} {attempt : AttemptId}
  {body : Bytes}

theorem Store.wp_appendFrame {post : Result Sequence × Store → Disk FileName → Prop}
    (small : s.options.maxRecordBytes ≤ Limits.maxWalRecordBytes) (idle : crash d)
    (failed : ∀ failure, post (.error failure, s) d)
    (appended : ∀ next s' handle, s.walHandle = some handle →
      Wrote s s' d (d.write handle (encodeFrame ⟨type, flags, next, attempt, body⟩))
        ⟨type, flags, next, attempt, body⟩ →
      (∀ n, crash (d.write handle ((encodeFrame ⟨type, flags, next, attempt, body⟩).take n))) ∧
        post (.ok next, s') (d.write handle (encodeFrame ⟨type, flags, next, attempt, body⟩))) :
    (s.appendFrame type flags attempt body).wp Disk.world crash post d := by
  unfold appendFrame
  split
  case h_2 => exact ⟨idle, failed _⟩
  case h_1 handle writable opened =>
    cases plan : s.planFrame type flags attempt body with
    | error failure => exact ⟨idle, failed _⟩
    | ok planned =>
        obtain ⟨next, bytes, size⟩ := planned
        obtain ⟨planned, rfl⟩ := (planFrame_eq_ok small).mp plan
        obtain ⟨safe, done⟩ := appended next { s with walBytes := size, lastSequence := next } handle
          opened ⟨planned, writable, ⟨handle, opened, rfl⟩, rfl⟩
        have whole := safe (encodeFrame ⟨type, flags, next, attempt, body⟩).length
        rw [List.take_length] at whole
        dsimp only
        rw [Disk.wp_write]
        refine ⟨idle, safe, ?_⟩
        rw [Bool.not_true, if_neg Bool.false_ne_true, Disk.wp_sync]
        exact ⟨whole, whole, done⟩

theorem Store.wp_counted {α : Type} {a : α} {count : Store → UInt32}
    {post : Result α × Store → Disk FileName → Prop}
    (small : s.options.maxRecordBytes ≤ Limits.maxWalRecordBytes) (idle : crash d)
    (failed : ∀ failure, post (.error failure, s) d)
    (appended : ∀ next s' handle, s.walHandle = some handle →
      Wrote s s' d (d.write handle (encodeFrame ⟨type, flags, next, attempt, body⟩))
        ⟨type, flags, next, attempt, body⟩ →
      (∀ n, crash (d.write handle ((encodeFrame ⟨type, flags, next, attempt, body⟩).take n))) ∧
        post (.ok a, s') (d.write handle (encodeFrame ⟨type, flags, next, attempt, body⟩))) :
    (do match ← s.appendFrame type flags attempt body with
        | (.error e, s) => pure (.error e, s)
        | (.ok _, s) => pure (.ok a, { s with stagedCount := count s }) :
      Files (Result α × Store)).wp Disk.world crash post d := by
  rw [Program.wp_bind]
  apply wp_appendFrame small idle
  · intro failure
    exact ⟨idle, failed failure⟩
  · intro next s' handle opened wrote
    obtain ⟨safe, done⟩ := appended next _ handle opened (wrote.count (count s'))
    have whole := safe (encodeFrame ⟨type, flags, next, attempt, body⟩).length
    rw [List.take_length] at whole
    exact ⟨safe, whole, done⟩

end Append

section Entries

variable {crash : Disk FileName → Prop} {type : RecordType} {attempt : AttemptId} {body : Bytes}

/-- What an operation that journals an entry has to meet: it may fail and change nothing, and
wherever it is cut the directory holds the journal without the entry or with it. -/
structure Journals {α : Type} (s : Store) (d : Disk FileName) (payload : Bytes) (j : Journal)
    (entry : α → Entry) (sequence : α → Sequence → Prop) (crash : Disk FileName → Prop)
    (post : Result α × Store → Disk FileName → Prop) : Prop where
  kept : ∀ d', Rests s.options.maxRecordBytes d' payload j → crash d'
  grown : ∀ d' next a, sequence a next → next.toNat = s.lastSequence.toNat + 1 →
    Rests s.options.maxRecordBytes d' payload (j ++ [(next, entry a)]) → crash d'
  failed : ∀ failure, post (.error failure, s) d
  done : ∀ d' s' next a, sequence a next → Store.Wrote s s' d d' ((entry a).frame next) →
    Running s' d' payload (j ++ [(next, entry a)]) → post (.ok a, s') d'

theorem Journals.appended {α : Type} {entry : α → Entry} {taken : α → Sequence → Prop}
    {post : Result α × Store → Disk FileName → Prop} (running : Running s d payload j)
    (journals : Journals s d payload j entry taken crash post) {a : α} {next : Sequence}
    (allowed : j.Allowed (entry a)) (names : taken a next) {handle : Handle}
    (opened : s.walHandle = some handle)
    (wrote : Store.Wrote s s' d (d.write handle (encodeFrame ((entry a).frame next)))
      ((entry a).frame next)) :
    (∀ n, crash (d.write handle ((encodeFrame ((entry a).frame next)).take n))) ∧
      post (.ok a, s') (d.write handle (encodeFrame ((entry a).frame next))) := by
  have first : next.toNat = s.lastSequence.toNat + 1 := by
    rw [← wrote.planned.sequence, Entry.frame_sequence]
  refine ⟨fun n => ?_, journals.done _ _ next a names wrote (running.wrote allowed wrote)⟩
  cases running.cut allowed wrote opened n with
  | inl lost => exact journals.kept _ lost
  | inr there => exact journals.grown _ next a names first there

theorem Running.wp_append {post : Result Sequence × Store → Disk FileName → Prop}
    (running : Running s d payload j) (wellFormed : type.WellFormed body)
    (journals : Journals s d payload j (fun _ => .append type body) (· = ·) crash post) :
    (s.append type body).wp Disk.world crash post d := by
  apply Store.wp_appendFrame running.small (journals.kept d running.rests) journals.failed
  intro next s' handle opened wrote
  have allowed : j.Allowed (.append type body) := wellFormed
  exact Journals.appended running journals allowed rfl opened wrote

theorem Running.wp_stage {post : Result AttemptId × Store → Disk FileName → Prop}
    (running : Running s d payload j)
    (journals : Journals s d payload j (fun _ => .stage type body) (· = ·) crash post) :
    (s.stage type body).wp Disk.world crash post d := by
  have idle := journals.kept d running.rests
  unfold Store.stage
  split
  · exact ⟨idle, journals.failed _⟩
  dsimp only
  rw [data_writeIntent]
  split
  · next h_1 => exact ⟨idle, journals.failed _⟩
  next written fit =>
  split at fit
  case isFalse => cases fit
  next within =>
  cases fit
  have short : body.length < 2 ^ 32 := by
    have := running.small
    simp only [Limits.maxWalRecordBytes] at this
    omega
  apply Store.wp_counted running.small idle journals.failed
  intro next s' handle opened wrote
  have taken : s.lastSequence + 1 = next := by
    have increment := Store.tryIncrement_eq_some.mpr wrote.planned.sequence
    unfold Store.tryIncrement at increment
    split at increment
    · cases increment
    · exact Option.some.inj increment
  subst taken
  exact Journals.appended running journals short rfl opened wrote

theorem Running.wp_commit {appliedDigest : Digest256}
    {post : Result Unit × Store → Disk FileName → Prop} (running : Running s d payload j)
    (pending : ∃ staged, (attempt, staged) ∈ j.pending)
    (journals : Journals s d payload j (fun _ => .commit attempt appliedDigest)
      (fun _ _ => True) crash post) :
    (s.commit attempt appliedDigest).wp Disk.world crash post d := by
  unfold Store.commit
  rw [data_writeCommit]
  apply Store.wp_counted running.small (journals.kept d running.rests) journals.failed
  intro next s' handle opened wrote
  have allowed : j.Allowed (.commit attempt appliedDigest) := pending
  exact Journals.appended running journals (a := ()) allowed trivial opened wrote

end Entries

/-- What a compaction leaves wherever it is cut: the manifest references the old snapshot, with the
journal behind it, or the new one, which covers the journal. -/
inductive Snapshotting (budget : Nat) (payload payload' : Bytes) (j : Journal)
    (e : Disk FileName) : Prop where
  | kept {m : Manifest} {held : Option Bytes} {log : Bytes} (shows : Shows e m held log)
      (old : held.getD [] = payload) (behind : ∀ x ∈ j, m.snapshotSequence < x.1)
      (rests : Rests budget e payload j)
  | replaced {m : Manifest} {log : Bytes} (shows : Shows e m (some payload') log)
      (covers : ∀ x ∈ j, x.1 ≤ m.snapshotSequence) (rests : Rests budget e payload' [])

theorem Running.wp_snapshotting {crash : Disk FileName → Prop} {payload' : Bytes}
    {post : Result Unit × Store → Disk FileName → Prop} (running : Running s d payload j)
    (safe : ∀ e, Snapshotting s.options.maxRecordBytes payload payload' j e → crash e)
    (failed : payload'.length > Limits.maxSnapshotBytes → ∀ failure, post (.error failure, s) d)
    (done : ∀ handle d',
      Running { s.compacted with walHandle := some handle, walBytes := 0 } d' payload' [] →
      post (.ok (), { s.compacted with walHandle := some handle, walBytes := 0 }) d') :
    (s.writeSnapshot payload').wp Disk.world crash post d := by
  by_cases small : payload'.length ≤ Limits.maxSnapshotBytes
  case neg =>
    have large := Nat.lt_of_not_le small
    unfold Store.writeSnapshot
    rw [if_pos large]
    have rests := running.rests
    obtain ⟨m, snapshot, covered, live, holding, -⟩ := running
    exact ⟨safe d (.kept live.shows holding.held holding.after rests), failed large _⟩
  obtain ⟨m, snapshot, covered, live, holding, known⟩ := running
  have sequences : m.snapshotSequence ≤ s.lastSequence :=
    UInt64.le_trans holding.recorded live.recorded
  have retired (e : Disk FileName) (log : List Frame)
      (fits : ∀ f ∈ log, f.Fits s.options.maxRecordBytes)
      (before : ∀ f ∈ log, f.sequence ≤ s.lastSequence)
      (shows : Shows e s.compacted.manifest (some payload')
        ((walFormat s.options.maxRecordBytes).log log)) :
      Rests s.options.maxRecordBytes e payload' [] := by
    refine ⟨s.compacted.manifest, some payload', log, [], ?_, .inl rfl, rfl, ?_, before, by simp,
      .nil, UInt64.le_refl _⟩
    · rw [Journal.frames_nil, List.append_nil, List.append_nil]
      exact shows
    · rw [Journal.frames_nil, List.append_nil]
      exact fits
  have before : ∀ f ∈ covered ++ j.frames, f.sequence ≤ s.lastSequence := by
    intro f mem
    rw [List.mem_append] at mem
    cases mem with
    | inl mem => exact UInt64.le_trans (holding.before f mem) sequences
    | inr mem =>
        obtain ⟨x, inside, rfl⟩ := List.mem_map.mp mem
        rw [Entry.frame_sequence]
        exact known x inside
  apply QoSFabric.wp_writeSnapshot live small
  · constructor
    · intro e shows
      refine safe e (.kept shows holding.held holding.after ⟨m, snapshot, covered, [], ?_, .inl rfl,
        holding⟩)
      rw [List.append_nil]
      exact shows
    · intro referenced e shows
      have same : m.snapshotSequence = s.lastSequence := by
        cases snap : snapshot with
        | none =>
            rw [live.shows.unnamed snap] at referenced
            exact absurd referenced.symm (Store.snapshotFileName_ne_nil _)
        | some old =>
            obtain ⟨name, -, -⟩ := live.shows.named old snap
            exact snapshotFileName_injective (name.symm.trans referenced)
      refine safe e (.replaced shows (fun x mem => same ▸ known x mem) ⟨m, some payload',
        covered ++ j.frames, [], ?_, .inl rfl, rfl, ?_, ?_, by simp, .nil, holding.recorded⟩)
      · rw [Journal.frames_nil, List.append_nil, List.append_nil]
        exact shows
      · rw [Journal.frames_nil, List.append_nil]
        exact holding.fits
      · rw [same]
        exact before
    · intro e shows
      exact safe e (.replaced shows known (retired e _ holding.fits before shows))
    · intro e shows
      exact safe e (.replaced shows known (retired e [] (by simp) (by simp) shows))
  · intro handle e live'
    exact done handle e ⟨_, _, [], live', ⟨rfl, by simp, by simp, by simp, .nil,
      UInt64.le_refl _⟩, by simp⟩

theorem Running.wp_writeSnapshot {crash : Disk FileName → Prop} {payload' : Bytes}
    {post : Result Unit × Store → Disk FileName → Prop} (running : Running s d payload j)
    (kept : ∀ d', Rests s.options.maxRecordBytes d' payload j → crash d')
    (replaced : ∀ d', Rests s.options.maxRecordBytes d' payload' [] → crash d')
    (failed : payload'.length > Limits.maxSnapshotBytes → ∀ failure, post (.error failure, s) d)
    (done : ∀ handle d',
      Running { s.compacted with walHandle := some handle, walBytes := 0 } d' payload' [] →
      post (.ok (), { s.compacted with walHandle := some handle, walBytes := 0 }) d') :
    (s.writeSnapshot payload').wp Disk.world crash post d := by
  apply running.wp_snapshotting _ failed done
  intro e snapshotting
  cases snapshotting with
  | kept _ _ _ rests => exact kept e rests
  | replaced _ _ rests => exact replaced e rests

end QoSFabric
