import QoSFabric.Proof.Store.Orphans
import Mathlib.Data.List.Perm.Subperm

/-!
# Losing the manifest

Both ways to a manifest come to the snapshot a store has written last, replay the same records and
end with the same last sequence. Its identity and its epoch are rebuilt from the log alone.
-/

namespace QoSFabric

open FileSystem Interaction

open Framing (Format)

variable {options : StoreOptions} {past j : Journal} {s s' t u : Store} {d d' e : Disk FileName}
  {m : Manifest} {held : Option Bytes} {log boot payload : Bytes}

/-! ## The names of a directory -/

def StoreFile (name : FileName) : Prop :=
  name = manifestFileName ∨ name = walFileName ∨ name = tempName manifestFileName

abbrev SnapshotFree {α : Type} (p : Files α) : Prop := Program.Asks (Disk.Naming StoreFile) p

theorem snapshotFree_readEntry (entry path : FileName) (maxBytes : Nat) :
    SnapshotFree (readEntry entry path maxBytes) := by
  refine .bind (.perform trivial) fun bytes => ?_
  cases bytes with
  | none => exact .done _
  | some bytes => exact .ite (.done _) (.done _)

theorem snapshotFree_readFile (name : FileName) (maxBytes : Nat) :
    SnapshotFree (readFile name maxBytes) := snapshotFree_readEntry name name maxBytes

theorem snapshotFree_readPath (path : FileName) (maxBytes : Nat) :
    SnapshotFree (readPath path maxBytes) := by
  unfold readPath
  split
  · exact .done _
  · exact snapshotFree_readEntry _ path maxBytes

theorem snapshotFree_pathExists (path : FileName) : SnapshotFree (pathExists path) := by
  unfold pathExists
  split
  · exact .done _
  · exact .perform trivial

theorem snapshotFree_listDirectory : SnapshotFree listDirectory :=
  .bind (.perform trivial) fun _ => .ite (.done _) (.done _)

theorem snapshotFree_removeAll (names : List FileName) : SnapshotFree (removeAll names) := by
  induction names with
  | nil => exact .done _
  | cons name names ih =>
      rw [removeAll]
      exact .bind (.perform trivial) fun _ => ih

theorem snapshotFree_writeFileAtomic (bytes : Bytes) :
    SnapshotFree (writeFileAtomic manifestFileName bytes) := by
  refine .bind (.perform (.inr (.inr rfl))) fun handle => ?_
  cases handle with
  | none => exact .done _
  | some handle =>
      refine .ite (.bind (.done true) fun wrote => ?_) (.bind (.perform trivial) fun wrote => ?_)
      all_goals
        refine .ite (.bind (.perform trivial) fun _ => .done _) ?_
        refine .bind (.perform trivial) fun synced => ?_
        refine .ite (.bind (.perform trivial) fun _ => .done _) ?_
        exact .bind (.perform (.inl rfl)) fun replaced => .ite (.done _) (.done _)

theorem snapshotFree_writeManifest (s : Store) : SnapshotFree s.writeManifest := by
  unfold Store.writeManifest
  cases encodeManifest s.manifest with
  | none => exact .done _
  | some bytes =>
      refine .bind (snapshotFree_writeFileAtomic bytes) fun written => ?_
      cases written with
      | error e => exact .done _
      | ok => exact .bind (.perform trivial) fun synced => .ite (.done _) (.done _)

theorem snapshotFree_bestSnapshot (names : List FileName) (best : Option (UInt64 × FileName)) :
    SnapshotFree (Store.bestSnapshot names best) := by
  induction names generalizing best with
  | nil => exact .done _
  | cons name names ih =>
      unfold Store.bestSnapshot
      split
      · exact ih _
      · refine .bind (snapshotFree_readFile _ _) fun bytes => ?_
        repeat' split
        all_goals exact ih _

theorem snapshotFree_loadOrRebuild (s : Store) : SnapshotFree s.loadOrRebuild := by
  have load : SnapshotFree s.loadManifest := by
    refine .bind (.perform trivial) fun present => .ite (.done _) ?_
    refine .bind (snapshotFree_readFile _ _) fun raw => ?_
    split
    · exact .done _
    · split
      · exact .done _
      · refine .ite (.done _) (.bind (snapshotFree_pathExists _) fun found => ?_)
        exact .ite (.done _) (.done _)
  have rebuildLog (t : Store) : SnapshotFree t.rebuildFromLog := by
    refine .bind (.perform trivial) fun present => .ite ?_ (.done _)
    refine .bind (snapshotFree_readFile _ _) fun bytes => ?_
    split <;> exact .done _
  have rebuild : SnapshotFree s.rebuildManifest := by
    refine .bind snapshotFree_listDirectory fun entries => ?_
    split
    · exact .done _
    · refine .bind (snapshotFree_bestSnapshot _ _) fun best => ?_
      refine .bind (rebuildLog _) fun t => .bind (snapshotFree_writeManifest _) fun written => ?_
      split <;> exact .done _
  refine .bind load fun loaded => ?_
  split
  · exact .done _
  · refine .ite (.done _) (.bind rebuild fun rebuilt => ?_)
    split <;> exact .done _

theorem snapshotFree_loadSnapshot (s : Store) : SnapshotFree s.loadSnapshot := by
  unfold Store.loadSnapshot
  split
  · exact .done _
  · refine .bind (snapshotFree_readPath _ _) fun bytes => ?_
    split
    · exact .done _
    · split
      · exact .done _
      · exact .ite (.done _) (.done _)

theorem snapshotFree_replayLog (s : Store) : SnapshotFree s.replayLog := by
  refine .bind (.perform trivial) fun present => .ite (.done _) ?_
  refine .bind (snapshotFree_readFile _ _) fun bytes => ?_
  split
  · exact .done _
  · split
    · exact .done _
    · exact .done _
    · exact .bind (.perform trivial) fun _ => .done _

theorem snapshotFree_reopenWal (s : Store) : SnapshotFree s.reopenWal := by
  refine .bind (.perform (.inr (.inl rfl))) fun handle => ?_
  split <;> exact .done _

theorem snapshotFree_appendFrame (s : Store) (type : RecordType) (flags : UInt8) (attempt : AttemptId)
    (payload : Bytes) : SnapshotFree (s.appendFrame type flags attempt payload) := by
  unfold Store.appendFrame
  split
  · split
    · exact .done _
    · refine .bind (.perform trivial) fun wrote => .ite (.done _) ?_
      exact .bind (.perform trivial) fun synced => .ite (.done _) (.done _)
  · exact .done _

theorem snapshotFree_conclude (s : Store) (boot : Bytes) : SnapshotFree (s.conclude boot) := by
  have mint : SnapshotFree (s.mintIdentity boot) := by
    refine .ite (.done _) ?_
    refine .bind (snapshotFree_appendFrame _ _ _ _ _) fun appended => ?_
    split
    · exact .done _
    · refine .bind (snapshotFree_writeManifest _) fun published => ?_
      split <;> exact .done _
  refine .bind mint fun minted => ?_
  split <;> exact .done _

theorem snapshotFree_openLoaded (s : Store) (boot : Bytes) : SnapshotFree (s.openLoaded boot) := by
  refine .bind snapshotFree_listDirectory fun listed => .bind (snapshotFree_removeAll _) fun _ => ?_
  refine .bind (snapshotFree_loadSnapshot _) fun loaded => ?_
  split
  · exact .done _
  · refine .bind (snapshotFree_replayLog _) fun replayed => ?_
    split
    · exact .done _
    · refine .bind (snapshotFree_removeAll _) fun _ => ?_
      refine .bind (snapshotFree_reopenWal _) fun reopened => ?_
      split
      · exact .done _
      · exact snapshotFree_conclude _ _

theorem snapshotFree_open (options : StoreOptions) (boot : Bytes) :
    SnapshotFree (Store.open options boot) := by
  refine .ite (.done _) (.ite (.done _) ?_)
  refine .bind (snapshotFree_loadOrRebuild _) fun loaded => ?_
  split
  · exact .done _
  · exact snapshotFree_openLoaded _ _

theorem snapshotFree_call (s : Store) {call : StoreCall}
    (others : ∀ payload, call ≠ .writeSnapshot payload) :
    SnapshotFree (s.call call) := by
  have answers {α : Type} {answer : α → StoreAnswer} {operation : Files (Result α × Store)}
      (snapshotFree : SnapshotFree operation) : SnapshotFree (answered answer operation) :=
    .bind snapshotFree fun _ => .done _
  cases call with
  | append type payload => exact answers (snapshotFree_appendFrame _ _ _ _ _)
  | stage type payload =>
      refine answers (.ite (.done _) ?_)
      dsimp only
      split
      · exact .done _
      · refine .bind (snapshotFree_appendFrame _ _ _ _ _) fun appended => ?_
        split <;> exact .done _
  | commit attempt appliedDigest =>
      refine answers ?_
      unfold Store.commit
      split
      · exact .done _
      · refine .bind (snapshotFree_appendFrame _ _ _ _ _) fun appended => ?_
        split <;> exact .done _
  | abort attempt reason =>
      refine answers ?_
      unfold Store.abort
      split
      · exact .done _
      · refine .bind (snapshotFree_appendFrame _ _ _ _ _) fun appended => ?_
        split <;> exact .done _
  | writeSnapshot payload => exact absurd rfl (others payload)
  | adoptStoreIdentity storeId =>
      exact answers (.bind (snapshotFree_writeManifest _) fun _ => .done _)
  | close =>
      refine answers (.ite (.done _) ?_)
      split
      · exact .done _
      · refine .bind (snapshotFree_appendFrame _ _ _ _ _) fun appended => ?_
        split <;> exact .done _

theorem storeFile_run {α : Type} {p : Files α} {names : FileName → Prop}
    (snapshotFree : SnapshotFree p) (store : ∀ name, StoreFile name → names name)
    (named : ∀ name, d.file name ≠ none → names name) :
    ∀ name, (execute p d).2.file name ≠ none → names name :=
  snapshotFree.run (fun r naming d => Disk.named_answer r (Disk.Naming.mono store naming) d) named

def Filed (s : Store) (d : Disk FileName) : Prop :=
  ∀ name, d.file name ≠ none → StoreFile name ∨ s.snapshotPath = some name

theorem Replaced.named {name other : FileName} {bytes : Bytes} (replaced : Replaced d e name bytes)
    (present : e.file other ≠ none) : other = name ∨ d.file other ≠ none := by
  by_cases same : other = name
  · exact .inl same
  by_cases temp : other = tempName name
  · exact absurd (temp ▸ replaced.file_temp) present
  · rw [replaced.file_of_ne other same temp] at present
    exact .inr present

theorem Filed.compacted (filed : Filed s d) (attached : Attached s d m held log)
    (executed : execute (s.writeSnapshot payload) d = ((.ok (), s'), d')) :
    Filed s' d' ∧ s'.lastSequence = s.lastSequence := by
  have small : payload.length ≤ Limits.maxSnapshotBytes := by
    by_contra large
    unfold Store.writeSnapshot at executed
    rw [if_pos (Nat.not_le.mp large)] at executed
    cases executed
  have weakest : (s.writeSnapshot payload).wp Disk.world (fun _ => True)
      (fun outcome e => Filed outcome.2 e ∧ outcome.2.lastSequence = s.lastSequence) d := by
    unfold Store.writeSnapshot
    rw [if_neg (Nat.not_lt.mpr small)]
    dsimp only
    split
    · exact ⟨trivial, filed, rfl⟩
    rw [Program.wp_bind]
    refine wp_writeFileAtomic (fun _ _ => trivial) ?_
    intro e₁ replaced₁
    refine ⟨trivial, ?_⟩
    dsimp only
    rw [← Store.compacted, Program.wp_bind]
    refine Live.wp_writeManifest (sound_compacted s) (fun _ _ => trivial) ?_
    intro e₂ replaced₂
    refine ⟨trivial, ?_⟩
    dsimp only
    rw [Program.wp_bind]
    refine wp_writeFileAtomic (fun _ _ => trivial) ?_
    intro e₃ replaced₃
    have named (name : FileName) (present : e₃.file name ≠ none) :
        StoreFile name ∨ name = snapshotFileName s.lastSequence ∨ s.snapshotPath = some name := by
      rcases replaced₃.named present with rfl | present
      · exact .inl (.inr (.inl rfl))
      rcases replaced₂.named present with rfl | present
      · exact .inl (.inl rfl)
      rcases replaced₁.named present with rfl | present
      · exact .inr (.inl rfl)
      · exact (filed name present).imp_right .inr
    obtain ⟨handle, file, -⟩ := Disk.content_eq_some.mp replaced₃.content_self
    refine ⟨trivial, ?_⟩
    dsimp only
    unfold Store.reopenWal
    rw [Program.wp_bind, Disk.wp_openAppend, Disk.openAppend_of_file file]
    refine ⟨trivial, trivial, ?_⟩
    have stays (kept : ∀ name, s.snapshotPath = some name → name = snapshotFileName s.lastSequence) :
        Filed { s.compacted with walHandle := some handle, walBytes := 0 } e₃ := by
      intro name present
      rcases named name present with store | rfl | path
      · exact .inl store
      · exact .inr rfl
      · exact .inr (congrArg some (kept name path).symm)
    dsimp only
    cases path : s.snapshotPath with
    | none => exact ⟨trivial, stays fun name is => (Option.some_ne_none name (is.symm.trans path)).elim, rfl⟩
    | some previous =>
        dsimp only
        split
        · next different =>
            have entry : pathEntry previous = some previous := by
              have own := attached.path
              rw [path] at own
              cases held with
              | none => cases own
              | some payload =>
                  obtain rfl := Option.some.inj own
                  exact pathEntry_snapshotFileName _
            rw [removePath_of_entry entry, Disk.wp_remove]
            refine ⟨trivial, ⟨trivial, ?_, rfl⟩⟩
            intro name present
            rcases named name (Disk.named_remove present) with store | rfl | same
            · exact .inl store
            · exact .inr rfl
            · obtain rfl := Option.some.inj (path.symm.trans same)
              exact absurd Disk.file_remove_self present
        · next same =>
            refine ⟨trivial, stays fun name is => ?_, rfl⟩
            obtain rfl := Option.some.inj (path.symm.trans is)
            exact not_not.mp same
  have done := Program.wp_run weakest
  rwa [show Program.run Disk.answer (s.writeSnapshot payload) d = _ from executed] at done

/-! ## What a run leaves -/

theorem Store.Called.goesOn {past' j' : Journal} {call : StoreCall} {answer : StoreAnswer}
    (called : s.Called d call answer s' d') (others : ∀ payload, call ≠ .writeSnapshot payload)
    (journals : call.journals s s' (past, j) = (past', j')) :
    s'.snapshotPath = s.snapshotPath ∧ s'.snapshotSequence = s.snapshotSequence ∧
      ((j' = j ∧ s'.lastSequence = s.lastSequence) ∨
        ∃ e, j' = j ++ [(s'.lastSequence, e)] ∧ s.lastSequence < s'.lastSequence) := by
  have wrote {u : Store} {e : Disk FileName} {f : Frame} (w : Store.Wrote s u d e f) :
      u.snapshotPath = s.snapshotPath ∧ u.snapshotSequence = s.snapshotSequence ∧
        s.lastSequence < u.lastSequence := by
    rw [w.members]
    refine ⟨rfl, rfl, ?_⟩
    rw [UInt64.lt_iff_toNat_lt, w.planned.sequence]
    exact Nat.lt_succ_self _
  cases called with
  | appended w | staged w | committed w | aborted w =>
      obtain ⟨path, sequence, later⟩ := wrote w
      cases journals
      exact ⟨path, sequence, .inr ⟨_, rfl, later⟩⟩
  | compacted => exact absurd rfl (others _)
  | adopted =>
      cases journals
      exact ⟨rfl, rfl, .inl ⟨rfl, rfl⟩⟩
  | @closed _ u _ w =>
      obtain ⟨handle, opened, -⟩ := w.handle
      have awake : ¬(s.readOnly = true ∨ s.walHandle = none) := by
        rw [w.writable, opened]
        exact not_or.mpr ⟨Bool.false_ne_true, Option.some_ne_none handle⟩
      obtain ⟨-, rfl⟩ := Prod.mk.inj ((if_neg awake).symm.trans journals)
      obtain ⟨path, sequence, later⟩ := wrote w
      exact ⟨path, sequence, .inr ⟨_, rfl, later⟩⟩
  | idle silent =>
      obtain ⟨-, rfl⟩ := Prod.mk.inj ((if_pos silent).symm.trans journals)
      exact ⟨rfl, rfl, .inl ⟨rfl, rfl⟩⟩

structure Settled (j : Journal) (s : Store) (d : Disk FileName) : Prop where
  filed : Filed s d
  last : s.lastSequence = j.frames.foldl Frame.latest s.snapshotSequence

theorem foldl_latest_concat {start : Sequence} (sequence : Sequence) (e : Entry)
    (later : j.frames.foldl Frame.latest start < sequence) :
    sequence = (Journal.frames (j ++ [(sequence, e)])).foldl Frame.latest start := by
  rw [Journal.frames_append, show Journal.frames [(sequence, e)] = [e.frame sequence] from rfl,
    List.foldl_concat]
  have number := e.frame_sequence sequence
  rw [latest_of_lt (number.symm ▸ later), number]

theorem Journal.taken_members {snapshotSequence : Sequence} (after : ∀ x ∈ j, snapshotSequence < x.1)
    (r : Replay) :
    (j.taken snapshotSequence r).lastSequence = j.frames.foldl Frame.latest r.lastSequence ∧
      (j.taken snapshotSequence r).durableEpoch =
        j.frames.foldl Frame.epochAfter r.durableEpoch := by
  induction j generalizing r with
  | nil => exact ⟨rfl, rfl⟩
  | cons x j ih =>
      rw [List.forall_mem_cons] at after
      have number := x.2.frame_sequence x.1
      have later : snapshotSequence < (x.2.frame x.1).sequence := number.symm ▸ after.1
      obtain ⟨last, epoch⟩ := ih after.2 (applyFrame snapshotSequence r (x.2.frame x.1)).1
      rw [applyFrame_later later, applyBody_lastSequence] at last
      rw [applyFrame_later later, applyBody_durableEpoch] at epoch
      rw [taken, List.foldl_cons, ← taken, applyFrame_later later]
      exact ⟨last, epoch⟩

theorem Settled.called {past' j' : Journal} {call : StoreCall} {answer : StoreAnswer}
    (settled : Settled j s d) (trailing : Trailing options past j s d)
    (calling : execute (s.call call) d = ((.ok answer, s'), d'))
    (journals : call.journals s s' (past, j) = (past', j')) : Settled j' s' d' := by
  obtain ⟨m, held, attached, -⟩ := trailing.attached
  have called := Store.called_of_execute attached.valid.small calling
  by_cases compacts : ∃ payload, call = .writeSnapshot payload
  · obtain ⟨payload, rfl⟩ := compacts
    obtain ⟨_, -, executed⟩ := execute_answered calling
    obtain ⟨-, rfl⟩ := Prod.mk.inj journals
    obtain ⟨filed, last⟩ := settled.filed.compacted attached executed
    exact ⟨filed, last.trans (attached.compacted executed).2.sequence.symm⟩
  have others : ∀ payload, call ≠ .writeSnapshot payload :=
    fun payload is => compacts ⟨payload, is⟩
  obtain ⟨path, sequence, goes⟩ := called.goesOn others journals
  refine ⟨?_, ?_⟩
  · have named := storeFile_run (snapshotFree_call s others) (fun _ => .inl) settled.filed
    rw [calling, ← path] at named
    exact named
  · rw [sequence]
    rcases goes with ⟨rfl, last⟩ | ⟨e, rfl, later⟩
    · exact last.trans settled.last
    · rw [settled.last] at later
      exact foldl_latest_concat _ e later

theorem Settled.reopened {header : Journal} (settled : Settled j s d)
    (trailing : Trailing options past j s d)
    (opening : execute (Store.open options boot) d = (.ok s', d'))
    (identity : header = [] ∨ header = [(s'.lastSequence, headerEntry boot)])
    (grown : walOf d' = walOf d ++ (walFormat options.maxRecordBytes).log header.frames) :
    Settled (j ++ header) s' d' := by
  obtain ⟨m, held, attached, le⟩ := trailing.attached
  have valid : options.Valid := trailing.same ▸ attached.valid
  obtain ⟨m', frames, reopened⟩ := reopened_of_open valid attached.shows opening
  obtain ⟨kept, replays⟩ := trailing.through reopened.readable.admits
  have sequence : s'.snapshotSequence = s.snapshotSequence :=
    reopened.sequence.trans attached.sequence.symm
  have path : s'.snapshotPath = s.snapshotPath := by
    rw [reopened.live.path, attached.path, sequence]
  have last : (((Store.fresh options).adopt m).replayOf
      ((walFormat options.maxRecordBytes).log j.frames)).1.lastSequence =
        j.frames.foldl Frame.latest s.snapshotSequence := by
    have recorded := attached.recorded
    rw [settled.last, attached.sequence] at recorded
    rw [replays, (Journal.taken_members (attached.sequence ▸ trailing.after) _).1, attached.sequence]
    exact foldl_latest_of_le le recorded
  refine ⟨?_, ?_⟩
  · have named := storeFile_run (snapshotFree_open options boot) (fun _ => .inl) settled.filed
    rw [opening, ← path] at named
    exact named
  have entries := trailing.entries attached.shows.log reopened identity grown
  rw [sequence]
  rcases reopened.header with ⟨rfl, -, same⟩ | ⟨-, rfl, -, next, -⟩
  · obtain rfl : header = [] := List.map_eq_nil_iff.mp entries
    rw [List.append_nil]
    exact same.trans last
  · obtain rfl := identity.resolve_left (by rintro rfl; cases entries)
    apply foldl_latest_concat
    rw [← last, UInt64.lt_iff_toNat_lt, next]
    exact Nat.lt_succ_self _

theorem Interleaving.settled (run : Interleaving options past j s d) : Settled j s d := by
  induction run with
  | @created boot s d opening =>
      have created := created_of_empty (valid_of_open opening) opening
      have absent : ∀ name, (Disk.empty : Disk FileName).file name ≠ none → StoreFile name :=
        fun name present => absurd (by simp [Disk.file, Disk.empty]) present
      have named := storeFile_run (snapshotFree_open options boot) (fun _ => id) absent
      rw [opening] at named
      refine ⟨fun name present => .inl (named name present), ?_⟩
      rw [created.lastSequence, created.live.sequence]
      rfl
  | called run calling journals ih => exact ih.called run.trailing calling journals
  | reopened run opening identity grown ih => exact ih.reopened run.trailing opening identity grown

/-! ## The two ways to a manifest -/

structure Regained where
  storeId : Text
  snapshotBytes : Bytes
  replayed : List LogRecord
  lastSequence : Sequence
  durableEpoch : FabricEpoch
  deriving DecidableEq, Repr

def Store.regained (s : Store) : Regained :=
  ⟨s.storeId, s.snapshotBytes, s.replayed, s.lastSequence, s.durableEpoch⟩

structure ManifestLost (options : StoreOptions) (d d' : Disk FileName) : Prop where
  others : ∀ name, name ≠ manifestFileName → d'.content name = d.content name
  unreadable : ∃ e, execute (Store.fresh options).loadManifest d' = (.error e, d') ∧
    e.code ≠ .versionMismatch

theorem manifestLost_remove (options : StoreOptions) (d : Disk FileName) :
    ManifestLost options d (d.remove manifestFileName) where
  others _ other := Disk.content_remove_of_ne other
  unreadable := by
    refine ⟨makeError .notFound "manifest is absent", ?_, by decide⟩
    unfold Store.loadManifest
    rw [execute_bind, execute_exists, Disk.file_remove_self]
    rfl

theorem opens_of_loaded (valid : options.Valid) (same : u.options = options)
    (loaded : execute (Store.fresh options).loadOrRebuild d = (.ok u, e))
    (shows : Shows e m held log)
    (path : u.snapshotPath = held.map fun _ => snapshotFileName m.snapshotSequence)
    (sequence : u.snapshotSequence = m.snapshotSequence)
    (small : ∀ payload ∈ held, 28 + payload.length ≤ Limits.maxSnapshotBytes)
    (within : log.length ≤ maxWalScanBytes) (admits : u.Admits log) (boot : Bytes) :
    (u.identified = true → ∃ t d', execute (Store.open options boot) d = (.ok t, d') ∧
      t.regained = ⟨u.storeId, held.getD u.snapshotBytes, u.replayed ++ (u.replayOf log).1.replayed,
        (u.replayOf log).1.lastSequence, (u.replayOf log).1.durableEpoch⟩) ∧
    (u.identified = false → ∀ t d', execute (Store.open options boot) d = (.ok t, d') →
      t.storeId = (sha256 boot).hex) := by
  have opened := Store.execute_openLoaded shows path sequence boot
  obtain ⟨v, recovered, replayed, bytes⟩ := Store.recoverFrom_of_admits small within admits
  have regained : v.regained = ⟨u.storeId, held.getD u.snapshotBytes,
      u.replayed ++ (u.replayOf log).1.replayed, (u.replayOf log).1.lastSequence,
      (u.replayOf log).1.durableEpoch⟩ := by
    have records := replayed.replayed
    have id := replayed.storeId
    have last := replayed.lastSequence
    have epoch := replayed.durableEpoch
    dsimp only at records id last epoch
    rw [Store.regained, id, bytes, records, last, epoch]
  rw [recovered] at opened
  obtain ⟨d₁, handle, -, -, concludes⟩ := opened
  have known : ({ v with walHandle := some handle } : Store).identified = u.identified :=
    identified_of_storeId replayed.storeId
  rw [execute_open valid, Store.execute_openImpl_of_loaded loaded, concludes]
  refine ⟨?_, ?_⟩
  · intro identified
    unfold Store.conclude Store.mintIdentity
    rw [if_pos (known.trans identified)]
    exact ⟨_, _, rfl, regained⟩
  · intro unknown t d' concluded
    have budget : ({ v with walHandle := some handle } : Store).options.maxRecordBytes ≤
        Limits.maxWalRecordBytes := by
      have alike := replayed.options
      dsimp only at alike ⊢
      rw [alike, same]
      exact valid.small
    rcases concluded_of_execute budget concluded with ⟨identified, -, -⟩ | ⟨-, _, w, _, wrote, -, rfl⟩
    · exact absurd (unknown.symm.trans (known.symm.trans identified)) Bool.false_ne_true
    · dsimp only
      rw [wrote.members]

/-! ## The manifest that takes the place of a lost one -/

structure Journalled (options : StoreOptions) (j : Journal) (d : Disk FileName) (m : Manifest)
    (held : Option Bytes) : Prop where
  valid : options.Valid
  shows : Shows d m held ((walFormat options.maxRecordBytes).log j.frames)
  fits : ∀ f ∈ j.frames, f.Fits options.maxRecordBytes
  after : ∀ x ∈ j, m.snapshotSequence < x.1
  taken : m.snapshotSequence ≤ m.lastSequence
  recorded : m.lastSequence ≤ j.frames.foldl Frame.latest m.snapshotSequence
  filed : ∀ name, d.file name ≠ none →
    StoreFile name ∨ held ≠ none ∧ name = snapshotFileName m.snapshotSequence

theorem Interleaving.journalled (run : Interleaving options past j s d) :
    ∃ m held, Journalled options j d m held := by
  have trailing := run.trailing
  have settled := run.settled
  obtain ⟨m, held, attached, taken⟩ := trailing.attached
  have recorded := attached.recorded
  rw [settled.last] at recorded
  refine ⟨m, held, trailing.same ▸ attached.valid, attached.shows, trailing.fits,
    attached.sequence ▸ trailing.after, taken, attached.sequence ▸ recorded, ?_⟩
  intro name present
  refine (settled.filed name present).imp_right fun named => ?_
  rw [attached.path, attached.sequence] at named
  cases held with
  | none => cases named
  | some payload => exact ⟨Option.some_ne_none payload, (Option.some.inj named).symm⟩

def Store.rebuilt (options : StoreOptions) (m : Manifest) (held : Option Bytes)
    (frames : List Frame) : Store :=
  ((Store.fresh options).rebuildFromSnapshot (held.map fun _ =>
    (m.snapshotSequence, snapshotFileName m.snapshotSequence))).restated frames

theorem rebuilt_path (options : StoreOptions) (m : Manifest) (held : Option Bytes)
    (frames : List Frame) : (Store.rebuilt options m held frames).snapshotPath =
      held.map fun _ => snapshotFileName m.snapshotSequence := by
  cases held <;> rfl

theorem execute_bestSnapshot {names : List FileName} {sequence : UInt64}
    {best : Option (UInt64 × FileName)}
    (content : d.content (snapshotFileName sequence) = some (snapshotFile sequence payload))
    (small : 28 + payload.length ≤ Limits.maxSnapshotBytes)
    (only : ∀ name ∈ names, snapshotNameSequence name = none ∨ name = snapshotFileName sequence)
    (begun : best = none ∨ best = some (sequence, snapshotFileName sequence)) :
    execute (Store.bestSnapshot names best) d =
      (if snapshotFileName sequence ∈ names then some (sequence, snapshotFileName sequence)
        else best, d) := by
  induction names generalizing best with
  | nil => rfl
  | cons name names ih =>
      rw [List.forall_mem_cons] at only
      unfold Store.bestSnapshot
      rcases only.1 with none | rfl
      · have other : snapshotFileName sequence ≠ name := by
          rintro rfl
          rw [snapshotNameSequence_snapshotFileName] at none
          cases none
        rw [none]
        dsimp only
        rw [ih only.2 begun]
        simp only [List.mem_cons, other, false_or]
      · have read : ¬(snapshotFile sequence payload).length > Limits.maxSnapshotBytes := by
          rw [length_snapshotFile]
          exact Nat.not_lt.mpr small
        have fits : payload.length ≤ Limits.maxSnapshotBytes := by omega
        rw [snapshotNameSequence_snapshotFileName]
        dsimp only
        rw [execute_bind, execute_readFile content, if_neg read]
        dsimp only
        rw [decodeSnapshot_snapshotFile _ fits]
        dsimp only
        rw [if_neg (not_not.mpr rfl), if_pos List.mem_cons_self]
        have found := ih only.2 (.inr (rfl : some (sequence, snapshotFileName sequence) = _))
        rw [ite_self] at found
        rcases begun with rfl | rfl
        · exact found
        · dsimp only
          rw [if_neg (UInt64.lt_irrefl sequence)]
          exact found

namespace Journalled

theorem filed_lost (journalled : Journalled options j d m held) (lost : ManifestLost options d d') :
    ∀ name, d'.file name ≠ none →
      StoreFile name ∨ held ≠ none ∧ name = snapshotFileName m.snapshotSequence := by
  intro name present
  by_cases manifest : name = manifestFileName
  · exact .inl (.inl manifest)
  apply journalled.filed name
  intro absent
  obtain ⟨handle, file⟩ := Option.ne_none_iff_exists'.mp present
  have content := lost.others name manifest
  rw [Disk.content_of_file file, Disk.content, absent] at content
  cases content

theorem execute_listDirectory (journalled : Journalled options j d m held)
    (lost : ManifestLost options d d') :
    execute listDirectory d' = (.ok (sortTexts d'.names.keys), d') := by
  have within : d'.names.keys ⊆ [manifestFileName, walFileName, tempName manifestFileName,
      snapshotFileName m.snapshotSequence] := by
    intro name mem
    have present : d'.file name ≠ none := fun absent => AList.lookup_eq_none.mp absent mem
    rcases journalled.filed_lost lost name present with (rfl | rfl | rfl) | ⟨-, rfl⟩
    all_goals simp
  have few : d'.names.keys.length ≤ 4 :=
    (List.Nodup.subperm d'.names.nodupKeys within).length_le
  unfold listDirectory
  rw [execute_bind, execute_list]
  dsimp only
  rw [if_neg (by omega)]
  rfl

theorem execute_bestSnapshot (journalled : Journalled options j d m held)
    (lost : ManifestLost options d d')
    (small : ∀ payload ∈ held, 28 + payload.length ≤ Limits.maxSnapshotBytes) :
    execute (Store.bestSnapshot (sortTexts d'.names.keys) none) d' =
      (held.map fun _ => (m.snapshotSequence, snapshotFileName m.snapshotSequence), d') := by
  have listed {name : FileName} : name ∈ sortTexts d'.names.keys ↔ name ∈ d'.names.keys :=
    List.mem_insertionSort _
  have filed {name : FileName} (mem : name ∈ sortTexts d'.names.keys) := journalled.filed_lost lost
    name fun absent => AList.lookup_eq_none.mp absent (listed.mp mem)
  have plain {name : FileName} (store : StoreFile name) : snapshotNameSequence name = none := by
    rcases store with rfl | rfl | rfl <;> decide
  cases held with
  | none =>
      rw [bestSnapshot_of_none fun name mem =>
        plain ((filed mem).resolve_right fun both => both.1 rfl)]
      rfl
  | some payload =>
      obtain ⟨named, -, content⟩ := journalled.shows.named payload rfl
      rw [named] at content
      have kept := (lost.others _ (snapshot_ne_manifest m.snapshotSequence)).trans content
      rw [QoSFabric.execute_bestSnapshot kept (small payload rfl)
        (fun name mem => (filed mem).imp plain And.right) (.inl rfl)]
      have mem : snapshotFileName m.snapshotSequence ∈ d'.names.keys := by
        have present := Store.isSome_file_of_content kept
        rw [Option.isSome_iff_ne_none] at present
        exact not_not.mp (mt AList.lookup_eq_none.mpr present)
      rw [if_pos (listed.mpr mem)]
      rfl

theorem execute_loadOrRebuild (journalled : Journalled options j d m held)
    (lost : ManifestLost options d d')
    (small : ∀ payload ∈ held, 28 + payload.length ≤ Limits.maxSnapshotBytes)
    (within : ((walFormat options.maxRecordBytes).log j.frames).length ≤ maxWalScanBytes) :
    ∃ report e, execute (Store.fresh options).loadOrRebuild d' =
        (.ok { Store.rebuilt options m held j.frames with recovery := report }, e) ∧
      Shows e (Store.rebuilt options m held j.frames).manifest held
        ((walFormat options.maxRecordBytes).log j.frames) := by
  obtain ⟨failure, failed, other⟩ := lost.unreadable
  have wal := (lost.others walFileName wal_ne_manifest).trans journalled.shows.log
  have path := rebuilt_path options m held j.frames
  have read : execute ((Store.fresh options).rebuildFromSnapshot (held.map fun _ =>
      (m.snapshotSequence, snapshotFileName m.snapshotSequence))).rebuildFromLog d' =
        (Store.rebuilt options m held j.frames, d') := by
    have same : ((Store.fresh options).rebuildFromSnapshot (held.map fun _ =>
        (m.snapshotSequence, snapshotFileName m.snapshotSequence))).options = options := by
      cases held <;> rfl
    have scanned := execute_rebuildFromLog (s := (Store.fresh options).rebuildFromSnapshot
      (held.map fun _ => (m.snapshotSequence, snapshotFileName m.snapshotSequence)))
      (same.symm ▸ journalled.fits) (same.symm ▸ wal)
    rw [same, if_neg (Nat.not_lt.mpr within)] at scanned
    exact scanned
  have silent : (Store.rebuilt options m held j.frames).recovery = .none := by
    cases held <;> rfl
  have name : (Store.rebuilt options m held j.frames).manifest.snapshotName =
      (held.map fun _ => snapshotFileName m.snapshotSequence).getD [] := by
    unfold Store.manifest
    rw [path]
    cases held <;> rfl
  have sound : (Store.rebuilt options m held j.frames).manifest.Sound := by
    cases held with
    | none => exact Manifest.sound_unnamed name rfl
    | some payload => exact Manifest.sound_snapshotFileName name
  obtain ⟨e, written, replaced⟩ := Store.execute_writeManifest_of_sound sound d'
  refine ⟨{ RecoveryReport.none with
      detail := text "manifest rebuilt from durable artifacts; "
      manifestRebuilt := true }, e, ?_, ?_⟩
  · have rebuilt : execute (Store.fresh options).rebuildManifest d' =
        (.ok { Store.rebuilt options m held j.frames with recovery := { RecoveryReport.none with
          detail := text "manifest rebuilt from durable artifacts; " } }, e) := by
      unfold Store.rebuildManifest
      rw [execute_bind, journalled.execute_listDirectory lost]
      dsimp only
      rw [execute_bind, journalled.execute_bestSnapshot lost small]
      dsimp only
      rw [execute_bind, read, execute_bind, written, silent]
      rfl
    unfold Store.loadOrRebuild
    rw [execute_bind, failed]
    dsimp only
    rw [if_neg other, execute_bind, rebuilt]
    rfl
  · refine ⟨replaced.content_self, sound,
      (replaced.content_of_ne _ wal_ne_manifest (tempName_ne_wal _).symm).trans wal, ?_, ?_⟩
    · rintro rfl
      exact name
    · intro payload mem
      rw [Option.mem_def] at mem
      subst mem
      obtain ⟨named, short, content⟩ := journalled.shows.named payload rfl
      refine ⟨name, short, ?_⟩
      rw [name]
      rw [named] at content
      exact ((replaced.content_of_ne _ (snapshot_ne_manifest _) (tempName_ne_snapshot _ _).symm).trans
        (lost.others _ (snapshot_ne_manifest _))).trans content

end Journalled

/-! ## What the log says again -/

/-- Losing the manifest loses nothing: whatever an opening with the manifest brings back, one without
it does. -/
def LossHarmless (options : StoreOptions) (d : Disk FileName) : Prop :=
  ∀ boot t e, execute (Store.open options boot) d = (.ok t, e) →
    ∀ d' boot', ManifestLost options d d' →
      ∃ t' e', execute (Store.open options boot') d' = (.ok t', e') ∧ t'.regained = t.regained

/-- The log says again what identity and what epoch the manifest records: its last header carries the
identity, and the epoch is that of its last advance, or none. -/
structure Restated (options : StoreOptions) (d : Disk FileName) (m : Manifest) : Prop where
  identified : m.storeId.isZero = false
  identity : ((framesOf options.maxRecordBytes (walOf d)).map Prod.fst).foldl Frame.identityAfter
    Digest256.zero.hex = m.storeId.hex
  epoch : ((framesOf options.maxRecordBytes (walOf d)).map Prod.fst).foldl Frame.epochAfter
      m.durableEpoch =
    ((framesOf options.maxRecordBytes (walOf d)).map Prod.fst).foldl Frame.epochAfter 0

namespace Journalled

theorem frames (journalled : Journalled options j d m held) :
    (framesOf options.maxRecordBytes (walOf d)).map Prod.fst = j.frames := by
  rw [walOf, journalled.shows.log, Option.getD_some, framesOf_log journalled.fits]

structure Resumes (options : StoreOptions) (j : Journal) (m : Manifest) (u : Store) : Prop where
  options : u.options = options
  sequence : u.snapshotSequence = m.snapshotSequence
  snapshotBytes : u.snapshotBytes = []
  replayed : u.replayed = []
  above : m.snapshotSequence ≤ u.lastSequence
  reached : u.lastSequence ≤ j.frames.foldl Frame.latest m.snapshotSequence

theorem replays (journalled : Journalled options j d m held) (resumes : Resumes options j m u)
    (admits : u.Admits ((walFormat options.maxRecordBytes).log j.frames)) :
    (u.replayOf ((walFormat options.maxRecordBytes).log j.frames)).1.lastSequence =
        j.frames.foldl Frame.latest m.snapshotSequence ∧
      (u.replayOf ((walFormat options.maxRecordBytes).log j.frames)).1.durableEpoch =
        j.frames.foldl Frame.epochAfter u.durableEpoch := by
  obtain ⟨rfl, sequence, -, -, above, reached⟩ := resumes
  obtain ⟨-, replays⟩ := Journal.through journalled.fits admits
  obtain ⟨last, epoch⟩ := Journal.taken_members (sequence.symm ▸ journalled.after)
    (.start u.lastSequence u.durableEpoch)
  rw [replays]
  exact ⟨last.trans (foldl_latest_of_le above reached), epoch⟩

theorem resumes_adopted (journalled : Journalled options j d m held) :
    Resumes options j m ((Store.fresh options).adopt m) :=
  ⟨rfl, rfl, rfl, rfl, journalled.taken, journalled.recorded⟩

theorem resumes_rebuilt (journalled : Journalled options j d m held) (report : RecoveryReport) :
    Resumes options j m { Store.rebuilt options m held j.frames with recovery := report } := by
  cases held with
  | none =>
      have zero : m.snapshotSequence = 0 :=
        journalled.shows.sound.unnamed (journalled.shows.unnamed rfl)
      have last : ({ Store.rebuilt options m none j.frames with recovery := report } :
          Store).lastSequence = j.frames.foldl Frame.latest m.snapshotSequence := by
        rw [zero]
        rfl
      refine ⟨rfl, zero.symm, rfl, rfl, ?_, UInt64.le_of_eq last⟩
      rw [last]
      exact (le_foldl_latest j.frames _).1
  | some payload =>
      refine ⟨rfl, rfl, rfl, rfl, (le_foldl_latest j.frames _).1, UInt64.le_refl _⟩

theorem Resumes.alike {v : Store} (left : Resumes options j m u) (right : Resumes options j m v)
    (admits : u.Admits log) :
    v.Admits log ∧ (v.replayOf log).1.replayed = (u.replayOf log).1.replayed := by
  have same := right.options.trans left.options.symm
  obtain ⟨alike, stops⟩ := replayOf_alike (congrArg StoreOptions.maxRecordBytes same)
    (right.sequence.trans left.sequence.symm) log
  refine ⟨?_, alike.replayed⟩
  unfold Store.Admits
  rw [stops, same]
  exact admits

end Journalled

def identifies (storeId : Text) : Bool :=
  match Digest256.parseHex storeId with
  | none => false
  | some id => !id.isZero

theorem identifies_hex (id : Digest256) : identifies id.hex = !id.isZero := by
  rw [identifies, Digest256.parseHex_hex]

structure ComesTo (options : StoreOptions) (d : Disk FileName) (r : Regained) : Prop where
  known : identifies r.storeId = true → ∀ boot, ∃ t e,
    execute (Store.open options boot) d = (.ok t, e) ∧ t.regained = r
  minted : identifies r.storeId = false → ∀ boot t e,
    execute (Store.open options boot) d = (.ok t, e) → t.storeId = (sha256 boot).hex

theorem Journalled.comesTo (journalled : Journalled options j d m held)
    (opened : execute (Store.open options boot) d = (.ok t, e)) : ∃ records,
    ComesTo options d ⟨m.storeId.hex, held.getD [], records,
      j.frames.foldl Frame.latest m.snapshotSequence,
      j.frames.foldl Frame.epochAfter m.durableEpoch⟩ ∧
    ∀ d', ManifestLost options d d' →
      ComesTo options d' ⟨j.frames.foldl Frame.identityAfter Digest256.zero.hex, held.getD [], records,
        j.frames.foldl Frame.latest m.snapshotSequence, j.frames.foldl Frame.epochAfter 0⟩ := by
  have valid := journalled.valid
  have shows := journalled.shows
  obtain ⟨m', header, reopened⟩ := reopened_of_open valid shows opened
  obtain ⟨small, within, admits⟩ := reopened.readable
  have adopted := journalled.resumes_adopted
  have comes {u : Store} {d e : Disk FileName} {m' : Manifest} (resumes : Resumes options j m u)
      (loaded : execute (Store.fresh options).loadOrRebuild d = (.ok u, e))
      (shows' : Shows e m' held ((walFormat options.maxRecordBytes).log j.frames))
      (path : u.snapshotPath = held.map fun _ => snapshotFileName m'.snapshotSequence)
      (sequence : u.snapshotSequence = m'.snapshotSequence) :
      ComesTo options d ⟨u.storeId, held.getD [],
        (((Store.fresh options).adopt m).replayOf
          ((walFormat options.maxRecordBytes).log j.frames)).1.replayed,
        j.frames.foldl Frame.latest m.snapshotSequence,
        j.frames.foldl Frame.epochAfter u.durableEpoch⟩ := by
    obtain ⟨admits', records⟩ := adopted.alike resumes admits
    obtain ⟨last, epoch⟩ := journalled.replays resumes admits'
    have opens := opens_of_loaded valid resumes.options loaded shows' path sequence small within admits'
    refine ⟨fun identified boot => ?_, fun unknown boot => (opens boot).2 unknown⟩
    obtain ⟨t, e', opened, regained⟩ := (opens boot).1 identified
    refine ⟨t, e', opened, ?_⟩
    rw [regained, resumes.snapshotBytes, resumes.replayed, List.nil_append, last, epoch, records]
  refine ⟨_, comes adopted (Store.execute_loadOrRebuild valid shows) shows
    (Store.adopt_snapshotPath (Store.fresh options) shows) rfl, ?_⟩
  intro d' lost
  obtain ⟨report, e', rebuilt, shows'⟩ := journalled.execute_loadOrRebuild lost small within
  have path : (Store.rebuilt options m held j.frames).snapshotPath =
      held.map fun _ =>
        snapshotFileName (Store.rebuilt options m held j.frames).manifest.snapshotSequence := by
    cases held <;> rfl
  have found := comes (journalled.resumes_rebuilt report) rebuilt shows' path rfl
  have id : (Store.rebuilt options m held j.frames).storeId =
      j.frames.foldl Frame.identityAfter Digest256.zero.hex := by
    cases held <;> rfl
  have epoch : j.frames.foldl Frame.epochAfter (Store.rebuilt options m held j.frames).durableEpoch =
      j.frames.foldl Frame.epochAfter 0 := by
    have start : (Store.rebuilt options m held j.frames).durableEpoch =
        j.frames.foldl Frame.epochAfter 0 := by
      cases held <;> rfl
    rw [start, foldl_epochAfter_self]
  dsimp only at found
  rwa [id, epoch] at found

theorem exists_identities : ∃ boot boot' : Bytes, (sha256 boot).hex ≠ (sha256 boot').hex :=
  ⟨[], [0], by decide +kernel⟩

theorem harmless_iff_of_comesTo {a b : Regained} (left : ComesTo options d a)
    (right : ∀ d', ManifestLost options d d' → ComesTo options d' b)
    (opens : ∀ boot, ∃ t e, execute (Store.open options boot) d = (.ok t, e)) :
    LossHarmless options d ↔ identifies a.storeId = true ∧ a = b := by
  constructor
  · intro harmless
    have lost := manifestLost_remove options d
    obtain ⟨boot₁, boot₂, other⟩ := exists_identities
    obtain ⟨t₁, e₁, opened₁⟩ := opens boot₁
    obtain ⟨t₂, e₂, opened₂⟩ := opens boot₂
    have identified : identifies a.storeId = true := by
      by_contra unknown
      rw [Bool.not_eq_true] at unknown
      obtain ⟨u, _, opened, first⟩ := harmless boot₁ t₁ e₁ opened₁ _ boot₁ lost
      obtain ⟨u', _, opened', second⟩ := harmless boot₂ t₂ e₂ opened₂ _ boot₁ lost
      obtain ⟨same, -⟩ := Prod.mk.inj (opened.symm.trans opened')
      obtain rfl := Except.ok.inj same
      have ids : t₁.storeId = t₂.storeId := congrArg Regained.storeId (first.symm.trans second)
      rw [left.minted unknown _ _ _ opened₁, left.minted unknown _ _ _ opened₂] at ids
      exact other ids
    have restated : identifies b.storeId = true := by
      by_contra unknown
      rw [Bool.not_eq_true] at unknown
      obtain ⟨u, _, opened, first⟩ := harmless boot₁ t₁ e₁ opened₁ _ boot₁ lost
      obtain ⟨u', _, opened', second⟩ := harmless boot₁ t₁ e₁ opened₁ _ boot₂ lost
      have ids : u.storeId = u'.storeId := congrArg Regained.storeId (first.trans second.symm)
      rw [(right _ lost).minted unknown _ _ _ opened, (right _ lost).minted unknown _ _ _ opened'] at ids
      exact other ids
    refine ⟨identified, ?_⟩
    obtain ⟨t, e, opened, comes⟩ := left.known identified boot₁
    obtain ⟨u, e', opened', comes'⟩ := (right _ lost).known restated boot₁
    obtain ⟨u', _, opened'', same⟩ := harmless boot₁ t e opened _ boot₁ lost
    obtain ⟨eq, -⟩ := Prod.mk.inj (opened'.symm.trans opened'')
    obtain rfl := Except.ok.inj eq
    exact comes.symm.trans (same.symm.trans comes')
  · rintro ⟨identified, rfl⟩ boot t e opened d' boot' lost
    obtain ⟨t', e', opened', comes⟩ := left.known identified boot
    obtain ⟨eq, -⟩ := Prod.mk.inj (opened.symm.trans opened')
    obtain rfl := Except.ok.inj eq
    obtain ⟨u, e'', opened'', comes'⟩ := (right d' lost).known identified boot'
    exact ⟨u, e'', opened'', comes'.trans comes.symm⟩

/-- In every state of a run the manifest can be lost without a loss exactly when, if the directory
opens at all, its log says again what identity and what epoch the manifest records. -/
theorem lost_manifest_rebuilt {events : List StoreEvent} (run : StoreRun options events s d) :
    LossHarmless options d ↔
      ((walOf d).length ≤ maxWalScanBytes → ∀ m, Reopenable options d m → Restated options d m) := by
  obtain ⟨past, j, interleaving⟩ := run.interleaving
  obtain ⟨m, held, journalled⟩ := interleaving.journalled
  have valid := journalled.valid
  have shown := journalled.frames
  have own {m' : Manifest} (reopenable : Reopenable options d m') : m' = m :=
    reopenable.loads.eq_of_shows valid journalled.shows
  by_cases opens : (walOf d).length ≤ maxWalScanBytes ∧ ∃ m, Reopenable options d m
  · obtain ⟨within, _, reopenable⟩ := opens
    obtain rfl := own reopenable
    have opens boot := (run.opens_iff boot).mpr ⟨within, _, reopenable⟩
    obtain ⟨t, e, opened⟩ := opens []
    obtain ⟨records, left, right⟩ := journalled.comesTo opened
    rw [harmless_iff_of_comesTo left right opens]
    constructor
    · rintro ⟨identified, eq⟩ - m' reopenable'
      obtain rfl := own reopenable'
      rw [identifies_hex] at identified
      refine ⟨by simpa using identified, ?_, ?_⟩
      · rw [shown]
        exact (congrArg Regained.storeId eq).symm
      · rw [shown]
        exact congrArg Regained.durableEpoch eq
    · intro restates
      obtain ⟨identified, identity, epoch⟩ := restates within _ reopenable
      rw [shown] at identity epoch
      rw [identity, epoch, identifies_hex, identified]
      exact ⟨rfl, rfl⟩
  · refine iff_of_true ?_ ?_
    · intro boot t e opened
      exact absurd ((run.opens_iff boot).mp ⟨t, e, opened⟩) opens
    · intro within m' reopenable
      exact absurd ⟨within, m', reopenable⟩ opens

def losesIdentity : Bool :=
  match execute (Store.open .default (List.replicate 16 7)) Disk.empty with
  | (.ok s, d) =>
      match execute (s.call (.writeSnapshot [])) d with
      | ((.ok _, _), d) =>
          match (execute (Store.open .default (List.replicate 16 8)) d).1,
            (execute (Store.open .default (List.replicate 16 8)) (d.remove manifestFileName)).1 with
          | .ok t, .ok u => t.storeId ≠ u.storeId
          | _, _ => false
      | _ => false
  | _ => false

set_option maxRecDepth 4000 in
theorem exists_retired : ∃ s d, ∃ t u : Store,
    StoreRun .default
      [.opened (List.replicate 16 7), .called (.writeSnapshot []) .finished] s d ∧
    (execute (Store.open .default (List.replicate 16 8)) d).1 = .ok t ∧
    (execute (Store.open .default (List.replicate 16 8)) (d.remove manifestFileName)).1 = .ok u ∧
    t.storeId ≠ u.storeId := by
  have rehearsal : losesIdentity = true := by decide +kernel
  unfold losesIdentity at rehearsal
  split at rehearsal
  next s d opening =>
    split at rehearsal
    next answer s' d' calling =>
      obtain ⟨_, rfl, -⟩ := execute_answered calling
      split at rehearsal
      next t u kept lost =>
        exact ⟨s', d', t, u, (StoreRun.created opening).called calling, kept, lost,
          of_decide_eq_true rehearsal⟩
      next => cases rehearsal
    next => cases rehearsal
  next => cases rehearsal

/-- The identity of a store does not survive its manifest once a snapshot has retired the log. -/
theorem retired_log_forgets : ¬∀ options events s d, StoreRun options events s d →
    LossHarmless options d := by
  intro harmless
  obtain ⟨s, d, t, u, run, kept, lost, other⟩ := exists_retired
  obtain ⟨v, e, opened, same⟩ := harmless _ _ s d run _ t _ (Prod.ext kept rfl) _
    (List.replicate 16 8) (manifestLost_remove _ d)
  rw [opened] at lost
  obtain rfl := Except.ok.inj lost
  exact other (congrArg Regained.storeId same).symm

def restating : List (Option StoreCall) :=
  [some (.append .epochAdvance [5, 0, 0, 0, 0, 0, 0, 0]), none, some (.writeSnapshot [9]),
    some (.append .storeHeader (sha256 (List.replicate 16 7)).bytes),
    some (.append .epochAdvance [5, 0, 0, 0, 0, 0, 0, 0]), none,
    some (.stage .publishClass [1]), some (.commit 5 .zero)]

def restates (steps : List (Option StoreCall)) (r : Regained) : Bool :=
  match execute (Store.open .default (List.replicate 16 7)) Disk.empty with
  | (.ok s, d) =>
      match rehearseCalls .default (List.replicate 16 8) steps
          (([], [(s.lastSequence, headerEntry (List.replicate 16 7))]), s, d) with
      | some (_, _, d) =>
          match (execute (Store.open .default (List.replicate 16 9)) d).1,
            (d.content manifestFileName).map (decodeManifest storeFormatVersion) with
          | .ok t, some (.ok m) =>
              let frames := (framesOf StoreOptions.default.maxRecordBytes (walOf d)).map Prod.fst
              t.regained = r ∧ m.storeId.isZero = false ∧
                frames.foldl Frame.identityAfter Digest256.zero.hex = m.storeId.hex ∧
                frames.foldl Frame.epochAfter m.durableEpoch = frames.foldl Frame.epochAfter 0
          | _, _ => false
      | none => false
  | (.error _, _) => false

theorem exists_restated {steps : List (Option StoreCall)} {r : Regained}
    (holds : restates steps r = true) : ∃ events s d t e, StoreRun .default events s d ∧
      execute (Store.open .default (List.replicate 16 9)) d = (.ok t, e) ∧ t.regained = r ∧
      ∀ m, Reopenable .default d m → Restated .default d m := by
  unfold restates at holds
  split at holds
  next s d opening =>
    split at holds
    next left s' d' rehearsal =>
      split at holds
      next t m opened content =>
        obtain ⟨regained, identified, identity, epoch⟩ := of_decide_eq_true holds
        obtain ⟨events, run⟩ := ((Interleaving.created opening).rehearsed rehearsal).run
        refine ⟨events, s', d', t, _, run, Prod.ext opened rfl, regained, ?_⟩
        intro m' reopenable
        obtain ⟨raw, shown, -, decoded⟩ := reopenable.loads.file
        rw [shown, Option.map_some] at content
        obtain rfl := Except.ok.inj (decoded.symm.trans (Option.some.inj content))
        exact ⟨identified, identity, epoch⟩
      next => cases holds
    next => cases holds
  next => cases holds

/-- What comes back of these calls. -/
def restored : Regained :=
  ⟨(sha256 (List.replicate 16 7)).hex, [9],
    [⟨.epochAdvance, 4, [5, 0, 0, 0, 0, 0, 0, 0]⟩, ⟨.publishClass, 6, [1]⟩], 6, 5⟩

set_option maxRecDepth 4000 in
/-- A store that has written a snapshot loses its manifest and regains its identity, its epoch, its
snapshot and its records. -/
theorem lost_manifest_rebuilt_restated : ∃ events s d t e, StoreRun .default events s d ∧
    execute (Store.open .default (List.replicate 16 9)) d = (.ok t, e) ∧ t.regained = restored ∧
    LossHarmless .default d := by
  have holds : restates restating restored = true := by decide +kernel
  obtain ⟨events, s, d, t, e, run, opened, same, restated⟩ := exists_restated holds
  exact ⟨events, s, d, t, e, run, opened, same, (lost_manifest_rebuilt run).mpr fun _ => restated⟩

end QoSFabric
