import QoSFabric.Proof.Store.Open

namespace QoSFabric

open FileSystem Interaction

structure Attached (s : Store) (d : Disk FileName) (m : Manifest) (snapshot : Option Bytes)
    (log : Bytes) : Prop where
  shows : Shows d m snapshot log
  valid : s.options.Valid
  handle : ∀ handle, s.walHandle = some handle → d.file walFileName = some handle
  walBytes : s.walBytes.toNat = log.length
  path : s.snapshotPath = snapshot.map fun _ => snapshotFileName s.snapshotSequence
  sequence : s.snapshotSequence = m.snapshotSequence
  recorded : m.lastSequence ≤ s.lastSequence

structure Live (s : Store) (d : Disk FileName) (m : Manifest) (snapshot : Option Bytes)
    (log : Bytes) : Prop where
  shows : Shows d m snapshot log
  valid : s.options.Valid
  handle : ∃ handle, d.file walFileName = some handle ∧ s.walHandle = some handle
  writable : s.readOnly = false
  walBytes : s.walBytes.toNat = log.length
  path : s.snapshotPath = snapshot.map fun _ => snapshotFileName s.snapshotSequence
  sequence : s.snapshotSequence = m.snapshotSequence
  recorded : m.lastSequence ≤ s.lastSequence

namespace Attached

variable {s s' : Store} {d d' : Disk FileName} {m : Manifest} {snapshot : Option Bytes} {log : Bytes}

theorem shows_write (attached : Attached s d m snapshot log) {handle : Handle}
    (opened : s.walHandle = some handle) (bytes : Bytes) :
    Shows (d.write handle bytes) m snapshot (log ++ bytes) := by
  have wal := attached.handle handle opened
  have other {name : FileName} (ne : name ≠ walFileName) :
      (d.write handle bytes).content name = d.content name :=
    Disk.content_write_of_ne _ fun clash => ne (Disk.file_injective clash wal)
  have content := Disk.content_write_self wal bytes
  have data : d.data handle = log :=
    Option.some.inj ((Disk.content_of_file wal).symm.trans attached.shows.log)
  refine ⟨(other manifest_ne_wal).trans attached.shows.manifest, attached.shows.sound, data ▸ content,
    attached.shows.unnamed, ?_⟩
  intro payload mem
  obtain ⟨name, fits, content⟩ := attached.shows.named payload mem
  refine ⟨name, fits, (other ?_).trans content⟩
  rw [name]
  exact snapshot_ne_wal _

theorem wrote {f : Frame} (attached : Attached s d m snapshot log) (h : Store.Wrote s s' d d' f) :
    Attached s' d' m snapshot (log ++ encodeFrame f) := by
  obtain ⟨handle, opened, rfl⟩ := h.handle
  have later : s.lastSequence ≤ f.sequence := by
    rw [UInt64.le_iff_toNat_le, h.planned.sequence]
    exact Nat.le_succ _
  have total := h.planned.total
  rw [h.members]
  refine ⟨attached.shows_write opened (encodeFrame f), attached.valid, attached.handle, ?_,
    attached.path, attached.sequence, UInt64.le_trans attached.recorded later⟩
  rw [total, attached.walBytes, List.length_append]

theorem sound_manifest (attached : Attached s d m snapshot log) : s.manifest.Sound := by
  cases snap : snapshot with
  | none =>
      have unnamed := attached.shows.sound.unnamed (attached.shows.unnamed snap)
      have path := attached.path
      rw [snap, Option.map_none] at path
      refine Manifest.sound_unnamed ?_ ?_
      · simp [Store.manifest, path]
      · exact attached.sequence.trans unnamed
  | some payload =>
      have path := attached.path
      rw [snap, Option.map_some] at path
      have name : s.manifest.snapshotName = snapshotFileName s.snapshotSequence := by
        simp [Store.manifest, path]
      exact Manifest.sound_snapshotFileName name

theorem replaced_shows (attached : Attached s d m snapshot log)
    (replaced : Replaced d d' manifestFileName s.manifest.file) :
    Shows d' s.manifest snapshot log where
  manifest := replaced.content_self
  sound := attached.sound_manifest
  log := (replaced.content_of_ne _ wal_ne_manifest (tempName_ne_wal _).symm).trans attached.shows.log
  unnamed none := by
    have path := attached.path
    rw [none, Option.map_none] at path
    simp [Store.manifest, path]
  named payload mem := by
    obtain ⟨name, fits, content⟩ := attached.shows.named payload mem
    have path := attached.path
    rw [Option.mem_def] at mem
    rw [mem, Option.map_some] at path
    have named : s.manifest.snapshotName = m.snapshotName := by
      simp [Store.manifest, path, name, attached.sequence]
    have sequence : s.manifest.snapshotSequence = m.snapshotSequence := attached.sequence
    refine ⟨named.trans (sequence ▸ name), fits, ?_⟩
    rw [named, sequence, ← content]
    refine replaced.content_of_ne _ ?_ ?_
    · rw [name]
      exact snapshot_ne_manifest _
    · rw [name]
      exact (tempName_ne_snapshot _ _).symm

theorem replaced_manifest (attached : Attached s d m snapshot log)
    (replaced : Replaced d d' manifestFileName s.manifest.file) :
    Attached s d' s.manifest snapshot log where
  shows := attached.replaced_shows replaced
  valid := attached.valid
  handle handle opened :=
    (replaced.file_of_ne _ wal_ne_manifest (tempName_ne_wal _).symm).trans
      (attached.handle handle opened)
  walBytes := attached.walBytes
  path := attached.path
  sequence := rfl
  recorded := UInt64.le_refl _

end Attached

namespace Live

variable {s s' : Store} {d d' : Disk FileName} {m : Manifest} {snapshot : Option Bytes} {log : Bytes}

theorem attached (live : Live s d m snapshot log) : Attached s d m snapshot log where
  shows := live.shows
  valid := live.valid
  handle handle opened := by
    obtain ⟨wal, file, eq⟩ := live.handle
    rwa [← Option.some.inj (eq.symm.trans opened)]
  walBytes := live.walBytes
  path := live.path
  sequence := live.sequence
  recorded := live.recorded

theorem of_attached (attached : Attached s d m snapshot log) {handle : Handle}
    (opened : s.walHandle = some handle) (writable : s.readOnly = false) :
    Live s d m snapshot log :=
  ⟨attached.shows, attached.valid, ⟨handle, attached.handle handle opened, opened⟩, writable,
    attached.walBytes, attached.path, attached.sequence, attached.recorded⟩

theorem small (live : Live s d m snapshot log) :
    s.options.maxRecordBytes ≤ Limits.maxWalRecordBytes := live.valid.small

theorem relabel (live : Live s d m snapshot log) (id : Text) (report : RecoveryReport) :
    Live { s with storeId := id, recovery := report } d m snapshot log where
  shows := live.shows
  valid := live.valid
  handle := live.handle
  writable := live.writable
  walBytes := live.walBytes
  path := live.path
  sequence := live.sequence
  recorded := live.recorded

theorem shows_write (live : Live s d m snapshot log) {handle : Handle}
    (opened : s.walHandle = some handle) (bytes : Bytes) :
    d.file walFileName = some handle ∧ Shows (d.write handle bytes) m snapshot (log ++ bytes) :=
  ⟨live.attached.handle handle opened, live.attached.shows_write opened bytes⟩

theorem wrote {f : Frame} (live : Live s d m snapshot log) (h : Store.Wrote s s' d d' f) :
    Live s' d' m snapshot (log ++ encodeFrame f) := by
  obtain ⟨handle, opened, -⟩ := h.handle
  have attached := live.attached.wrote h
  have members := h.members
  exact of_attached attached (by rw [members]; exact opened) (by rw [members]; exact live.writable)

theorem sound_manifest (live : Live s d m snapshot log) : s.manifest.Sound :=
  live.attached.sound_manifest

theorem wp_writeManifest {crash : Disk FileName → Prop} {post : Result Unit → Disk FileName → Prop}
    (sound : s.manifest.Sound)
    (before : ∀ e, SameBut d e (tempName manifestFileName) → crash e)
    (after : ∀ e, Replaced d e manifestFileName s.manifest.file → crash e ∧ post (.ok ()) e) :
    s.writeManifest.wp Disk.world crash post d := by
  unfold Store.writeManifest
  rw [encodeManifest_eq sound]
  dsimp only
  rw [Program.wp_bind]
  refine wp_writeFileAtomic (fun e same => before e same) ?_
  intro e replaced
  obtain ⟨safe, done⟩ := after e replaced
  refine ⟨safe, ?_⟩
  dsimp only
  rw [Disk.wp_syncDirectory]
  exact ⟨safe, safe, done⟩

theorem replaced_manifest (live : Live s d m snapshot log)
    (replaced : Replaced d d' manifestFileName s.manifest.file) :
    Live s d' s.manifest snapshot log := by
  obtain ⟨handle, -, opened⟩ := live.handle
  exact of_attached (live.attached.replaced_manifest replaced) opened live.writable

theorem execute_writeManifest (live : Live s d m snapshot log) :
    ∃ d', execute s.writeManifest d = (.ok (), d') ∧ Live s d' s.manifest snapshot log := by
  have weakest : s.writeManifest.wp Disk.world (fun _ => True)
      (fun r e => r = .ok () ∧ Live s e s.manifest snapshot log) d :=
    wp_writeManifest live.sound_manifest (fun _ _ => trivial)
      fun e replaced => ⟨trivial, rfl, live.replaced_manifest replaced⟩
  obtain ⟨result, live⟩ := Program.wp_run weakest
  exact ⟨_, Prod.ext result rfl, live⟩

end Live

theorem applyBody_lastSequence (s : Replay) (f : Frame) :
    (applyBody s f).1.lastSequence = s.lastSequence := by
  unfold applyBody Replay.commit Replay.abort
  split <;> (repeat' split) <;> rfl

theorem le_applyFrame (snapshotSequence bound : UInt64) (s : Replay) (f : Frame)
    (h : bound ≤ s.lastSequence) : bound ≤ (applyFrame snapshotSequence s f).1.lastSequence := by
  unfold applyFrame
  dsimp only
  split
  · exact h
  · rw [applyBody_lastSequence, Replay.noteSequence]
    dsimp only
    split
    · next later => exact UInt64.le_trans h (UInt64.le_of_lt later)
    · exact h

theorem le_replayOf (s : Store) (log : Bytes) :
    s.lastSequence ≤ (s.replayOf log).1.lastSequence :=
  Framing.scan_keeps (P := fun r : Replay => s.lastSequence ≤ r.lastSequence)
    (fun r f => le_applyFrame s.snapshotSequence s.lastSequence r f) (UInt64.le_refl _)

section Opening

variable {options : StoreOptions} {d d' : Disk FileName} {m : Manifest} {snapshot : Option Bytes}
  {log boot : Bytes} {s t : Store}

def keptOf (options : StoreOptions) (m : Manifest) (log : Bytes) : Bytes :=
  log.take ((((Store.fresh options).adopt m).cutOf log).getD log.length)

theorem Live.recovered (valid : options.Valid) (small : log.length ≤ maxWalScanBytes)
    (recovered : Store.Recovered options m snapshot log t)
    (shows : Shows d m snapshot (keptOf options m log)) {handle : Handle}
    (file : d.file walFileName = some handle) :
    Live { t with walHandle := some handle } d m snapshot (keptOf options m log) where
  shows := shows
  valid := by
    have := recovered.replayed.options
    dsimp only at this ⊢
    rw [this]
    exact valid
  handle := ⟨handle, file, rfl⟩
  writable := recovered.replayed.readOnly
  walBytes := by
    have size := recovered.replayed.walBytes
    have le : (((Store.fresh options).adopt m).cutOf log).getD log.length ≤ log.length := by
      cases cut : ((Store.fresh options).adopt m).cutOf log with
      | none => exact Nat.le_refl _
      | some length => exact Store.cutOf_le _ log length cut
    dsimp only at size ⊢
    have bound : (((Store.fresh options).adopt m).cutOf log).getD log.length < 2 ^ 64 :=
      Nat.lt_of_le_of_lt (Nat.le_trans le small) (by decide)
    rw [size, UInt64.toNat_ofNat', Nat.mod_eq_of_lt bound, keptOf, List.length_take,
      Nat.min_eq_left le]
  path := by
    have path := recovered.replayed.snapshotPath
    have sequence := recovered.replayed.snapshotSequence
    dsimp only at path sequence ⊢
    rw [path, sequence]
    exact Store.adopt_snapshotPath (Store.fresh options) shows
  sequence := recovered.replayed.snapshotSequence
  recorded := by
    have last := recovered.replayed.lastSequence
    dsimp only at last ⊢
    rw [last]
    exact le_replayOf ((Store.fresh options).adopt m) log

def headerFrame (boot : Bytes) (sequence : Sequence) : Frame :=
  ⟨.storeHeader, flagNone, sequence, 0, (sha256 boot).bytes⟩

inductive Concluded (boot : Bytes) (t s : Store) (d d' : Disk FileName) : Prop where
  | known (identified : t.identified = true) (untouched : d' = d)
      (same : s = { t with recovery := { t.recovery with lastSequence := t.lastSequence } })
  | minted (unknown : t.identified = false) (sequence : Sequence) (u : Store) (e : Disk FileName)
      (wrote : Store.Wrote { t with storeId := (sha256 boot).hex } u d e (headerFrame boot sequence))
      (published : execute u.writeManifest e = (.ok (), d'))
      (same : s = { u with recovery := { u.recovery with lastSequence := u.lastSequence } })

theorem concluded_of_execute (small : t.options.maxRecordBytes ≤ Limits.maxWalRecordBytes)
    (h : execute (t.conclude boot) d = (.ok s, d')) : Concluded boot t s d d' := by
  unfold Store.conclude Store.mintIdentity at h
  by_cases identified : t.identified = true
  · rw [if_pos identified] at h
    cases h
    exact .known identified rfl rfl
  rw [if_neg identified] at h
  dsimp only at h
  rw [execute_bind, execute_bind] at h
  cases appended : execute (Store.append { t with storeId := (sha256 boot).hex } .storeHeader
      (sha256 boot).bytes) d with
  | mk outcome e =>
      obtain ⟨result, u⟩ := outcome
      rw [appended] at h
      have small' : { t with storeId := (sha256 boot).hex }.options.maxRecordBytes ≤
          Limits.maxWalRecordBytes := small
      rcases Store.execute_append small' appended with ⟨-, -, failure, rfl⟩ | ⟨sequence, rfl, wrote⟩
      · cases h
      dsimp only at h
      rw [execute_bind] at h
      cases published : execute u.writeManifest e with
      | mk result e' =>
          rw [published] at h
          cases result with
          | error failure => cases h
          | ok =>
              cases h
              exact .minted (Bool.not_eq_true _ ▸ identified) sequence u e wrote published rfl

structure Reopened (options : StoreOptions) (m : Manifest) (snapshot : Option Bytes)
    (log boot : Bytes) (s : Store) (d : Disk FileName) (m' : Manifest) (header : List Frame) :
    Prop where
  readable : Store.Readable options m snapshot log
  live : Live s d m' snapshot (keptOf options m log ++ header.flatMap encodeFrame)
  same_options : s.options = options
  identity : m.storeId.isZero = false → s.storeId = m.storeId.hex
  sequence : s.snapshotSequence = m.snapshotSequence
  epoch : s.durableEpoch = (((Store.fresh options).adopt m).replayOf log).1.durableEpoch
  replayed : s.replayed = (((Store.fresh options).adopt m).replayOf log).1.replayed
  snapshotBytes : s.snapshotBytes = snapshot.getD []
  unfinished : s.recovery.unfinishedIntents =
    (((Store.fresh options).adopt m).replayOf log).1.staged.length
  header : (header = [] ∧ m' = m ∧
      s.lastSequence = (((Store.fresh options).adopt m).replayOf log).1.lastSequence) ∨
    (m.storeId.isZero = true ∧ header = [headerFrame boot s.lastSequence] ∧
      (headerFrame boot s.lastSequence).Fits options.maxRecordBytes ∧
      s.lastSequence.toNat =
        (((Store.fresh options).adopt m).replayOf log).1.lastSequence.toNat + 1 ∧
      m'.lastSequence = s.lastSequence)

theorem execute_open (valid : options.Valid) (boot : Bytes) (d : Disk FileName) :
    execute (Store.open options boot) d = execute (Store.openImpl options boot) d := by
  have record : ¬(options.maxRecordBytes = 0 ∨ options.maxRecordBytes > Limits.maxWalRecordBytes) := by
    have := valid.positive
    have := valid.small
    omega
  rw [Store.open, if_neg (not_not.mpr valid.version), if_neg record]

theorem identified_of_storeId {t : Store} (same : t.storeId = s.storeId) :
    t.identified = s.identified := by
  unfold Store.identified
  rw [same]

theorem identified_iff {t : Store} {m : Manifest} (id : t.storeId = m.storeId.hex) :
    t.identified = !m.storeId.isZero := by
  rw [Store.identified, id, Digest256.parseHex_hex]

theorem reopened_of_open (valid : options.Valid) (shows : Shows d m snapshot log)
    (h : execute (Store.open options boot) d = (.ok s, d')) :
    ∃ m' header, Reopened options m snapshot log boot s d' m' header := by
  rw [execute_open valid] at h
  have run := Store.execute_openImpl valid shows boot
  cases recover : Store.recover options m snapshot log with
  | error e =>
      rw [recover, h] at run
      obtain ⟨d₁, -, failed⟩ := run
      cases failed
  | ok outcome =>
      obtain ⟨t, cut⟩ := outcome
      have readable := Store.readable_of_recover recover
      obtain ⟨u, computed, recovered⟩ := Store.recover_of_readable readable
      obtain ⟨rfl, rfl⟩ := Prod.mk.inj (Except.ok.inj (recover.symm.trans computed))
      rw [recover] at run
      obtain ⟨d₁, handle, shows₁, file, eq⟩ := run
      have live := Live.recovered valid readable.log_small recovered shows₁ file
      have replays := recovered.replayed
      have small := live.small
      have identity := identified_iff (t := { t with walHandle := some handle }) (m := m)
        replays.storeId
      rw [eq] at h
      rcases concluded_of_execute small h with
        ⟨-, rfl, rfl⟩ | ⟨unknown, sequence, u, e, wrote, published, rfl⟩
      · refine ⟨m, [], readable, ?_, replays.options, fun _ => replays.storeId,
          replays.snapshotSequence, replays.durableEpoch, replays.replayed, recovered.snapshotBytes,
          replays.unfinished.trans (Nat.zero_add _), .inl ⟨rfl, rfl, replays.lastSequence⟩⟩
        rw [List.flatMap_nil, List.append_nil]
        exact live.relabel _ _
      · have live₁ := (live.relabel (sha256 boot).hex t.recovery).wrote wrote
        obtain ⟨d₂, published₂, live₂⟩ := live₁.execute_writeManifest
        obtain ⟨-, rfl⟩ := Prod.mk.inj (published.symm.trans published₂)
        have zero : m.storeId.isZero = true := by
          rw [unknown] at identity
          simpa using identity
        have members := wrote.members
        have next := wrote.planned.sequence
        rw [replays.lastSequence] at next
        have fits := wrote.planned.fits
        rw [members]
        refine ⟨u.manifest, [headerFrame boot sequence], readable, ?_, replays.options, ?_,
          replays.snapshotSequence, replays.durableEpoch, replays.replayed, recovered.snapshotBytes,
          replays.unfinished.trans (Nat.zero_add _), .inr ⟨zero, rfl, ?_, next, ?_⟩⟩
        · rw [List.flatMap_singleton, ← members]
          exact live₂.relabel _ _
        · intro known
          exact absurd (zero.symm.trans known) Bool.noConfusion
        · have same := replays.options
          dsimp only at same fits
          rwa [same] at fits
        · rw [members]
          rfl

def Store.blank (options : StoreOptions) : Store :=
  (Store.fresh options).rebuildFromSnapshot none

theorem execute_rebuildFromLog_of_absent (s : Store) (absent : d.file walFileName = none) :
    execute s.rebuildFromLog d = (s, d) := by
  unfold Store.rebuildFromLog
  rw [execute_bind, execute_exists, absent]
  rfl

theorem execute_loadOrRebuild_empty (options : StoreOptions) :
    ∃ d report, execute (Store.fresh options).loadOrRebuild Disk.empty =
        (.ok { Store.blank options with recovery := report }, d) ∧
      d.content manifestFileName = some (Store.blank options).manifest.file ∧
      d.file walFileName = none ∧ report.unfinishedIntents = 0 := by
  have sound : (Store.blank options).manifest.Sound := Manifest.sound_unnamed rfl rfl
  have weakest : (Store.blank options).writeManifest.wp Disk.world
      (fun _ => True) (fun r e => r = .ok () ∧
        Replaced Disk.empty e manifestFileName (Store.blank options).manifest.file) Disk.empty :=
    Live.wp_writeManifest sound (fun _ _ => trivial) fun _ replaced => ⟨trivial, rfl, replaced⟩
  obtain ⟨result, replaced⟩ := Program.wp_run weakest
  have written : execute (Store.blank options).writeManifest Disk.empty =
      (.ok (), (execute (Store.blank options).writeManifest Disk.empty).2) := Prod.ext result rfl
  have absent (name : FileName) : (Disk.empty : Disk FileName).file name = none := by
    simp [Disk.file, Disk.empty]
  have rebuilt : execute (Store.fresh options).rebuildManifest Disk.empty =
      (.ok { Store.blank options with recovery := { RecoveryReport.none with
        detail := text "manifest rebuilt from durable artifacts; " } },
        (execute (Store.blank options).writeManifest Disk.empty).2) := by
    have empty : (Disk.empty : Disk FileName).names.keys = [] := rfl
    have listed : execute listDirectory Disk.empty = (.ok [], Disk.empty) := by
      unfold listDirectory
      rw [execute_bind, execute_list, empty]
      rfl
    unfold Store.rebuildManifest
    rw [execute_bind, listed]
    dsimp only
    rw [execute_bind, Store.bestSnapshot, execute_pure]
    dsimp only
    rw [execute_bind, execute_rebuildFromLog_of_absent _ (absent _), ← Store.blank, execute_bind,
      written]
    rfl
  refine ⟨_, { RecoveryReport.none with
      detail := text "manifest rebuilt from durable artifacts; "
      manifestRebuilt := true }, ?_, replaced.content_self, ?_, rfl⟩
  · unfold Store.loadOrRebuild Store.loadManifest
    rw [execute_bind, execute_bind, execute_exists, absent]
    dsimp only
    rw [Option.isSome_none, Bool.not_false, if_pos rfl, execute_pure]
    dsimp only
    rw [if_neg (by decide), execute_bind, rebuilt]
    rfl
  · rw [replaced.file_of_ne _ wal_ne_manifest (tempName_ne_wal _).symm]
    exact absent _

theorem execute_loadSnapshot_of_none {s : Store} (path : s.snapshotPath = none) :
    execute s.loadSnapshot d = (.ok s, d) := by
  rw [Store.loadSnapshot, path]
  rfl

theorem execute_replayLog_of_absent {s : Store} (absent : d.file walFileName = none) :
    execute s.replayLog d = (.ok { s with walBytes := 0 }, d) := by
  unfold Store.replayLog
  rw [execute_bind, execute_exists, absent]
  rfl

theorem execute_reopenWal_of_absent {s : Store} (absent : d.file walFileName = none) :
    execute s.reopenWal d =
      ((.ok (), { s with walHandle := some (d.create walFileName).1 }), (d.create walFileName).2) := by
  unfold Store.reopenWal
  rw [execute_bind, execute_openAppend, Disk.openAppend_of_absent absent,
    Disk.create_of_absent absent]
  rfl

def identityManifest (boot : Bytes) : Manifest := ⟨sha256 boot, 0, 0, 1, []⟩

structure Created (options : StoreOptions) (boot : Bytes) (s : Store) (d : Disk FileName) : Prop where
  live : Live s d (identityManifest boot) none (encodeFrame (headerFrame boot 1))
  fits : (headerFrame boot 1).Fits options.maxRecordBytes
  same_options : s.options = options
  identity : s.storeId = (sha256 boot).hex
  epoch : s.durableEpoch = 0
  lastSequence : s.lastSequence = 1

theorem created_of_empty (valid : options.Valid)
    (h : execute (Store.open options boot) Disk.empty = (.ok s, d')) : Created options boot s d' := by
  obtain ⟨d₁, report, loaded, manifest, absent, -⟩ := execute_loadOrRebuild_empty options
  rw [execute_open valid] at h
  unfold Store.openImpl at h
  rw [execute_bind, loaded] at h
  dsimp only at h
  rw [execute_bind, Store.execute_listDirectory, execute_bind] at h
  generalize listedNames (execute listDirectory d₁).1 = names at h
  have temps := @execute_removeTemps d₁ names walFileName (by decide)
  rw [execute_bind, execute_loadSnapshot_of_none rfl] at h
  dsimp only at h
  rw [execute_bind, execute_replayLog_of_absent (temps.1.trans absent)] at h
  dsimp only at h
  rw [execute_bind, execute_bind] at h
  have orphans {name : FileName} (last : name.getLast? ≠ some 110) :=
    execute_removeOrphans (execute (removeAll (names.filter isTempName)) d₁).2 names
      ({ Store.blank options with recovery := report, walBytes := 0 } : Store).snapshotPath last
  have manifest₃ := (orphans (by decide)).2.trans
    ((execute_removeTemps d₁ names (by decide)).2.trans manifest)
  have absent₃ := (orphans (by decide)).1.trans (temps.1.trans absent)
  generalize (execute (removeAll (names.filter fun name => isSnapshotName name &&
    ({ Store.blank options with recovery := report, walBytes := 0 } : Store).snapshotPath ≠ some name))
      (execute (removeAll (names.filter isTempName)) d₁).2).2 = e at h manifest₃ absent₃
  rw [execute_reopenWal_of_absent absent₃] at h
  dsimp only at h
  have live : Live { Store.blank options with
      recovery := report
      walBytes := 0
      walHandle := some (e.create walFileName).1 } (e.create walFileName).2
        (Store.blank options).manifest none [] :=
    { shows :=
        { manifest := (Disk.content_create_of_ne manifest_ne_wal).trans manifest₃
          sound := Manifest.sound_unnamed rfl rfl
          log := Disk.content_create_self
          unnamed := fun _ => rfl
          named := by simp }
      valid := valid
      handle := ⟨_, Disk.file_create_self, rfl⟩
      writable := rfl
      walBytes := rfl
      path := rfl
      sequence := rfl
      recorded := UInt64.le_refl _ }
  have unknown : ({ Store.blank options with
      recovery := report
      walBytes := 0
      walHandle := some (e.create walFileName).1 } : Store).identified = false := by
    have id : (Store.blank options).storeId = Digest256.zero.hex := rfl
    rw [Store.identified, id, Digest256.parseHex_hex]
    rfl
  rcases concluded_of_execute live.small h with
    ⟨known, -, -⟩ | ⟨-, sequence, u, e₁, wrote, published, rfl⟩
  · rw [unknown] at known
    exact absurd known Bool.false_ne_true
  · have live₁ := (live.relabel (sha256 boot).hex report).wrote wrote
    obtain ⟨d₂, published₂, live₂⟩ := live₁.execute_writeManifest
    obtain ⟨-, rfl⟩ := Prod.mk.inj (published.symm.trans published₂)
    have first : sequence = 1 := UInt64.toNat_inj.mp wrote.planned.sequence
    subst first
    have members := wrote.members
    have manifest : u.manifest = identityManifest boot := by
      rw [members]
      exact congrArg (fun id => (⟨Option.getD id .zero, 0, 0, 1, []⟩ : Manifest))
        (Digest256.parseHex_hex _)
    rw [List.nil_append, manifest] at live₂
    refine ⟨live₂.relabel _ _, wrote.planned.fits, ?_, ?_, ?_, ?_⟩
    all_goals rw [members]
    all_goals rfl

end Opening

end QoSFabric
