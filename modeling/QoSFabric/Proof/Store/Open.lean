import QoSFabric.Proof.Store.Append

namespace QoSFabric

open FileSystem Interaction

/-- The options `Store::Open` accepts. -/
structure StoreOptions.Valid (options : StoreOptions) : Prop where
  version : options.formatVersion = storeFormatVersion
  positive : 0 < options.maxRecordBytes
  small : options.maxRecordBytes ≤ Limits.maxWalRecordBytes

structure Shows (d : Disk FileName) (m : Manifest) (snapshot : Option Bytes) (log : Bytes) :
    Prop where
  manifest : d.content manifestFileName = some m.file
  sound : m.Sound
  log : d.content walFileName = some log
  unnamed : snapshot = none → m.snapshotName = []
  named : ∀ payload ∈ snapshot, m.snapshotName = snapshotFileName m.snapshotSequence ∧
    payload.length ≤ Limits.maxSnapshotBytes ∧
    d.content m.snapshotName = some (snapshotFile m.snapshotSequence payload)

theorem Shows.congr {d d' : Disk FileName} {m : Manifest} {snapshot : Option Bytes} {log : Bytes}
    (h : Shows d m snapshot log) (manifest : d'.content manifestFileName = d.content manifestFileName)
    (wal : d'.content walFileName = d.content walFileName)
    (files : ∀ s, snapshotFileName s = m.snapshotName →
      d'.content m.snapshotName = d.content m.snapshotName) : Shows d' m snapshot log where
  manifest := manifest.trans h.manifest
  sound := h.sound
  log := wal.trans h.log
  unnamed := h.unnamed
  named payload mem := by
    obtain ⟨name, small, content⟩ := h.named payload mem
    exact ⟨name, small, (files _ name.symm).trans content⟩

theorem execute_removeAll {names : List FileName} {d : Disk FileName} {other : FileName}
    (kept : other ∉ names) :
    (execute (removeAll names) d).2.file other = d.file other ∧
      (execute (removeAll names) d).2.content other = d.content other := by
  induction names generalizing d with
  | nil => exact ⟨rfl, rfl⟩
  | cons name names ih =>
      have ne : other ≠ name := fun eq => kept (eq ▸ List.mem_cons_self)
      have rest := ih (d := d.remove name) fun mem => kept (List.mem_cons_of_mem _ mem)
      rw [removeAll, execute_bind, execute_remove, rest.1, rest.2, Disk.file_remove_of_ne ne,
        Disk.content_remove_of_ne ne]
      exact ⟨rfl, rfl⟩

variable {d : Disk FileName} {m : Manifest} {snapshot : Option Bytes} {log : Bytes}
  {options : StoreOptions}

theorem execute_removeTemps (d : Disk FileName) (names : List FileName) {name : FileName}
    (last : name.getLast? ≠ some 112) :
    (execute (removeAll (names.filter isTempName)) d).2.file name = d.file name ∧
      (execute (removeAll (names.filter isTempName)) d).2.content name = d.content name := by
  refine execute_removeAll fun mem => ?_
  rw [List.mem_filter, not_isTempName last] at mem
  exact Bool.false_ne_true mem.2

theorem execute_removeOrphans (d : Disk FileName) (names : List FileName) (path : Option FileName)
    {name : FileName} (last : name.getLast? ≠ some 110) :
    (execute (removeAll (names.filter fun name => isSnapshotName name && path ≠ some name))
        d).2.file name = d.file name ∧
      (execute (removeAll (names.filter fun name => isSnapshotName name && path ≠ some name))
        d).2.content name = d.content name := by
  refine execute_removeAll fun mem => ?_
  rw [List.mem_filter, not_isSnapshotName last, Bool.false_and] at mem
  exact Bool.false_ne_true mem.2

theorem Shows.removeTemps (shows : Shows d m snapshot log) (names : List FileName) :
    Shows (execute (removeAll (names.filter isTempName)) d).2 m snapshot log :=
  shows.congr (execute_removeTemps d names (by decide)).2
    (execute_removeTemps d names (by decide)).2 fun sequence named => by
      rw [← named]
      exact (execute_removeTemps d names (by simp [getLast?_snapshotFileName])).2

theorem Shows.removeOrphans (shows : Shows d m snapshot log) (names : List FileName)
    {path : Option FileName}
    (referenced : path = snapshot.map fun _ => snapshotFileName m.snapshotSequence) :
    Shows (execute (removeAll (names.filter fun name => isSnapshotName name && path ≠ some name)) d).2
      m snapshot log where
  manifest := (execute_removeOrphans d names path (by decide)).2.trans shows.manifest
  sound := shows.sound
  log := (execute_removeOrphans d names path (by decide)).2.trans shows.log
  unnamed := shows.unnamed
  named payload mem := by
    obtain ⟨name, small, content⟩ := shows.named payload mem
    refine ⟨name, small, (execute_removeAll ?_).2.trans content⟩
    rw [Option.mem_def] at mem
    rw [List.mem_filter, referenced, mem, name]
    simp

theorem Shows.cut (shows : Shows d m snapshot log) {length : Nat} (le : length ≤ log.length) :
    Shows (d.truncate walFileName length) m snapshot (log.take length) where
  manifest := (Disk.content_truncate_of_ne manifest_ne_wal).trans shows.manifest
  sound := shows.sound
  log := Disk.content_truncate_self shows.log le
  unnamed := shows.unnamed
  named payload mem := by
    obtain ⟨name, small, content⟩ := shows.named payload mem
    refine ⟨name, small, Eq.trans (Disk.content_truncate_of_ne ?_) content⟩
    rw [name]
    exact snapshot_ne_wal _

namespace Store

def withSnapshot (s : Store) : Option Bytes → Result Store
  | none => .ok s
  | some payload =>
      if 28 + payload.length > Limits.maxSnapshotBytes then
        .error (makeError .tooLarge "file exceeds the configured read budget")
      else .ok { s with
        snapshotBytes := payload
        recovery := { s.recovery with snapshotLoaded := true, snapshotSequence := s.snapshotSequence } }

def recoverFrom (s : Store) (snapshot : Option Bytes) (log : Bytes) :
    Result (Store × Option Nat) :=
  match s.withSnapshot snapshot with
  | .error e => .error e
  | .ok s =>
      if log.length > maxWalScanBytes then
        .error (makeError .tooLarge "file exceeds the configured read budget")
      else s.readLog log

def recover (options : StoreOptions) (m : Manifest) (snapshot : Option Bytes) (log : Bytes) :
    Result (Store × Option Nat) :=
  ((fresh options).adopt m).recoverFrom snapshot log

theorem isSome_file_of_content {name : FileName} {bytes : Bytes}
    (h : d.content name = some bytes) : (d.file name).isSome = true := by
  obtain ⟨handle, file, -⟩ := Disk.content_eq_some.mp h
  rw [file, Option.isSome_some]

theorem execute_loadManifest_of_content (valid : options.Valid) (sound : m.Sound)
    (manifest : d.content manifestFileName = some m.file)
    (found : m.snapshotName ≠ [] →
      (pathEntry m.snapshotName).all (fun entry => (d.file entry).isSome) = true) :
    execute (fresh options).loadManifest d = (.ok ((fresh options).adopt m), d) := by
  have short : ¬m.file.length > 65536 := by
    have := sound.short
    rw [Manifest.length_file]
    omega
  have decoded : decodeManifest (fresh options).options.formatVersion m.file = .ok m := by
    rw [show (fresh options).options.formatVersion = storeFormatVersion from valid.version]
    exact decodeManifest_file sound
  unfold loadManifest
  rw [execute_bind, execute_exists, isSome_file_of_content manifest]
  simp only [Bool.not_true, Bool.false_eq_true, if_false]
  rw [execute_bind, execute_readFile manifest, if_neg short]
  simp only [decoded]
  split
  · rfl
  · next named =>
      rw [List.isEmpty_iff] at named
      rw [execute_bind, execute_pathExists, found named]
      rfl

theorem execute_loadManifest (valid : options.Valid) (shows : Shows d m snapshot log) :
    execute (fresh options).loadManifest d = (.ok ((fresh options).adopt m), d) := by
  apply execute_loadManifest_of_content valid shows.sound shows.manifest
  intro named
  cases h : snapshot with
  | none => exact absurd (shows.unnamed h) named
  | some payload =>
      obtain ⟨name, -, content⟩ := shows.named payload h
      rw [name] at content ⊢
      rw [pathEntry_snapshotFileName, Option.all_some]
      exact isSome_file_of_content content

theorem execute_loadOrRebuild (valid : options.Valid) (shows : Shows d m snapshot log) :
    execute (fresh options).loadOrRebuild d = (.ok ((fresh options).adopt m), d) := by
  unfold loadOrRebuild
  rw [execute_bind, execute_loadManifest valid shows]
  rfl

theorem snapshotFileName_ne_nil (sequence : UInt64) : snapshotFileName sequence ≠ [] := by
  simp [snapshotFileName, snapshotPrefix_eq]

theorem adopt_snapshotPath (s : Store) (shows : Shows d m snapshot log) :
    (s.adopt m).snapshotPath = snapshot.map fun _ => snapshotFileName m.snapshotSequence := by
  cases h : snapshot with
  | none =>
      rw [adopt, shows.unnamed h]
      rfl
  | some payload =>
      obtain ⟨name, -, -⟩ := shows.named payload h
      have ne := snapshotFileName_ne_nil m.snapshotSequence
      simp [adopt, name, ne]

theorem execute_loadSnapshot {s : Store} (shows : Shows d m snapshot log)
    (path : s.snapshotPath = snapshot.map fun _ => snapshotFileName m.snapshotSequence)
    (sequence : s.snapshotSequence = m.snapshotSequence) :
    execute s.loadSnapshot d = (s.withSnapshot snapshot, d) := by
  unfold loadSnapshot
  rw [path]
  cases h : snapshot with
  | none => rfl
  | some payload =>
      obtain ⟨name, small, content⟩ := shows.named payload h
      rw [name] at content
      simp only [Option.map_some]
      rw [execute_bind, readPath_snapshotFileName, execute_readFile content, length_snapshotFile]
      by_cases large : 28 + payload.length > Limits.maxSnapshotBytes
      · simp only [if_pos large, withSnapshot]
        rfl
      · rw [h, Option.map_some] at path
        simp only [if_neg large, withSnapshot, decodeSnapshot_snapshotFile _ small, sequence, path,
          ne_eq, not_true_eq_false, if_false]
        rfl

theorem execute_replayLog (s : Store) (h : d.content walFileName = some log) :
    execute s.replayLog d =
      if log.length > maxWalScanBytes then
        (.error (makeError .tooLarge "file exceeds the configured read budget"), d)
      else match s.readLog log with
        | .error e => (.error e, d)
        | .ok (s, none) => (.ok s, d)
        | .ok (s, some goodEnd) => (.ok s, d.truncate walFileName goodEnd) := by
  unfold replayLog
  rw [execute_bind, execute_exists, isSome_file_of_content h]
  simp only [Bool.not_true, Bool.false_eq_true, if_false]
  rw [execute_bind, execute_readFile h]
  by_cases large : log.length > maxWalScanBytes
  · simp only [if_pos large]
    rfl
  · simp only [if_neg large]
    cases s.readLog log with
    | error e => rfl
    | ok read =>
        obtain ⟨t, cut⟩ := read
        cases cut <;> rfl

def replayOf (s : Store) (log : Bytes) : Replay × Framing.Stop :=
  replayLoop s.options.maxRecordBytes s.snapshotSequence (.start s.lastSequence s.durableEpoch) log

def cutOf (s : Store) (log : Bytes) : Option Nat :=
  (tailOf (s.replayOf log).2).map fun tail => log.length - tail.dropped

def Admits (s : Store) (log : Bytes) : Prop :=
  ∀ tail ∈ tailOf (s.replayOf log).2,
    tail.refused s.options.maxRecordBytes s.options.repairTruncateCorruptTail = false

structure Replayed (s t : Store) (log : Bytes) : Prop where
  options : t.options = s.options
  storeId : t.storeId = s.storeId
  snapshotPath : t.snapshotPath = s.snapshotPath
  lastSequence : t.lastSequence = (s.replayOf log).1.lastSequence
  durableEpoch : t.durableEpoch = (s.replayOf log).1.durableEpoch
  walBytes : t.walBytes = UInt64.ofNat ((s.cutOf log).getD log.length)
  snapshotSequence : t.snapshotSequence = s.snapshotSequence
  stagedCount : t.stagedCount = s.stagedCount
  replayed : t.replayed = s.replayed ++ (s.replayOf log).1.replayed
  snapshotBytes : t.snapshotBytes = s.snapshotBytes
  unfinished : t.recovery.unfinishedIntents =
    s.recovery.unfinishedIntents + (s.replayOf log).1.staged.length
  readOnly : t.readOnly = s.readOnly

theorem readLog_of_admits {s : Store} (admits : s.Admits log) :
    ∃ t, s.readLog log = .ok (t, s.cutOf log) ∧ s.Replayed t log := by
  have tails := admits
  rw [Admits] at tails
  unfold readLog cutOf
  rw [← replayOf]
  dsimp only
  cases behind : tailOf (s.replayOf log).2 with
  | none =>
      refine ⟨_, rfl, ?_⟩
      constructor <;> first | rfl | rw [cutOf, behind]; rfl
  | some tail =>
      have admitted : ¬tail.refused (s.absorb (s.replayOf log).1 log.length).options.maxRecordBytes
          (s.absorb (s.replayOf log).1 log.length).options.repairTruncateCorruptTail = true := by
        rw [absorb, tails tail behind]
        exact Bool.false_ne_true
      dsimp only
      rw [if_neg admitted]
      refine ⟨_, rfl, ?_⟩
      constructor <;> first | rfl | rw [cutOf, behind]; rfl

theorem admits_of_readLog {s t : Store} {cut : Option Nat} (h : s.readLog log = .ok (t, cut)) :
    s.Admits log := by
  intro tail behind
  rw [Option.mem_def] at behind
  unfold readLog at h
  rw [← replayOf] at h
  dsimp only at h
  rw [behind] at h
  dsimp only at h
  split at h
  · cases h
  · next admitted => exact Bool.not_eq_true _ ▸ admitted

theorem readLog_of_not_admits {s : Store} (refuses : ¬s.Admits log) :
    s.readLog log = .error (makeError .corrupt ("write-ahead log holds a corrupted frame; the store " ++
      "refuses to interpret or discard it silently")) := by
  unfold readLog
  rw [← replayOf]
  dsimp only
  cases behind : tailOf (s.replayOf log).2 with
  | none =>
      refine absurd ?_ refuses
      intro tail some
      rw [behind] at some
      cases some
  | some tail =>
      dsimp only
      split
      · rfl
      next admitted =>
        refine absurd ?_ refuses
        intro other some
        rw [behind] at some
        cases some
        exact Bool.eq_false_of_not_eq_true admitted

structure Readable (options : StoreOptions) (m : Manifest) (snapshot : Option Bytes) (log : Bytes) :
    Prop where
  snapshot_small : ∀ payload ∈ snapshot, 28 + payload.length ≤ Limits.maxSnapshotBytes
  log_small : log.length ≤ maxWalScanBytes
  admits : ((fresh options).adopt m).Admits log

theorem withSnapshot_of_small {s : Store}
    (small : ∀ payload ∈ snapshot, 28 + payload.length ≤ Limits.maxSnapshotBytes) :
    s.withSnapshot snapshot = .ok { s with
      snapshotBytes := snapshot.getD s.snapshotBytes
      recovery := { s.recovery with
        snapshotLoaded := s.recovery.snapshotLoaded || snapshot.isSome
        snapshotSequence := if snapshot.isSome then s.snapshotSequence
          else s.recovery.snapshotSequence } } := by
  cases snapshot with
  | none => simp [withSnapshot]
  | some payload => simp [withSnapshot, Nat.not_lt.mpr (small payload rfl)]

theorem small_of_withSnapshot {s t : Store} (h : s.withSnapshot snapshot = .ok t) :
    ∀ payload ∈ snapshot, 28 + payload.length ≤ Limits.maxSnapshotBytes := by
  rintro payload mem
  rw [Option.mem_def] at mem
  subst mem
  unfold withSnapshot at h
  dsimp only at h
  split at h
  · cases h
  · next fits => exact Nat.not_lt.mp fits

theorem recoverFrom_of_admits {s : Store}
    (small : ∀ payload ∈ snapshot, 28 + payload.length ≤ Limits.maxSnapshotBytes)
    (within : log.length ≤ maxWalScanBytes) (admits : s.Admits log) :
    ∃ t, s.recoverFrom snapshot log = .ok (t, s.cutOf log) ∧
      s.Replayed { t with snapshotBytes := s.snapshotBytes } log ∧
      t.snapshotBytes = snapshot.getD s.snapshotBytes := by
  rw [recoverFrom, withSnapshot_of_small small]
  dsimp only
  rw [if_neg (Nat.not_lt.mpr within)]
  obtain ⟨t, read, replayed⟩ := readLog_of_admits (s := { s with
      snapshotBytes := snapshot.getD s.snapshotBytes
      recovery := { s.recovery with
        snapshotLoaded := s.recovery.snapshotLoaded || snapshot.isSome
        snapshotSequence := if snapshot.isSome then s.snapshotSequence
          else s.recovery.snapshotSequence } }) admits
  exact ⟨t, read, ⟨replayed.options, replayed.storeId, replayed.snapshotPath,
    replayed.lastSequence, replayed.durableEpoch, replayed.walBytes, replayed.snapshotSequence,
    replayed.stagedCount, replayed.replayed, rfl, replayed.unfinished, replayed.readOnly⟩,
    replayed.snapshotBytes⟩

structure Recovered (options : StoreOptions) (m : Manifest) (snapshot : Option Bytes) (log : Bytes)
    (s : Store) : Prop where
  replayed : ((fresh options).adopt m).Replayed { s with snapshotBytes := [] } log
  snapshotBytes : s.snapshotBytes = snapshot.getD []

theorem recover_of_readable (readable : Readable options m snapshot log) :
    ∃ s, recover options m snapshot log = .ok (s, ((fresh options).adopt m).cutOf log) ∧
      Recovered options m snapshot log s := by
  obtain ⟨s, recovered, replayed, bytes⟩ :=
    recoverFrom_of_admits readable.snapshot_small readable.log_small readable.admits
  exact ⟨s, recovered, replayed, bytes⟩

theorem readable_of_recover {s : Store} {cut : Option Nat}
    (h : recover options m snapshot log = .ok (s, cut)) : Readable options m snapshot log := by
  unfold recover recoverFrom at h
  split at h
  · cases h
  next t loaded =>
  have small := small_of_withSnapshot loaded
  split at h
  · cases h
  next within =>
  rw [withSnapshot_of_small small] at loaded
  cases loaded
  have admits := admits_of_readLog h
  exact ⟨small, Nat.not_lt.mp within, admits⟩

theorem execute_listDirectory (d : Disk FileName) : (execute listDirectory d).2 = d := by
  unfold listDirectory
  rw [execute_bind, execute_list]
  dsimp only
  split <;> rfl

theorem execute_reopenWal {s : Store} {handle : Handle} (file : d.file walFileName = some handle) :
    execute s.reopenWal d = ((.ok (), { s with walHandle := some handle }), d) := by
  unfold reopenWal
  rw [execute_bind, execute_openAppend, Disk.openAppend_of_file file]
  rfl

theorem cutOf_le (s : Store) (log : Bytes) : ∀ length ∈ s.cutOf log, length ≤ log.length := by
  rintro length mem
  obtain ⟨tail, -, rfl⟩ := Option.map_eq_some_iff.mp mem
  exact Nat.sub_le _ _

def openLoaded (s : Store) (boot : Bytes) : Files (Result Store) := do
  let names := listedNames (← listDirectory)
  removeAll (names.filter isTempName)
  match ← s.loadSnapshot with
  | .error e => pure (.error e)
  | .ok s =>
      match ← s.replayLog with
      | .error e => pure (.error e)
      | .ok s =>
          removeAll (names.filter fun name => isSnapshotName name && s.snapshotPath ≠ some name)
          match ← s.reopenWal with
          | (.error e, _) => pure (.error e)
          | (.ok (), s) => s.conclude boot

theorem execute_openLoaded {s : Store} (shows : Shows d m snapshot log)
    (path : s.snapshotPath = snapshot.map fun _ => snapshotFileName m.snapshotSequence)
    (sequence : s.snapshotSequence = m.snapshotSequence) (boot : Bytes) :
    match s.recoverFrom snapshot log with
    | .error e => ∃ d₁, Shows d₁ m snapshot log ∧ execute (s.openLoaded boot) d = (.error e, d₁)
    | .ok (s', cut) => ∃ d₁ handle, Shows d₁ m snapshot (log.take (cut.getD log.length)) ∧
        d₁.file walFileName = some handle ∧
        execute (s.openLoaded boot) d =
          execute ({ s' with walHandle := some handle }.conclude boot) d₁ := by
  unfold openLoaded
  rw [execute_bind, execute_listDirectory]
  generalize listedNames (execute listDirectory d).1 = names
  have shows₁ := shows.removeTemps names
  rw [execute_bind, execute_bind, execute_loadSnapshot shows₁ path sequence]
  unfold recoverFrom
  cases loaded : s.withSnapshot snapshot with
  | error e => exact ⟨_, shows₁, rfl⟩
  | ok t =>
      dsimp only
      rw [execute_bind, execute_replayLog t shows₁.log]
      by_cases large : log.length > maxWalScanBytes
      · rw [if_pos large, if_pos large]
        exact ⟨_, shows₁, rfl⟩
      · rw [if_neg large, if_neg large]
        cases read : t.readLog log with
        | error e => exact ⟨_, shows₁, rfl⟩
        | ok outcome =>
            obtain ⟨s', cut⟩ := outcome
            have small := small_of_withSnapshot loaded
            rw [withSnapshot_of_small small] at loaded
            have admits := admits_of_readLog read
            obtain ⟨s'', read', replayed⟩ := readLog_of_admits admits
            obtain ⟨rfl, rfl⟩ := Prod.mk.inj (Except.ok.inj (read.symm.trans read'))
            have referenced : s'.snapshotPath =
                snapshot.map fun _ => snapshotFileName m.snapshotSequence := by
              rw [replayed.snapshotPath, ← path]
              cases loaded
              rfl
            have rest (e : Disk FileName) {kept : Bytes} (shows₂ : Shows e m snapshot kept) :
                ∃ d₁ handle, Shows d₁ m snapshot kept ∧ d₁.file walFileName = some handle ∧
                  execute (do
                    removeAll (names.filter fun name =>
                      isSnapshotName name && s'.snapshotPath ≠ some name)
                    match ← s'.reopenWal with
                    | (.error e, _) => pure (.error e)
                    | (.ok (), s') => s'.conclude boot) e =
                      execute ({ s' with walHandle := some handle }.conclude boot) d₁ := by
              have shows₃ := shows₂.removeOrphans names referenced
              obtain ⟨handle, file, -⟩ := Disk.content_eq_some.mp shows₃.log
              refine ⟨_, handle, shows₃, file, ?_⟩
              rw [execute_bind, execute_bind, execute_reopenWal file]
            cases cut : t.cutOf log with
            | none =>
                dsimp only
                rw [Option.getD_none, List.take_length]
                exact rest _ shows₁
            | some length =>
                exact rest _ (shows₁.cut (cutOf_le t log length cut))

theorem execute_openImpl_of_loaded {s : Store} {e : Disk FileName}
    (loaded : execute (fresh options).loadOrRebuild d = (.ok s, e)) (boot : Bytes) :
    execute (openImpl options boot) d = execute (s.openLoaded boot) e := by
  unfold openImpl
  rw [execute_bind, loaded]
  rfl

theorem execute_openImpl (valid : options.Valid) (shows : Shows d m snapshot log) (boot : Bytes) :
    match recover options m snapshot log with
    | .error e => ∃ d₁, Shows d₁ m snapshot log ∧ execute (openImpl options boot) d = (.error e, d₁)
    | .ok (s, cut) => ∃ d₁ handle, Shows d₁ m snapshot (log.take (cut.getD log.length)) ∧
        d₁.file walFileName = some handle ∧
        execute (openImpl options boot) d =
          execute ({ s with walHandle := some handle }.conclude boot) d₁ := by
  rw [execute_openImpl_of_loaded (execute_loadOrRebuild valid shows)]
  exact execute_openLoaded shows (adopt_snapshotPath (fresh options) shows) rfl boot

end Store

end QoSFabric
