import QoSFabric.Proof.Store.Session

namespace QoSFabric

open FileSystem Interaction

section Requests

variable {d : Disk FileName} {m : Manifest} {snapshot : Option Bytes} {log : Bytes}
  {crash : Disk FileName → Prop}

theorem reading_readEntry (entry path : FileName) (maxBytes : Nat) :
    Disk.Reading (readEntry entry path maxBytes) := by
  apply Disk.Reading.read
  intro reply
  cases reply with
  | none => exact .done _
  | some bytes => exact Disk.Reading.ite (.done _) (.done _)

theorem reading_readFile (name : FileName) (maxBytes : Nat) :
    Disk.Reading (readFile name maxBytes) := reading_readEntry name name maxBytes

theorem reading_readPath (path : FileName) (maxBytes : Nat) :
    Disk.Reading (readPath path maxBytes) := by
  unfold readPath
  cases pathEntry path with
  | none => exact .done _
  | some entry => exact reading_readEntry entry path maxBytes

theorem reading_pathExists (path : FileName) : Disk.Reading (pathExists path) := by
  unfold pathExists
  cases pathEntry path with
  | none => exact .done _
  | some entry => exact Disk.Reading.exists_ fun _ => .done _

theorem reading_listDirectory : Disk.Reading listDirectory := by
  apply Disk.Reading.list
  intro entries
  exact Disk.Reading.ite (.done _) (.done _)

theorem reading_loadManifest (s : Store) : Disk.Reading s.loadManifest := by
  apply Disk.Reading.exists_
  intro present
  apply Disk.Reading.ite (.done _)
  apply Disk.Reading.bind (reading_readFile _ _)
  intro raw
  cases raw with
  | error e => exact .done _
  | ok raw =>
      dsimp only
      cases decodeManifest s.options.formatVersion raw with
      | error e => exact .done _
      | ok m =>
          apply Disk.Reading.ite (.done _)
          apply Disk.Reading.bind (reading_pathExists _)
          intro found
          exact Disk.Reading.ite (.done _) (.done _)

theorem reading_loadSnapshot (s : Store) : Disk.Reading s.loadSnapshot := by
  unfold Store.loadSnapshot
  cases s.snapshotPath with
  | none => exact .done _
  | some path =>
      apply Disk.Reading.bind (reading_readPath _ _)
      intro bytes
      cases bytes with
      | error e => exact .done _
      | ok bytes =>
          dsimp only
          cases decodeSnapshot bytes with
          | error e => exact .done _
          | ok decoded => exact Disk.Reading.ite (.done _) (.done _)

theorem wp_removeAll {names : List FileName} {holds : Disk FileName → Prop}
    {post : Unit → Disk FileName → Prop}
    (keeps : ∀ name ∈ names, ∀ e, holds e → holds (e.remove name))
    (safe : ∀ e, holds e → crash e) (done : ∀ e, holds e → post () e) (h : holds d) :
    (removeAll names).wp Disk.world crash post d := by
  induction names generalizing d with
  | nil => exact ⟨safe d h, done d h⟩
  | cons name names ih =>
      rw [removeAll, Disk.wp_remove]
      refine ⟨safe d h, ih (fun other mem => keeps other (List.mem_cons_of_mem _ mem)) ?_⟩
      exact keeps name List.mem_cons_self d h

theorem Shows.remove (shows : Shows d m snapshot log) {name : FileName}
    (notManifest : name ≠ manifestFileName) (notWal : name ≠ walFileName)
    (notSnapshot : ∀ payload ∈ snapshot, name ≠ m.snapshotName) :
    Shows (d.remove name) m snapshot log where
  manifest := (Disk.content_remove_of_ne notManifest.symm).trans shows.manifest
  sound := shows.sound
  log := (Disk.content_remove_of_ne notWal.symm).trans shows.log
  unnamed := shows.unnamed
  named payload mem := by
    obtain ⟨name, small, content⟩ := shows.named payload mem
    exact ⟨name, small, (Disk.content_remove_of_ne (notSnapshot payload mem).symm).trans content⟩

theorem ne_of_last {name other : FileName} (isTemp : isTempName name = true)
    (last : other.getLast? ≠ some 112) : name ≠ other := by
  intro eq
  rw [eq, not_isTempName last] at isTemp
  exact Bool.false_ne_true isTemp

theorem Shows.removeTemp (shows : Shows d m snapshot log) {name : FileName}
    (isTemp : isTempName name = true) : Shows (d.remove name) m snapshot log := by
  apply shows.remove (ne_of_last isTemp (by decide)) (ne_of_last isTemp (by decide))
  intro payload mem
  rw [(shows.named payload mem).1]
  exact ne_of_last isTemp (by simp [getLast?_snapshotFileName])

theorem Shows.removeOrphan (shows : Shows d m snapshot log) {path : Option FileName}
    (referenced : path = snapshot.map fun _ => snapshotFileName m.snapshotSequence)
    {name : FileName} (isOrphan : (isSnapshotName name && path ≠ some name) = true) :
    Shows (d.remove name) m snapshot log := by
  rw [Bool.and_eq_true, decide_eq_true_eq] at isOrphan
  obtain ⟨named, orphan⟩ := isOrphan
  have differs {other : FileName} (last : other.getLast? ≠ some 110) : name ≠ other := by
    intro eq
    rw [eq, not_isSnapshotName last] at named
    exact Bool.false_ne_true named
  apply shows.remove (differs (by decide)) (differs (by decide))
  intro payload mem eq
  rw [Option.mem_def] at mem
  rw [referenced, mem, Option.map_some, eq, (shows.named payload mem).1] at orphan
  exact orphan rfl

end Requests

/-! ## Concluding -/

section Conclude

variable {s : Store} {d : Disk FileName} {payload boot : Bytes} {j : Journal}
  {crash : Disk FileName → Prop}

def headerEntry (boot : Bytes) : Entry := .append .storeHeader (sha256 boot).bytes

theorem Running.wp_writeManifest {post : Result Unit → Disk FileName → Prop}
    (running : Running s d payload j)
    (kept : ∀ e, Rests s.options.maxRecordBytes e payload j → crash e)
    (done : ∀ e, Running s e payload j → post (.ok ()) e) :
    s.writeManifest.wp Disk.world crash post d := by
  obtain ⟨m, snapshot, covered, live, holding, known⟩ := running
  apply Live.wp_writeManifest live.sound_manifest
  · intro e same
    refine kept e ⟨m, snapshot, covered, [], ?_, .inl rfl, holding⟩
    rw [List.append_nil]
    exact live.shows.sameBut same
  · intro e replaced
    have live' := live.replaced_manifest replaced
    have sequence : s.manifest.snapshotSequence = m.snapshotSequence := live.sequence
    have holding' : Holding s.options.maxRecordBytes s.manifest snapshot covered payload j := by
      refine ⟨holding.held, holding.fits, ?_, ?_, holding.lawful, ?_⟩
      · rw [sequence]
        exact holding.before
      · rw [sequence]
        exact holding.after
      · rw [sequence]
        exact UInt64.le_trans holding.recorded live.recorded
    have running' : Running s e payload j := ⟨_, _, _, live', holding', known⟩
    exact ⟨kept e running'.rests, done e running'⟩

theorem Running.relabel (running : Running s d payload j) (id : Text) (report : RecoveryReport) :
    Running { s with storeId := id, recovery := report } d payload j := by
  obtain ⟨m, snapshot, covered, live, holding, known⟩ := running
  exact ⟨m, snapshot, covered, live.relabel id report, holding, known⟩

structure Concludes (s s' : Store) : Prop where
  options : s'.options = s.options
  snapshotBytes : s'.snapshotBytes = s.snapshotBytes
  replayed : s'.replayed = s.replayed
  unfinished : s'.recovery.unfinishedIntents = s.recovery.unfinishedIntents

theorem Running.wp_conclude {post : Result Store → Disk FileName → Prop}
    (running : Running s d payload j)
    (kept : ∀ e, Rests s.options.maxRecordBytes e payload j → crash e)
    (headed : ∀ e next, Rests s.options.maxRecordBytes e payload (j ++ [(next, headerEntry boot)]) →
      crash e)
    (refused : ∀ failure e, crash e → post (.error failure) e)
    (same : ∀ s' e, Concludes s s' → Running s' e payload j → post (.ok s') e)
    (minted : ∀ s' e next, Concludes s s' →
      Running s' e payload (j ++ [(next, headerEntry boot)]) → post (.ok s') e) :
    (s.conclude boot).wp Disk.world crash post d := by
  have idle := kept d running.rests
  unfold Store.conclude Store.mintIdentity
  split
  · exact ⟨idle, same _ d ⟨rfl, rfl, rfl, rfl⟩ (running.relabel s.storeId _)⟩
  dsimp only
  rw [Program.wp_bind, Program.wp_bind]
  have renamed := running.relabel (sha256 boot).hex s.recovery
  have wellFormed : RecordType.storeHeader.WellFormed (sha256 boot).bytes := by
    simp [RecordType.WellFormed, (sha256 boot).size]
  apply renamed.wp_append wellFormed
  constructor
  · exact kept
  · intro e next _ _ _ rests
    exact headed e next rests
  · intro failure
    exact ⟨idle, idle, refused failure d idle⟩
  · intro e u _ next names wrote grown
    cases names
    have options : u.options = s.options := by rw [wrote.members]
    have resting := grown.rests
    rw [options] at resting
    dsimp only
    rw [Program.wp_bind]
    apply grown.wp_writeManifest
    · intro e' rests
      rw [options] at rests
      exact headed e' _ rests
    · intro e' running'
      have resting' := running'.rests
      rw [options] at resting'
      have safe' := headed e' _ resting'
      refine ⟨safe', safe', minted _ e' _ ?_ (running'.relabel u.storeId _)⟩
      constructor <;> rw [wrote.members]

end Conclude

/-! ## Opening -/

section Opening

variable {options : StoreOptions} {d : Disk FileName} {payload boot : Bytes} {j : Journal}
  {crash : Disk FileName → Prop}

/-- What an opening has to meet over a directory at rest: wherever it is cut and whenever it fails
the directory rests with the same journal, or with the entry of a minted identity behind it. -/
structure Reopens (options : StoreOptions) (boot payload : Bytes) (j : Journal)
    (crash : Disk FileName → Prop) (post : Result Store → Disk FileName → Prop) : Prop where
  kept : ∀ e, Rests options.maxRecordBytes e payload j → crash e
  headed : ∀ e next, Rests options.maxRecordBytes e payload (j ++ [(next, headerEntry boot)]) →
    crash e
  refused : ∀ failure e, crash e → post (.error failure) e
  opened : ∀ s e header, Running s e payload (j ++ header) → s.options = options →
    s.snapshotBytes = payload → s.replayed = j.history →
    s.recovery.unfinishedIntents = j.pending.length →
    (header = [] ∨ ∃ next, header = [(next, headerEntry boot)]) → post (.ok s) e

theorem Running.wp_reopened {s : Store} {post : Result Store → Disk FileName → Prop}
    (running : Running s d payload j) (reopens : Reopens options boot payload j crash post)
    (same : s.options = options) (bytes : s.snapshotBytes = payload)
    (replayed : s.replayed = j.history)
    (unfinished : s.recovery.unfinishedIntents = j.pending.length) :
    (s.conclude boot).wp Disk.world crash post d := by
  subst same
  apply running.wp_conclude reopens.kept reopens.headed reopens.refused
  · intro s' e concludes running'
    refine reopens.opened s' e [] ?_ concludes.options (concludes.snapshotBytes.trans bytes)
      (concludes.replayed.trans replayed) (concludes.unfinished.trans unfinished) (.inl rfl)
    rw [List.append_nil]
    exact running'
  · intro s' e next concludes running'
    exact reopens.opened s' e _ running' concludes.options (concludes.snapshotBytes.trans bytes)
      (concludes.replayed.trans replayed) (concludes.unfinished.trans unfinished)
      (.inr ⟨next, rfl⟩)

theorem wp_reopenWal {s : Store} {m : Manifest} {snapshot : Option Bytes} {log : Bytes}
    {post : Result Store → Disk FileName → Prop} (names : List FileName)
    (safe : ∀ e, Shows e m snapshot log → crash e)
    (referenced : s.snapshotPath = snapshot.map fun _ => snapshotFileName m.snapshotSequence)
    (shows : Shows d m snapshot log)
    (concluded : ∀ e handle, Shows e m snapshot log → e.file walFileName = some handle →
      ({ s with walHandle := some handle }.conclude boot).wp Disk.world crash post e) :
    (do
      removeAll (names.filter fun name => isSnapshotName name && s.snapshotPath ≠ some name)
      match ← s.reopenWal with
      | (.error e, _) => pure (.error e)
      | (.ok (), s) => s.conclude boot : Files (Result Store)).wp Disk.world crash post d := by
  rw [Program.wp_bind]
  have keeps : ∀ name ∈ names.filter fun name => isSnapshotName name && s.snapshotPath ≠ some name,
      ∀ e, Shows e m snapshot log → Shows (e.remove name) m snapshot log := by
    intro name mem e shows
    exact shows.removeOrphan referenced (List.mem_filter.mp mem).2
  apply wp_removeAll keeps safe _ shows
  · intro e shows
    obtain ⟨handle, file, -⟩ := Disk.content_eq_some.mp shows.log
    unfold Store.reopenWal
    rw [Program.wp_bind, Disk.wp_openAppend, Disk.openAppend_of_file file]
    exact ⟨safe e shows, safe e shows, concluded e handle shows file⟩

theorem Holding.keptOf {m : Manifest} {snapshot : Option Bytes} {covered : List Frame}
    {torn : Bytes} (holding : Holding options.maxRecordBytes m snapshot covered payload j)
    (cut : (walFormat options.maxRecordBytes).Unframed torn) :
    ∃ r, Journal.Absorbed j m.lastSequence r ∧
      (((Store.fresh options).adopt m).replayOf
        ((walFormat options.maxRecordBytes).log (covered ++ j.frames) ++ torn)).1 = r ∧
      QoSFabric.keptOf options m
          ((walFormat options.maxRecordBytes).log (covered ++ j.frames) ++ torn) =
        (walFormat options.maxRecordBytes).log (covered ++ j.frames) := by
  obtain ⟨r, absorbed, replays⟩ := Store.replayOf_log (s := (Store.fresh options).adopt m)
    holding.fits holding.before holding.after holding.lawful cut
  rw [show ((Store.fresh options).adopt m).options = options from rfl] at replays
  refine ⟨r, absorbed, congrArg Prod.fst replays, ?_⟩
  have dropped : (((Store.fresh options).adopt m).cutOf
      ((walFormat options.maxRecordBytes).log (covered ++ j.frames) ++ torn)).getD
        ((walFormat options.maxRecordBytes).log (covered ++ j.frames) ++ torn).length =
      ((walFormat options.maxRecordBytes).log (covered ++ j.frames)).length := by
    rw [Store.cutOf, replays, Framing.Format.tornStop, List.length_append]
    split
    · cases torn with
      | nil => rfl
      | cons byte rest => exact Nat.add_sub_cancel _ _
    · exact Nat.add_sub_cancel _ _
  rw [QoSFabric.keptOf, dropped, List.take_left' rfl]

theorem wp_replayLog {s : Store} {log : Bytes} {post : Result Store → Disk FileName → Prop}
    (content : d.content walFileName = some log) (idle : crash d)
    (refused : ∀ failure, post (.error failure) d)
    (read : ∀ t, log.length ≤ maxWalScanBytes → s.readLog log = .ok (t, none) → post (.ok t) d)
    (cut : ∀ t length, log.length ≤ maxWalScanBytes → s.readLog log = .ok (t, some length) →
      crash (d.truncate walFileName length) ∧ post (.ok t) (d.truncate walFileName length)) :
    s.replayLog.wp Disk.world crash post d := by
  have present : (execute (Fs.exists_ walFileName) d) = (true, d) := by
    rw [execute_exists, Store.isSome_file_of_content content]
  unfold Store.replayLog
  rw [Program.wp_bind]
  apply (Disk.Reading.exists_ fun reply => .done reply).wp_of_run present idle
  rw [Bool.not_true, if_neg Bool.false_ne_true, Program.wp_bind]
  apply (reading_readFile _ _).wp_of_run (execute_readFile content _) idle
  by_cases large : log.length > maxWalScanBytes
  · rw [if_pos large]
    exact ⟨idle, refused _⟩
  · have within := Nat.not_lt.mp large
    rw [if_neg large]
    dsimp only
    cases found : s.readLog log with
    | error e => exact ⟨idle, refused e⟩
    | ok result =>
        obtain ⟨t, length⟩ := result
        cases length with
        | none => exact ⟨idle, read t within found⟩
        | some length =>
            obtain ⟨safe, done⟩ := cut t length within found
            dsimp only
            rw [Disk.wp_truncate]
            exact ⟨idle, safe, done⟩

theorem Running.recovered {m : Manifest} {snapshot : Option Bytes} {covered : List Frame}
    {log : Bytes} {t : Store} {r : Replay} (valid : options.Valid)
    (holding : Holding options.maxRecordBytes m snapshot covered payload j)
    (absorbed : Journal.Absorbed j m.lastSequence r)
    (replays : (((Store.fresh options).adopt m).replayOf log).1 = r)
    (kept : QoSFabric.keptOf options m log =
      (walFormat options.maxRecordBytes).log (covered ++ j.frames))
    (within : log.length ≤ maxWalScanBytes) (recovered : Store.Recovered options m snapshot log t)
    (shows : Shows d m snapshot (QoSFabric.keptOf options m log)) {handle : Handle}
    (file : d.file walFileName = some handle) :
    Running { t with walHandle := some handle } d payload j := by
  have live := Live.recovered valid within recovered shows file
  have same : t.options = options := recovered.replayed.options
  have budget : t.options.maxRecordBytes = options.maxRecordBytes := by rw [same]
  have last : t.lastSequence = r.lastSequence := recovered.replayed.lastSequence.trans (replays ▸ rfl)
  rw [kept] at live
  refine ⟨m, snapshot, covered, ?_, ?_, ?_⟩
  · dsimp only
    rw [budget]
    exact live
  · dsimp only
    rw [budget]
    exact holding
  · dsimp only
    rw [last]
    exact absorbed.later

theorem wp_openAdopted {m : Manifest} {snapshot : Option Bytes} {covered : List Frame}
    {torn : Bytes} {post : Result Store → Disk FileName → Prop} (names : List FileName)
    (valid : options.Valid) (holding : Holding options.maxRecordBytes m snapshot covered payload j)
    (cut : (walFormat options.maxRecordBytes).Unframed torn)
    (shows : Shows d m snapshot
      ((walFormat options.maxRecordBytes).log (covered ++ j.frames) ++ torn)) (idle : crash d)
    (reopens : Reopens options boot payload j crash post) :
    (do
      match ← ((Store.fresh options).adopt m).loadSnapshot with
      | .error e => pure (.error e)
      | .ok s =>
          match ← s.replayLog with
          | .error e => pure (.error e)
          | .ok s =>
              removeAll (names.filter fun name => isSnapshotName name && s.snapshotPath ≠ some name)
              match ← s.reopenWal with
              | (.error e, _) => pure (.error e)
              | (.ok (), s) => s.conclude boot : Files (Result Store)).wp Disk.world crash post d := by
  have whole : ∀ e, Shows e m snapshot
      ((walFormat options.maxRecordBytes).log (covered ++ j.frames)) → crash e := by
    intro e shows
    refine reopens.kept e ⟨m, snapshot, covered, [], ?_, .inl rfl, holding⟩
    rw [List.append_nil]
    exact shows
  obtain ⟨r, absorbed, replays, kept⟩ := holding.keptOf cut
  have path := Store.adopt_snapshotPath (Store.fresh options) shows
  generalize (walFormat options.maxRecordBytes).log (covered ++ j.frames) ++ torn = log at *
  rw [← kept] at whole
  rw [Program.wp_bind]
  apply (reading_loadSnapshot _).wp_of_run (Store.execute_loadSnapshot shows path rfl) idle
  cases loads : ((Store.fresh options).adopt m).withSnapshot snapshot with
  | error e => exact ⟨idle, reopens.refused e d idle⟩
  | ok s =>
      have rest (t : Store) (length : Option Nat) (e : Disk FileName)
          (within : log.length ≤ maxWalScanBytes) (read : s.readLog log = .ok (t, length))
          (shows : length = ((Store.fresh options).adopt m).cutOf log →
            Shows e m snapshot (QoSFabric.keptOf options m log)) :
          crash e ∧ (do
            removeAll (names.filter fun name => isSnapshotName name && t.snapshotPath ≠ some name)
            match ← t.reopenWal with
            | (.error e, _) => pure (.error e)
            | (.ok (), s) => s.conclude boot : Files (Result Store)).wp Disk.world crash post e := by
        have recover : Store.recover options m snapshot log = .ok (t, length) := by
          rw [Store.recover, Store.recoverFrom, loads]
          dsimp only
          rw [if_neg (Nat.not_lt.mpr within)]
          exact read
        obtain ⟨u, computed, recovered⟩ :=
          Store.recover_of_readable (Store.readable_of_recover recover)
        obtain ⟨rfl, same⟩ := Prod.mk.inj (Except.ok.inj (recover.symm.trans computed))
        have shown := shows same
        refine ⟨whole e shown, wp_reopenWal names whole (recovered.replayed.snapshotPath.trans path)
          shown ?_⟩
        intro e handle shown file
        have running := Running.recovered valid holding absorbed replays kept within recovered shown
          file
        have replayed : t.replayed = j.history :=
          recovered.replayed.replayed.trans (replays ▸ absorbed.replayed)
        have unfinished : t.recovery.unfinishedIntents = j.pending.length := by
          refine recovered.replayed.unfinished.trans ?_
          rw [replays, absorbed.staged, List.length_map]
          exact Nat.zero_add _
        exact running.wp_reopened reopens recovered.replayed.options
          (recovered.snapshotBytes.trans holding.held) replayed unfinished
      dsimp only
      rw [Program.wp_bind]
      apply wp_replayLog shows.log idle
      · intro failure
        exact ⟨idle, reopens.refused failure d idle⟩
      · intro t within read
        refine (rest t none d within read fun none => ?_).2
        rw [QoSFabric.keptOf, ← none, Option.getD_none, List.take_length]
        exact shows
      · intro t length within read
        refine rest t (some length) _ within read fun some => ?_
        rw [QoSFabric.keptOf, ← some, Option.getD_some]
        exact shows.cut (Store.cutOf_le _ log length some.symm)

theorem Shows.wp_open {m : Manifest} {snapshot : Option Bytes} {covered : List Frame}
    {torn : Bytes} {post : Result Store → Disk FileName → Prop} (valid : options.Valid)
    (holding : Holding options.maxRecordBytes m snapshot covered payload j)
    (cut : (walFormat options.maxRecordBytes).Unframed torn)
    (shows : Shows d m snapshot
      ((walFormat options.maxRecordBytes).log (covered ++ j.frames) ++ torn))
    (safe : ∀ e, Shows e m snapshot
      ((walFormat options.maxRecordBytes).log (covered ++ j.frames) ++ torn) → crash e)
    (reopens : Reopens options boot payload j crash post) :
    (Store.open options boot).wp Disk.world crash post d := by
  have idle := safe d shows
  have record : ¬(options.maxRecordBytes = 0 ∨ options.maxRecordBytes > Limits.maxWalRecordBytes) := by
    have := valid.positive
    have := valid.small
    omega
  unfold Store.open Store.openImpl Store.loadOrRebuild
  rw [if_neg (not_not.mpr valid.version), if_neg record, Program.wp_bind, Program.wp_bind]
  apply (reading_loadManifest _).wp_of_run (Store.execute_loadManifest valid shows) idle
  refine ⟨idle, ?_⟩
  dsimp only
  rw [Program.wp_bind]
  apply reading_listDirectory.wp idle
  intro listed _
  rw [Program.wp_bind]
  have keeps : ∀ name ∈ (listedNames listed).filter isTempName, ∀ e,
      Shows e m snapshot ((walFormat options.maxRecordBytes).log (covered ++ j.frames) ++ torn) →
        Shows (e.remove name) m snapshot
          ((walFormat options.maxRecordBytes).log (covered ++ j.frames) ++ torn) := by
    intro name mem e shows
    exact shows.removeTemp (List.mem_filter.mp mem).2
  apply wp_removeAll keeps safe _ shows
  intro e shows
  exact wp_openAdopted _ valid holding cut shows (safe e shows) reopens

theorem Rests.wp_open {post : Result Store → Disk FileName → Prop} (valid : options.Valid)
    (rests : Rests options.maxRecordBytes d payload j)
    (reopens : Reopens options boot payload j crash post) :
    (Store.open options boot).wp Disk.world crash post d := by
  obtain ⟨m, snapshot, covered, torn, shows, cut, holding⟩ := rests
  exact shows.wp_open valid holding cut.unframed
    (fun e shows => reopens.kept e ⟨m, snapshot, covered, torn, shows, cut, holding⟩) reopens

def blankManifest : Manifest := ⟨.zero, 0, 0, 0, []⟩

theorem adopt_blank (options : StoreOptions) :
    (Store.fresh options).adopt blankManifest = Store.blank options := rfl

theorem manifest_blank (options : StoreOptions) : (Store.blank options).manifest = blankManifest := by
  have id : (Store.blank options).storeId = Digest256.zero.hex := rfl
  rw [Store.manifest, id, Digest256.parseHex_hex]
  rfl

theorem sound_blank : blankManifest.Sound := Manifest.sound_unnamed rfl rfl

/-- A directory that no opening has come past the log of: it has nothing but what the first
manifest was being written to, or that manifest and no log. -/
inductive Vacant (d : Disk FileName) : Prop where
  | bare (alone : ∀ name, d.file name ≠ none → name = tempName manifestFileName)
  | unlogged (manifest : d.content manifestFileName = some blankManifest.file)
      (absent : d.file walFileName = none)

theorem vacant_empty : Vacant (Disk.empty : Disk FileName) := by
  apply Vacant.bare
  intro name named
  simp [Disk.file, Disk.empty] at named

theorem Running.created {report : RecoveryReport} (valid : options.Valid)
    (manifest : d.content manifestFileName = some blankManifest.file) :
    Running { Store.blank options with
      recovery := report, walBytes := 0, walHandle := some (d.create walFileName).1 }
      (d.create walFileName).2 [] [] := by
  refine ⟨blankManifest, none, [], ?_, ⟨rfl, by simp, by simp, by simp, .nil, UInt64.le_refl _⟩,
    by simp⟩
  constructor
  · constructor
    · exact (Disk.content_create_of_ne manifest_ne_wal).trans manifest
    · exact sound_blank
    · rw [Journal.frames_nil]
      exact Disk.content_create_self
    · intro _
      rfl
    · simp
  · exact valid
  · exact ⟨_, Disk.file_create_self, rfl⟩
  · rfl
  · rfl
  · rfl
  · rfl
  · exact UInt64.le_refl _

theorem wp_removeAll_unlogged {names : List FileName} {post : Unit → Disk FileName → Prop}
    (vacant : ∀ e, Vacant e → crash e)
    (others : ∀ name ∈ names, name ≠ manifestFileName ∧ name ≠ walFileName)
    (manifest : d.content manifestFileName = some blankManifest.file)
    (absent : d.file walFileName = none)
    (done : ∀ e, e.content manifestFileName = some blankManifest.file →
      e.file walFileName = none → post () e) :
    (removeAll names).wp Disk.world crash post d := by
  have keeps : ∀ name ∈ names, ∀ e : Disk FileName,
      (e.content manifestFileName = some blankManifest.file ∧ e.file walFileName = none) →
        (e.remove name).content manifestFileName = some blankManifest.file ∧
          (e.remove name).file walFileName = none := by
    rintro name mem e ⟨manifest, absent⟩
    obtain ⟨notManifest, notWal⟩ := others name mem
    exact ⟨(Disk.content_remove_of_ne notManifest.symm).trans manifest,
      (Disk.file_remove_of_ne notWal.symm).trans absent⟩
  apply wp_removeAll keeps _ _ ⟨manifest, absent⟩
  · rintro e ⟨manifest, absent⟩
    exact vacant e (.unlogged manifest absent)
  · rintro e ⟨manifest, absent⟩
    exact done e manifest absent

theorem wp_openCreated {report : RecoveryReport} {post : Result Store → Disk FileName → Prop}
    (valid : options.Valid) (unfinished : report.unfinishedIntents = 0)
    (vacant : ∀ e, Vacant e → crash e)
    (manifest : d.content manifestFileName = some blankManifest.file)
    (absent : d.file walFileName = none) (reopens : Reopens options boot [] [] crash post) :
    (do
      let names := listedNames (← listDirectory)
      removeAll (names.filter isTempName)
      match ← { Store.blank options with recovery := report }.loadSnapshot with
      | .error e => pure (.error e)
      | .ok s =>
          match ← s.replayLog with
          | .error e => pure (.error e)
          | .ok s =>
              removeAll (names.filter fun name => isSnapshotName name && s.snapshotPath ≠ some name)
              match ← s.reopenWal with
              | (.error e, _) => pure (.error e)
              | (.ok (), s) => s.conclude boot : Files (Result Store)).wp Disk.world crash post d := by
  rw [Program.wp_bind]
  apply reading_listDirectory.wp (vacant d (.unlogged manifest absent))
  intro listed _
  rw [Program.wp_bind]
  apply wp_removeAll_unlogged vacant _ manifest absent
  · intro e manifest absent
    have idle := vacant e (.unlogged manifest absent)
    rw [Program.wp_bind]
    apply (reading_loadSnapshot _).wp_of_run (execute_loadSnapshot_of_none rfl) idle
    dsimp only
    rw [Program.wp_bind]
    have missing : execute (Fs.exists_ walFileName) e = (false, e) := by
      rw [execute_exists, absent]
      rfl
    unfold Store.replayLog
    rw [Program.wp_bind]
    apply (Disk.Reading.exists_ fun reply => .done reply).wp_of_run missing idle
    refine ⟨idle, ?_⟩
    dsimp only
    rw [Program.wp_bind]
    apply wp_removeAll_unlogged vacant _ manifest absent
    · intro e manifest absent
      have running : Running { Store.blank options with
          recovery := report, walBytes := 0, walHandle := some (e.create walFileName).1 }
          (e.create walFileName).2 [] [] := Running.created valid manifest
      have created : e.openAppend walFileName = e.create walFileName := by
        rw [Disk.openAppend_of_absent absent, Disk.create_of_absent absent]
      unfold Store.reopenWal
      rw [Program.wp_bind, Disk.wp_openAppend, created]
      refine ⟨vacant e (.unlogged manifest absent), reopens.kept _ running.rests, ?_⟩
      exact running.wp_reopened reopens rfl rfl rfl unfinished
    · intro name mem
      have snapshotName := (Bool.and_eq_true_iff.mp (List.mem_filter.mp mem).2).1
      constructor <;> rintro rfl
      · exact absurd snapshotName (by decide)
      · exact absurd snapshotName (by decide)
  · intro name mem
    have temp := (List.mem_filter.mp mem).2
    exact ⟨ne_of_last temp (by decide), ne_of_last temp (by decide)⟩

theorem bestSnapshot_of_none {names : List FileName} {best : Option (UInt64 × FileName)}
    (none : ∀ name ∈ names, snapshotNameSequence name = none) :
    Store.bestSnapshot names best = pure best := by
  induction names with
  | nil => rfl
  | cons name names ih =>
      rw [Store.bestSnapshot, none name List.mem_cons_self]
      exact ih fun other mem => none other (List.mem_cons_of_mem _ mem)

theorem mem_listDirectory {names : List FileName} {name : FileName}
    (run : execute listDirectory d = (.ok names, d)) (mem : name ∈ names) : d.file name ≠ none := by
  unfold listDirectory at run
  rw [execute_bind, execute_list] at run
  dsimp only at run
  split at run
  · cases run
  · cases run
    rw [sortTexts, List.mem_insertionSort] at mem
    intro absent
    exact AList.lookup_eq_none.mp absent mem

theorem wp_rebuildManifest {post : Result Store → Disk FileName → Prop}
    (vacant : ∀ e, Vacant e → crash e)
    (alone : ∀ name, d.file name ≠ none → name = tempName manifestFileName)
    (refused : ∀ failure, post (.error failure) d)
    (rebuilt : ∀ e, e.content manifestFileName = some blankManifest.file →
      e.file walFileName = none →
      post (.ok { Store.blank options with recovery := { RecoveryReport.none with
        detail := text "manifest rebuilt from durable artifacts; " } }) e) :
    (Store.fresh options).rebuildManifest.wp Disk.world crash post d := by
  have idle := vacant d (.bare alone)
  have missing : d.file walFileName = none := by
    by_contra named
    exact absurd (alone _ named) (by decide)
  unfold Store.rebuildManifest
  rw [Program.wp_bind]
  apply reading_listDirectory.wp idle
  intro listed run
  cases listed with
  | error e => exact ⟨idle, refused e⟩
  | ok names =>
      have temps : ∀ name ∈ names, snapshotNameSequence name = none := by
        intro name mem
        rw [alone name (mem_listDirectory run mem)]
        decide
      dsimp only
      rw [bestSnapshot_of_none temps, Program.pure_eq_done, Program.done_bind, ← Store.blank,
        Program.wp_bind]
      have absent : execute (Fs.exists_ walFileName) d = (false, d) := by
        rw [execute_exists, missing]
        rfl
      unfold Store.rebuildFromLog
      rw [Program.wp_bind]
      apply (Disk.Reading.exists_ fun reply => .done reply).wp_of_run absent idle
      refine ⟨idle, ?_⟩
      dsimp only
      rw [Program.wp_bind]
      have sound : (Store.blank options).manifest.Sound := manifest_blank options ▸ sound_blank
      apply Live.wp_writeManifest sound
      · intro e same
        apply vacant e
        apply Vacant.bare
        intro name named
        by_contra other
        rw [same.file_of_ne name other] at named
        exact other (alone name named)
      · intro e replaced
        rw [manifest_blank] at replaced
        have unlogged : e.file walFileName = none :=
          (replaced.file_of_ne _ wal_ne_manifest (tempName_ne_wal _).symm).trans missing
        have safe := vacant e (.unlogged replaced.content_self unlogged)
        exact ⟨safe, safe, rebuilt e replaced.content_self unlogged⟩

theorem Vacant.wp_open {post : Result Store → Disk FileName → Prop} (valid : options.Valid)
    (empty : Vacant d) (vacant : ∀ e, Vacant e → crash e)
    (reopens : Reopens options boot [] [] crash post) :
    (Store.open options boot).wp Disk.world crash post d := by
  have idle := vacant d empty
  have record : ¬(options.maxRecordBytes = 0 ∨ options.maxRecordBytes > Limits.maxWalRecordBytes) := by
    have := valid.positive
    have := valid.small
    omega
  unfold Store.open Store.openImpl Store.loadOrRebuild
  rw [if_neg (not_not.mpr valid.version), if_neg record, Program.wp_bind, Program.wp_bind]
  cases empty with
  | unlogged manifest absent =>
      have loaded : execute (Store.fresh options).loadManifest d =
          (.ok (Store.blank options), d) := by
        rw [← adopt_blank]
        exact Store.execute_loadManifest_of_content valid sound_blank manifest fun named =>
          absurd rfl named
      apply (reading_loadManifest _).wp_of_run loaded idle
      exact ⟨idle, wp_openCreated valid rfl vacant manifest absent reopens⟩
  | bare alone =>
      have missing : execute (Store.fresh options).loadManifest d =
          (.error (makeError .notFound "manifest is absent"), d) := by
        have absent : d.file manifestFileName = none := by
          by_contra named
          exact absurd (alone _ named) (by decide)
        unfold Store.loadManifest
        rw [execute_bind, execute_exists, absent]
        rfl
      apply (reading_loadManifest _).wp_of_run missing idle
      dsimp only
      rw [if_neg (by decide), Program.wp_bind]
      apply wp_rebuildManifest vacant alone
      · intro failure
        exact ⟨idle, idle, reopens.refused failure d idle⟩
      · intro e manifest absent
        have safe := vacant e (.unlogged manifest absent)
        exact ⟨safe, wp_openCreated valid rfl vacant manifest absent reopens⟩

end Opening

end QoSFabric
