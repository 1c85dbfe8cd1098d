import QoSFabric.Proof.Store.Verify

/-!
# What a repair leaves

A store that may truncate a corrupt tail opens over a log and cuts it. What it leaves opens again
without a repair and replays the same records, unless the cut was made behind a frame whose body the
replay refuses: such a frame is counted as good before its body is judged.
-/

namespace QoSFabric

open FileSystem Interaction

open Framing (Covers Format)

variable {options : StoreOptions} {s s' t u v : Store} {d d' e : Disk FileName}
  {boot log front frame rest : Bytes} {m : Manifest} {f : Frame} {frames more : List Frame}

/-! ## The log -/

def Frame.Silent (f : Frame) : Prop :=
  f.type = .cleanShutdown ∨ (f.type = .storeHeader ∧ 32 ≤ f.body.length)

theorem Frame.Silent.replays (silent : f.Silent) : f.Replays := by
  unfold Replays applyBody
  rcases silent with shutdown | ⟨header, long⟩
  · rw [shutdown]
  · rw [header]
    simpa using long

theorem Frame.Silent.applyFrame (silent : f.Silent) (snapshotSequence : UInt64) (r : Replay) :
    (QoSFabric.applyFrame snapshotSequence r f).1.replayed = r.replayed := by
  unfold QoSFabric.applyFrame applyBody
  dsimp only
  split
  · rfl
  · rcases silent with shutdown | ⟨header, -⟩
    · rw [shutdown]
      rfl
    · rw [header]
      rfl

theorem ReplaysTo.again (reached : ReplaysTo s log front rest frames)
    (record : t.options.maxRecordBytes = s.options.maxRecordBytes)
    (sequence : t.snapshotSequence = s.snapshotSequence)
    (fits : ∀ f ∈ more, f.Fits s.options.maxRecordBytes) (silent : ∀ f ∈ more, f.Silent) :
    (t.replayOf (front ++ more.flatMap encodeFrame)).2 = .ended [] ∧
      (t.replayOf (front ++ more.flatMap encodeFrame)).1.replayed =
        (s.replayOf log).1.replayed := by
  have covers : Covers frameHeaderBytes (parseFrame s.options.maxRecordBytes)
      (front ++ more.flatMap encodeFrame) (frames ++ more) :=
    reached.covers.append ((walFormat s.options.maxRecordBytes).covers_log fits)
  have passed : ∀ f ∈ more, f.passes s.snapshotSequence = true :=
    fun f mem => Frame.passes_iff.mpr fun _ => (silent f mem).replays
  obtain ⟨r, onward⟩ : ∃ r, Format.visitAll (applyFrame s.snapshotSequence) (s.replayOf log).1 more =
      some r := ⟨_, visitAll_of_passed _ passed⟩
  have visited : Format.visitAll (applyFrame s.snapshotSequence)
      (.start s.lastSequence s.durableEpoch) (frames ++ more) = some r := by
    rw [Format.visitAll_append, reached.visited]
    exact onward
  have scanned : s.replayOf (front ++ more.flatMap encodeFrame) = (r, .ended []) :=
    Framing.scan_covers_whole (by decide) covers visited
  have kept := Format.visitAll_foldl _ Replay.replayed (fun records _ => records)
    (fun r f mem => (silent f mem).applyFrame s.snapshotSequence r) onward
  rw [List.foldl_fixed] at kept
  obtain ⟨alike, stops⟩ := replayOf_alike record sequence (front ++ more.flatMap encodeFrame)
  rw [stops, alike.replayed, scanned]
  exact ⟨rfl, kept⟩

theorem ReplayStops.again (stopped : ReplayStops s log front frame rest frames f)
    (record : t.options.maxRecordBytes = s.options.maxRecordBytes)
    (sequence : t.snapshotSequence = s.snapshotSequence)
    (repair : t.options.repairTruncateCorruptTail = false) (behind : Bytes) :
    ¬t.Admits (front ++ (frame ++ behind)) := by
  intro admits
  have visited := visitAll_of_passed (.start s.lastSequence s.durableEpoch) stopped.passed
  have refused (r : Replay) : (applyFrame s.snapshotSequence r f).2 = false :=
    (applyFrame_passes s.snapshotSequence r f).trans stopped.refused
  have halted : (s.replayOf (front ++ (frame ++ behind))).2 = .refused (frame ++ behind) behind :=
    Framing.scan_covers_refused (by decide) stopped.covers visited stopped.long stopped.found
      (refused _) behind
  have stops := (replayOf_alike record sequence (front ++ (frame ++ behind))).2
  rw [halted] at stops
  have tail : tailOf (t.replayOf (front ++ (frame ++ behind))).2 =
      some ⟨true, frame ++ behind, behind.length⟩ := by
    rw [stops]
    rfl
  have stands := standsWhole (stopped.found behind)
  rw [← record] at stands
  have admitted := (admitted_iff stands).mp (admits _ tail)
  exact Bool.false_ne_true (repair.symm.trans admitted.1)

/-! ## Opening again -/

def StoreOptions.patient (options : StoreOptions) : StoreOptions :=
  { options with repairTruncateCorruptTail := false }

theorem StoreOptions.Valid.patient (valid : options.Valid) : options.patient.Valid :=
  ⟨valid.version, valid.positive, valid.small⟩

def ReopensAs (options : StoreOptions) (s : Store) (d : Disk FileName) : Prop :=
  ∀ boot, ∃ t d', execute (Store.open options.patient boot) d = (.ok t, d') ∧
    t.replayed = s.replayed ∧ t.snapshotSequence = s.snapshotSequence ∧
    t.snapshotBytes = s.snapshotBytes ∧ t.recovery.truncatedTailBytes = 0

structure ManifestKept (options : StoreOptions) (s : Store) (held : Option Bytes)
    (d : Disk FileName) (m : Manifest) : Prop where
  loads : m.Loads options d
  path : ((Store.fresh options).adopt m).snapshotPath = s.snapshotPath
  sequence : m.snapshotSequence = s.snapshotSequence
  identity : m.storeId.isZero = false
  snapshotted : Store.Snapshotted (Store.swept d) s.snapshotPath s.snapshotSequence held

def Store.SnapshotStays (s : Store) : Prop :=
  ∀ path entry, s.snapshotPath = some path → pathEntry path = some entry →
    entry ≠ walFileName ∧ (isSnapshotName entry = true → entry = path)

theorem ManifestKept.write {held : Option Bytes} {handle : Handle}
    (kept : ManifestKept options s held d m) (file : d.file walFileName = some handle)
    (stays : s.SnapshotStays) (bytes : Bytes) :
    ManifestKept options s held (d.write handle bytes) m := by
  have other {name : FileName} (ne : name ≠ walFileName) :
      (d.write handle bytes).content name = d.content name :=
    Disk.content_write_of_ne _ fun clash => ne (Disk.file_injective clash file)
  obtain ⟨raw, content, small, decoded⟩ := kept.loads.file
  refine ⟨⟨⟨raw, (other manifest_ne_wal).trans content, small, decoded⟩, kept.loads.found⟩,
    kept.path, kept.sequence, kept.identity, ?_⟩
  have snapshotted := kept.snapshotted
  cases held with
  | none => exact snapshotted
  | some payload =>
      obtain ⟨name, entry, bytes, path, stands, content, rest⟩ := snapshotted
      obtain ⟨before, unswept⟩ := Store.content_swept.mp content
      have ne : entry ≠ walFileName := (stays name entry path stands).1
      exact ⟨name, entry, bytes, path, stands,
        Store.content_swept.mpr ⟨(other ne).trans before, unswept⟩, rest⟩

/-! ## What the first opening leaves -/

theorem Store.SnapshotStays.left {held : Option Bytes} (stays : s.SnapshotStays)
    (opens : s.Opens t d e held) {name entry : FileName} (path : s.snapshotPath = some name)
    (stands : pathEntry name = some entry) : e.content entry = (Store.swept d).content entry := by
  obtain ⟨ne, own⟩ := stays name entry path stands
  exact opens.named entry ne fun snapshot => own snapshot ▸ path

/-- The name a manifest gives to the snapshot of a store is the one its sequence gives it. -/
def Store.Canonical (s : Store) : Prop :=
  s.snapshotPath = none ∨ s.snapshotPath = some (snapshotFileName s.snapshotSequence)

/-- What holds of a manifest in force for it to be in force for the next open: the snapshot file it
names outlives the opening, it is not written or names the snapshot as it is named, and an identity
that is minted is one. -/
structure StaysInForce (boot : Bytes) (s : Store) : Prop where
  stays : s.SnapshotStays
  named : (s.recovery.manifestRebuilt = false ∧ s.identified = true) ∨ s.Canonical
  minted : s.identified = true ∨ (sha256 boot).isZero = false

structure FirstOpened (options : StoreOptions) (boot : Bytes) (s u : Store) (d d' : Disk FileName)
    (held : Option Bytes) (header : List Frame) : Prop where
  admits : s.Admits (walOf d)
  small : (walOf d).length ≤ maxWalScanBytes
  record : u.options = s.options
  replayed : u.replayed = (s.replayOf (walOf d)).1.replayed
  sequence : u.snapshotSequence = s.snapshotSequence
  snapshotBytes : u.snapshotBytes = held.getD []
  log : walOf d' = (walOf d).take ((s.cutOf (walOf d)).getD (walOf d).length) ++
    header.flatMap encodeFrame
  handle : ∃ handle, u.walHandle = some handle ∧ d'.file walFileName = some handle
  writable : u.readOnly = false
  size : u.walBytes.toNat = (walOf d').length
  last : u.lastSequence.toNat = (s.replayOf (walOf d)).1.lastSequence.toNat + header.length
  header : (s.identified = true ∧ header = []) ∨
    (s.identified = false ∧ ∃ f, header = [f] ∧ f.Silent ∧ f.Fits s.options.maxRecordBytes ∧
      (encodeFrame f).length = 65)
  snapshotted : Store.Snapshotted (Store.swept d) s.snapshotPath s.snapshotSequence held
  loaded : s.recovery.manifestRebuilt = false → s.identified = true →
    ∀ path, s.snapshotPath = some path → pathEntry path = some walFileName →
    ∃ m, m.Loads options.patient d' ∧
      ((Store.fresh options.patient).adopt m).snapshotPath = some path
  kept : StaysInForce boot s → ∃ m, ManifestKept options.patient s held d' m

theorem ManifestKept.congr {held : Option Bytes} (kept : ManifestKept options v held d m)
    (path : v.snapshotPath = s.snapshotPath) (sequence : v.snapshotSequence = s.snapshotSequence) :
    ManifestKept options s held d m := by
  have snapshotted := kept.snapshotted
  rw [path, sequence] at snapshotted
  exact ⟨kept.loads, kept.path.trans path, kept.sequence.trans sequence, kept.identity, snapshotted⟩

theorem Store.Opens.size {held : Option Bytes} (opens : s.Opens t d e held) :
    t.walBytes.toNat = (walOf e).length := by
  have le : (s.cutOf (walOf d)).getD (walOf d).length ≤ (walOf d).length := by
    cases cut : s.cutOf (walOf d) with
    | none => exact Nat.le_refl _
    | some length => exact Store.cutOf_le _ _ length cut
  have bound : (s.cutOf (walOf d)).getD (walOf d).length < 2 ^ 64 :=
    Nat.lt_of_le_of_lt (Nat.le_trans le opens.small) (by decide)
  rw [opens.replayed.walBytes, UInt64.toNat_ofNat', Nat.mod_eq_of_lt bound, opens.log,
    List.length_take, Nat.min_eq_left le]

def Store.leftLength (s : Store) (log : Bytes) : Nat :=
  framedLength s.options.maxRecordBytes log +
    if s.identified then 0 else frameHeaderBytes + (recordHeaderBytes + 32)

section Left

variable {held : Option Bytes} {header : List Frame}

theorem FirstOpened.fits (opened : FirstOpened options boot s u d d' held header) :
    ∀ f ∈ header, f.Fits s.options.maxRecordBytes := by
  rcases opened.header with ⟨-, rfl⟩ | ⟨-, f, rfl, -, fits, -⟩
  · exact nofun
  · exact List.forall_mem_singleton.mpr fits

theorem FirstOpened.silent (opened : FirstOpened options boot s u d d' held header) :
    ∀ f ∈ header, f.Silent := by
  rcases opened.header with ⟨-, rfl⟩ | ⟨-, f, rfl, silent, -⟩
  · exact nofun
  · exact List.forall_mem_singleton.mpr silent

theorem FirstOpened.left (opened : FirstOpened options boot s u d d' held header)
    (reached : ReplaysTo s (walOf d) front rest frames) :
    walOf d' = front ++ header.flatMap encodeFrame := by
  rw [opened.log, reached.cut]
  congr 1
  rw [reached.split, List.take_left]

theorem FirstOpened.length (opened : FirstOpened options boot s u d d' held header)
    (reached : ReplaysTo s (walOf d) front rest frames) :
    (walOf d').length = s.leftLength (walOf d) := by
  rw [opened.left reached, List.length_append, Store.leftLength, reached.framed]
  rcases opened.header with ⟨known, rfl⟩ | ⟨unknown, f, rfl, -, -, length⟩
  · rw [known]
    rfl
  · rw [unknown, List.flatMap_singleton, length]
    rfl

end Left

/-! ## Closing -/

section Clean

variable {held : Option Bytes} {header : List Frame}

theorem FirstOpened.ready (opened : FirstOpened options boot s u d d' held header) : u.Ready := by
  obtain ⟨handle, attached, -⟩ := opened.handle
  exact ⟨opened.writable, handle, attached⟩

theorem ReopensAs.admits (valid : options.Valid) (reopens : ReopensAs options s d) :
    ∃ t : Store, t.options = options.patient ∧ t.snapshotSequence = s.snapshotSequence ∧
      t.Admits (walOf d) ∧ (walOf d).length ≤ maxWalScanBytes := by
  obtain ⟨u, d', opened, -, sequence, -⟩ := reopens []
  rw [execute_open valid.patient, Store.openImpl_eq_ok] at opened
  obtain ⟨t, e, loaded, opened⟩ := opened
  obtain ⟨v, e₁, held, opens, concluded⟩ := Store.opens_of_openLoaded opened
  have begun := Store.begun_of_loadOrRebuild loaded
  have small : v.options.maxRecordBytes ≤ Limits.maxWalRecordBytes :=
    (opens.same_options begun) ▸ valid.small
  obtain ⟨handle, attached, file⟩ := opens.handle
  have ends := Store.ends_of_conclude small (opens.nameless begun) attached file concluded
  have kept : walOf e = walOf d := (Store.published_of_loadOrRebuild loaded).1
  refine ⟨t, begun.options, ?_, kept ▸ opens.admits, kept ▸ opens.small⟩
  exact opens.replayed.snapshotSequence.symm.trans (ends.snapshotSequence.symm.trans sequence)

end Clean

end QoSFabric
