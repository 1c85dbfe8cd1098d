import QoSFabric.Proof.Store.Live

namespace QoSFabric

open FileSystem Interaction

namespace Shows

variable {d e : Disk FileName} {m : Manifest} {snapshot : Option Bytes} {log bytes : Bytes}

theorem sameBut (shows : Shows d m snapshot log) {name : FileName}
    (same : SameBut d e (tempName name)) : Shows e m snapshot log :=
  shows.congr (same.content_of_ne _ (tempName_ne_manifest _).symm)
    (same.content_of_ne _ (tempName_ne_wal _).symm) fun sequence named => by
      rw [← named]
      exact same.content_of_ne _ (tempName_ne_snapshot _ _).symm

theorem replacedUnreferenced (shows : Shows d m snapshot log) {sequence : UInt64}
    (replaced : Replaced d e (snapshotFileName sequence) bytes)
    (unreferenced : m.snapshotName ≠ snapshotFileName sequence) : Shows e m snapshot log :=
  shows.congr
    (replaced.content_of_ne _ (snapshot_ne_manifest _).symm (tempName_ne_manifest _).symm)
    (replaced.content_of_ne _ (snapshot_ne_wal _).symm (tempName_ne_wal _).symm)
    fun other named => by
      rw [← named]
      refine replaced.content_of_ne _ (fun eq => unreferenced (named.symm.trans eq)) ?_
      exact (tempName_ne_snapshot _ _).symm

theorem replacedReferenced (shows : Shows d m snapshot log) {payload : Bytes}
    (replaced : Replaced d e (snapshotFileName m.snapshotSequence)
      (snapshotFile m.snapshotSequence payload))
    (small : payload.length ≤ Limits.maxSnapshotBytes)
    (referenced : m.snapshotName = snapshotFileName m.snapshotSequence) :
    Shows e m (some payload) log where
  manifest := (replaced.content_of_ne _ (snapshot_ne_manifest _).symm
    (tempName_ne_manifest _).symm).trans shows.manifest
  sound := shows.sound
  log := (replaced.content_of_ne _ (snapshot_ne_wal _).symm (tempName_ne_wal _).symm).trans
    shows.log
  unnamed := by simp
  named other mem := by
    obtain rfl := Option.some.inj mem
    exact ⟨referenced, small, referenced ▸ replaced.content_self⟩

theorem replacedLog (shows : Shows d m snapshot log) (replaced : Replaced d e walFileName bytes) :
    Shows e m snapshot bytes where
  manifest := (replaced.content_of_ne _ manifest_ne_wal (tempName_ne_manifest _).symm).trans
    shows.manifest
  sound := shows.sound
  log := replaced.content_self
  unnamed := shows.unnamed
  named payload mem := by
    obtain ⟨name, small, content⟩ := shows.named payload mem
    refine ⟨name, small, Eq.trans ?_ content⟩
    rw [name]
    exact replaced.content_of_ne _ (snapshot_ne_wal _) (tempName_ne_snapshot _ _).symm

theorem removeSnapshot (shows : Shows d m snapshot log) {sequence : UInt64}
    (unreferenced : m.snapshotName ≠ snapshotFileName sequence) :
    Shows (d.remove (snapshotFileName sequence)) m snapshot log :=
  shows.congr (Disk.content_remove_of_ne (snapshot_ne_manifest _).symm)
    (Disk.content_remove_of_ne (snapshot_ne_wal _).symm) fun _ _ =>
      Disk.content_remove_of_ne unreferenced

end Shows

def Store.compacted (s : Store) : Store :=
  { s with
    snapshotPath := some (snapshotFileName s.lastSequence)
    snapshotSequence := s.lastSequence }

theorem sound_compacted (s : Store) : s.compacted.manifest.Sound :=
  have name : s.compacted.manifest.snapshotName = snapshotFileName s.lastSequence := by
    simp [Store.compacted, Store.manifest]
  Manifest.sound_snapshotFileName name

section

variable {s : Store} {d : Disk FileName} {m : Manifest} {snapshot : Option Bytes}
  {log payload : Bytes} {crash : Disk FileName → Prop}
  {post : Result Unit × Store → Disk FileName → Prop}

structure Compacts (s : Store) (m : Manifest) (snapshot : Option Bytes) (log payload : Bytes)
    (crash : Disk FileName → Prop) : Prop where
  old : ∀ e, Shows e m snapshot log → crash e
  overwritten : m.snapshotName = snapshotFileName s.lastSequence →
    ∀ e, Shows e m (some payload) log → crash e
  published : ∀ e, Shows e s.compacted.manifest (some payload) log → crash e
  retired : ∀ e, Shows e s.compacted.manifest (some payload) [] → crash e

theorem Shows.publishedSnapshot (shows : Shows d m snapshot log)
    (small : payload.length ≤ Limits.maxSnapshotBytes) {e : Disk FileName}
    (replaced : Replaced d e (snapshotFileName s.lastSequence)
      (snapshotFile s.lastSequence payload)) :
    Shows e m snapshot log ∨
      m.snapshotName = snapshotFileName s.lastSequence ∧ Shows e m (some payload) log := by
  by_cases referenced : m.snapshotName = snapshotFileName s.lastSequence
  · refine .inr ⟨referenced, ?_⟩
    have sequence : m.snapshotSequence = s.lastSequence := by
      cases snap : snapshot with
      | none =>
          rw [shows.unnamed snap] at referenced
          exact absurd referenced.symm (Store.snapshotFileName_ne_nil _)
      | some old =>
          obtain ⟨name, -, -⟩ := shows.named old snap
          exact snapshotFileName_injective (name.symm.trans referenced)
    rw [← sequence] at replaced referenced
    exact shows.replacedReferenced replaced small referenced
  · exact .inl (shows.replacedUnreferenced replaced referenced)

theorem Shows.published {e e' : Disk FileName} (shows : Shows e m snapshot log)
    (small : payload.length ≤ Limits.maxSnapshotBytes)
    (snap : e.content (snapshotFileName s.lastSequence) =
      some (snapshotFile s.lastSequence payload))
    (replaced : Replaced e e' manifestFileName s.compacted.manifest.file) :
    Shows e' s.compacted.manifest (some payload) log where
  manifest := replaced.content_self
  sound := sound_compacted s
  log := (replaced.content_of_ne _ wal_ne_manifest (tempName_ne_wal _).symm).trans shows.log
  unnamed := by simp
  named other mem := by
    obtain rfl := Option.some.inj mem
    have name : s.compacted.manifest.snapshotName = snapshotFileName s.lastSequence := by
      simp [Store.compacted, Store.manifest]
    refine ⟨name, small, ?_⟩
    rw [name]
    exact (replaced.content_of_ne _ (snapshot_ne_manifest _)
      (tempName_ne_snapshot _ _).symm).trans snap

theorem Shows.wp_writeSnapshot (shows : Shows d m snapshot log)
    (path : s.snapshotPath = snapshot.map fun _ => snapshotFileName s.snapshotSequence)
    (small : payload.length ≤ Limits.maxSnapshotBytes)
    (safe : Compacts s m snapshot log payload crash)
    (done : ∀ handle e, e.file walFileName = some handle →
      Shows e s.compacted.manifest (some payload) [] →
      post (.ok (), { s.compacted with walHandle := some handle, walBytes := 0 }) e) :
    (s.writeSnapshot payload).wp Disk.world crash post d := by
  have fits : ¬payload.length > Limits.maxSnapshotBytes := Nat.not_lt.mpr small
  have encoded := encodeSnapshot_eq s.lastSequence small
  have some_ : ¬(snapshotFile s.lastSequence payload).isEmpty = true := by
    rw [List.isEmpty_iff]
    intro empty
    have := congrArg List.length empty
    rw [length_snapshotFile, List.length_nil] at this
    omega
  unfold Store.writeSnapshot
  rw [if_neg fits]
  dsimp only
  rw [encoded, if_neg some_, Program.wp_bind]
  refine wp_writeFileAtomic (fun e same => safe.old e (shows.sameBut same)) ?_
  intro e₁ replaced₁
  have snap : e₁.content (snapshotFileName s.lastSequence) =
      some (snapshotFile s.lastSequence payload) := replaced₁.content_self
  obtain ⟨snapshot₁, shows₁, safe₁⟩ : ∃ snapshot₁, Shows e₁ m snapshot₁ log ∧
      ∀ e, Shows e m snapshot₁ log → crash e := by
    rcases shows.publishedSnapshot small replaced₁ with shows | ⟨referenced, shows⟩
    · exact ⟨_, shows, safe.old⟩
    · exact ⟨_, shows, safe.overwritten referenced⟩
  refine ⟨safe₁ _ shows₁, ?_⟩
  dsimp only
  rw [← Store.compacted, Program.wp_bind]
  refine Live.wp_writeManifest (sound_compacted s)
    (fun e same => safe₁ e (shows₁.sameBut same)) ?_
  intro e₂ replaced₂
  have shows₂ := shows₁.published small snap replaced₂
  refine ⟨safe.published _ shows₂, ?_⟩
  dsimp only
  rw [Program.wp_bind]
  refine wp_writeFileAtomic (fun e same => safe.published e (shows₂.sameBut same)) ?_
  intro e₃ replaced₃
  have shows₃ := shows₂.replacedLog replaced₃
  refine ⟨safe.retired _ shows₃, ?_⟩
  obtain ⟨handle, file, -⟩ := Disk.content_eq_some.mp shows₃.log
  dsimp only
  unfold Store.reopenWal
  rw [Program.wp_bind, Disk.wp_openAppend, Disk.openAppend_of_file file]
  refine ⟨safe.retired _ shows₃, ?_⟩
  have finish (e : Disk FileName) (shows : Shows e s.compacted.manifest (some payload) [])
      (file : e.file walFileName = some handle) :
      (Program.done (.ok (), { s.compacted with walHandle := some handle, walBytes := 0 }) :
        Files (Result Unit × Store)).wp Disk.world crash post e :=
    ⟨safe.retired e shows, done handle e file shows⟩
  dsimp only
  rw [Program.pure_eq_done, Program.wp_done]
  refine ⟨safe.retired _ shows₃, ?_⟩
  dsimp only
  cases snap : snapshot with
  | none =>
      rw [snap, Option.map_none] at path
      rw [path]
      exact finish e₃ shows₃ file
  | some old =>
      rw [snap, Option.map_some] at path
      rw [path]
      dsimp only
      split
      · next different =>
          rw [removePath_of_entry (pathEntry_snapshotFileName _), Disk.wp_remove]
          refine ⟨safe.retired _ shows₃, finish _ (shows₃.removeSnapshot ?_) ?_⟩
          · simpa [Store.compacted, Store.manifest, eq_comm] using different
          · rw [Disk.file_remove_of_ne (snapshot_ne_wal _).symm]
            exact file
      · exact finish e₃ shows₃ file

theorem wp_writeSnapshot (live : Live s d m snapshot log)
    (small : payload.length ≤ Limits.maxSnapshotBytes)
    (safe : Compacts s m snapshot log payload crash)
    (done : ∀ handle e,
      Live { s.compacted with walHandle := some handle, walBytes := 0 } e s.compacted.manifest
        (some payload) [] →
      post (.ok (), { s.compacted with walHandle := some handle, walBytes := 0 }) e) :
    (s.writeSnapshot payload).wp Disk.world crash post d := by
  apply live.shows.wp_writeSnapshot live.path small safe
  intro handle e file shows
  exact done handle e ⟨shows, live.valid, ⟨handle, file, rfl⟩, live.writable, rfl, rfl, rfl,
    UInt64.le_refl _⟩

end

end QoSFabric
