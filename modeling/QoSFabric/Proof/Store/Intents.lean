import QoSFabric.Model.Store

namespace QoSFabric.Store

open FileSystem Interaction

variable {s : Store}

def KeepsCount {α : Type} (s : Store) (outcome : Result α × Store) : Prop :=
  outcome.2.stagedCount = s.stagedCount

def Sets (s : Store) : Result Store → Prop
  | .error _ => True
  | .ok s' => s'.stagedCount = s.stagedCount

theorem always_appendFrame (s : Store) (type : RecordType) (flags : UInt8) (attempt : AttemptId)
    (payload : Bytes) : (s.appendFrame type flags attempt payload).Always s.KeepsCount := by
  unfold appendFrame
  split
  · split
    · exact rfl
    · apply Program.Always.after
      intro wrote
      split
      · exact rfl
      · apply Program.Always.after
        intro synced
        split <;> exact rfl
  · exact rfl

def Stages (s : Store) : Result AttemptId × Store → Prop
  | (.ok _, s') => s.stagedCount < Limits.maxJournalIntentsInFlight ∧ s'.stagedCount = s.stagedCount + 1
  | (.error _, s') => s'.stagedCount = s.stagedCount

theorem always_stage (s : Store) (type : RecordType) (payload : Bytes) :
    (s.stage type payload).Always s.Stages := by
  unfold stage
  split
  · exact rfl
  next few =>
    dsimp only
    split
    · exact rfl
    · apply (always_appendFrame ..).bind
      rintro ⟨_ | sequence, s'⟩ kept
      · exact kept
      · exact ⟨UInt32.not_le.mp few, congrArg (· + 1) kept⟩

def Commits (s : Store) : Result Unit × Store → Prop
  | (.ok _, s') => s'.stagedCount = s.retire.stagedCount
  | (.error _, s') => s'.stagedCount = s.stagedCount

theorem always_commit (s : Store) (attempt : AttemptId) (digest : Digest256) :
    (s.commit attempt digest).Always s.Commits := by
  unfold commit
  split
  · exact rfl
  · apply (always_appendFrame ..).bind
    rintro ⟨_ | sequence, s'⟩ kept
    · exact kept
    · unfold KeepsCount at kept
      unfold Commits retire
      dsimp only at kept ⊢
      rw [kept]
      rfl

theorem always_reopenWal (s : Store) : s.reopenWal.Always s.KeepsCount := by
  unfold reopenWal
  apply Program.Always.after
  intro handle
  split <;> exact rfl

theorem always_writeSnapshot (s : Store) (snapshot : Bytes) :
    (s.writeSnapshot snapshot).Always s.KeepsCount := by
  unfold writeSnapshot
  split
  · exact rfl
  dsimp only
  split
  · exact rfl
  apply Program.Always.after
  rintro (_ | _)
  · exact rfl
  apply Program.Always.after
  rintro (_ | _)
  · exact rfl
  apply Program.Always.after
  rintro (_ | _)
  · apply (always_reopenWal _).bind
    exact fun _ kept => kept
  apply (always_reopenWal _).bind
  rintro ⟨_ | _, s'⟩ kept
  · exact kept
  dsimp only
  split
  · exact kept
  · split
    · apply Program.Always.after
      exact fun _ => kept
    · exact kept

theorem always_close (s : Store) : s.close.Always s.KeepsCount := by
  unfold close
  split
  · exact rfl
  split
  · exact rfl
  · apply (always_appendFrame ..).bind
    rintro ⟨_ | _, s'⟩ kept
    · exact kept
    · exact kept

theorem always_loadManifest (s : Store) : s.loadManifest.Always s.Sets := by
  unfold loadManifest
  apply Program.Always.after
  intro present
  split
  · trivial
  apply Program.Always.after
  rintro (_ | raw)
  · trivial
  dsimp only
  split
  · trivial
  split
  · exact rfl
  apply Program.Always.after
  intro found
  split
  · exact rfl
  · trivial

theorem stagedCount_rebuildFrame (s : Store) (f : Frame) :
    (rebuildFrame s f).1.stagedCount = s.stagedCount := by
  unfold rebuildFrame
  dsimp only
  split <;> split <;> rfl

theorem always_rebuildFromLog (s : Store) :
    s.rebuildFromLog.Always fun s' => s'.stagedCount = s.stagedCount := by
  unfold rebuildFromLog
  apply Program.Always.after
  intro present
  split
  · apply Program.Always.after
    rintro (_ | bytes)
    · exact rfl
    · apply Framing.scan_keeps (P := fun s' : Store => s'.stagedCount = s.stagedCount)
      · intro s' f kept
        rw [stagedCount_rebuildFrame, kept]
      · rfl
  · exact rfl

theorem always_rebuildManifest (s : Store) : s.rebuildManifest.Always s.Sets := by
  unfold rebuildManifest
  apply Program.Always.after
  rintro (_ | entries)
  · trivial
  apply Program.Always.after
  intro best
  apply (always_rebuildFromLog _).bind
  intro s' kept
  apply Program.Always.after
  rintro (_ | _)
  · trivial
  · refine Eq.trans kept ?_
    unfold rebuildFromSnapshot
    dsimp only
    split <;> rfl

theorem always_loadOrRebuild (s : Store) : s.loadOrRebuild.Always s.Sets := by
  unfold loadOrRebuild
  apply (always_loadManifest s).bind
  rintro (e | s') kept
  · dsimp only
    split
    · trivial
    · apply (always_rebuildManifest s).bind
      rintro (_ | s') kept
      · trivial
      · exact kept
  · exact kept

theorem always_loadSnapshot (s : Store) : s.loadSnapshot.Always s.Sets := by
  unfold loadSnapshot
  split
  · exact rfl
  apply Program.Always.after
  rintro (_ | bytes)
  · trivial
  dsimp only
  split
  · trivial
  split
  · trivial
  · exact rfl

theorem stagedCount_readLog {s s' : Store} {bytes : Bytes} {cut : Option ℕ}
    (read : s.readLog bytes = .ok (s', cut)) : s'.stagedCount = s.stagedCount := by
  unfold readLog at read
  dsimp only at read
  split at read
  · cases read
    rfl
  · split at read
    · cases read
    · cases read
      rfl

theorem always_replayLog (s : Store) : s.replayLog.Always s.Sets := by
  unfold replayLog
  apply Program.Always.after
  intro present
  split
  · exact rfl
  apply Program.Always.after
  rintro (_ | bytes)
  · trivial
  dsimp only
  split
  · trivial
  next read => exact stagedCount_readLog read
  next read =>
    apply Program.Always.after
    exact fun _ => stagedCount_readLog read

theorem always_mintIdentity (s : Store) (boot : Bytes) : (s.mintIdentity boot).Always s.Sets := by
  unfold mintIdentity
  split
  · exact rfl
  · apply (always_appendFrame ..).bind
    rintro ⟨_ | _, s'⟩ kept
    · trivial
    · apply Program.Always.after
      rintro (_ | _)
      · trivial
      · exact kept

theorem always_conclude (s : Store) (boot : Bytes) : (s.conclude boot).Always s.Sets := by
  unfold conclude
  apply (always_mintIdentity s boot).bind
  rintro (_ | s') kept
  · trivial
  · exact kept

theorem always_open (options : StoreOptions) (boot : Bytes) :
    (Store.open options boot).Always (fresh options).Sets := by
  unfold Store.open
  split
  · trivial
  split
  · trivial
  unfold openImpl
  apply (always_loadOrRebuild _).bind
  rintro (_ | s₁) kept₁
  · trivial
  apply Program.Always.after
  intro entries
  apply Program.Always.after
  intro _
  apply (always_loadSnapshot s₁).bind
  rintro (_ | s₂) kept₂
  · trivial
  apply (always_replayLog s₂).bind
  rintro (_ | s₃) kept₃
  · trivial
  apply Program.Always.after
  intro _
  apply (always_reopenWal s₃).bind
  rintro ⟨_ | _, s₄⟩ kept₄
  · trivial
  apply (always_conclude s₄ boot).mono
  rintro (_ | s₅) kept₅
  · trivial
  · exact kept₅.trans (kept₄.trans (kept₃.trans (kept₂.trans kept₁)))

end QoSFabric.Store
