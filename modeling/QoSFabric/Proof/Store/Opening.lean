import QoSFabric.Proof.Store.Capacity
import QoSFabric.Proof.Store.Rebuild

namespace QoSFabric

open FileSystem Interaction

variable {options : StoreOptions} {s t u : Store} {d e d' : Disk FileName} {boot : Bytes}

/-- The bytes of the log, none when there is no file. -/
def walOf (d : Disk FileName) : Bytes := (d.content walFileName).getD []

theorem walOf_of_content (content : d.content walFileName = e.content walFileName) :
    walOf d = walOf e := by
  rw [walOf, walOf, content]

/-! ## The manifest -/

structure Manifest.Loads (options : StoreOptions) (d : Disk FileName) (m : Manifest) : Prop where
  file : ∃ raw, d.content manifestFileName = some raw ∧ raw.length ≤ 65536 ∧
    decodeManifest options.formatVersion raw = .ok m
  found : m.snapshotName ≠ [] →
    (pathEntry m.snapshotName).all (fun entry => (d.file entry).isSome) = true

theorem readEntry_cases (d : Disk FileName) (entry path : FileName) (maxBytes : Nat) :
    (∃ failure, execute (readEntry entry path maxBytes) d = (.error failure, d)) ∨
      ∃ bytes, execute (readEntry entry path maxBytes) d = (.ok bytes, d) ∧
        d.content entry = some bytes ∧ bytes.length ≤ maxBytes := by
  cases content : d.content entry with
  | none =>
      left
      unfold readEntry
      rw [execute_bind, execute_read, content]
      exact ⟨_, rfl⟩
  | some raw =>
      rw [execute_readEntry content]
      split
      · exact .inl ⟨_, rfl⟩
      · next small => exact .inr ⟨raw, rfl, rfl, Nat.not_lt.mp small⟩

theorem readFile_cases (d : Disk FileName) (name : FileName) (maxBytes : Nat) :
    (∃ failure, execute (readFile name maxBytes) d = (.error failure, d)) ∨
      ∃ bytes, execute (readFile name maxBytes) d = (.ok bytes, d) ∧ d.content name = some bytes ∧
        bytes.length ≤ maxBytes :=
  readEntry_cases d name name maxBytes

theorem readPath_cases (d : Disk FileName) (path : FileName) (maxBytes : Nat) :
    (∃ failure, execute (readPath path maxBytes) d = (.error failure, d)) ∨
      ∃ entry bytes, pathEntry path = some entry ∧
        execute (readPath path maxBytes) d = (.ok bytes, d) ∧ d.content entry = some bytes ∧
        bytes.length ≤ maxBytes := by
  cases named : pathEntry path with
  | none =>
      left
      unfold readPath
      rw [named]
      exact ⟨_, rfl⟩
  | some entry =>
      rw [readPath_of_entry named]
      rcases readEntry_cases d entry path maxBytes with failed | ⟨bytes, read, content, small⟩
      · exact .inl failed
      · exact .inr ⟨entry, bytes, rfl, read, content, small⟩

namespace Store

theorem loadManifest_eq_ok :
    execute (fresh options).loadManifest d = (.ok t, e) ↔
      e = d ∧ ∃ m, Manifest.Loads options d m ∧ t = (fresh options).adopt m := by
  constructor
  · intro h
    unfold loadManifest at h
    rw [execute_bind, execute_exists] at h
    cases present : (d.file manifestFileName).isSome with
    | false =>
        rw [present] at h
        cases h
    | true =>
        rw [present] at h
        simp only [Bool.not_true, Bool.false_eq_true, if_false] at h
        rw [execute_bind] at h
        rcases readFile_cases d manifestFileName 65536 with ⟨failure, read⟩ | ⟨raw, read, content, small⟩
        · rw [read] at h
          cases h
        rw [read] at h
        dsimp only at h
        rw [show (fresh options).options.formatVersion = options.formatVersion from rfl] at h
        cases decoded : decodeManifest options.formatVersion raw with
        | error failure =>
            rw [decoded] at h
            cases h
        | ok m =>
            rw [decoded] at h
            dsimp only at h
            split at h
            · next unnamed =>
                cases h
                refine ⟨rfl, m, ⟨⟨raw, content, small, decoded⟩, ?_⟩, rfl⟩
                intro named
                exact absurd (List.isEmpty_iff.mp unnamed) named
            · rw [execute_bind, execute_pathExists] at h
              cases found : (pathEntry m.snapshotName).all (fun entry => (d.file entry).isSome) with
              | false =>
                  rw [found] at h
                  cases h
              | true =>
                  rw [found] at h
                  cases h
                  exact ⟨rfl, m, ⟨⟨raw, content, small, decoded⟩, fun _ => found⟩, rfl⟩
  · rintro ⟨rfl, m, ⟨⟨raw, content, small, decoded⟩, found⟩, rfl⟩
    unfold loadManifest
    rw [execute_bind, execute_exists, isSome_file_of_content content]
    simp only [Bool.not_true, Bool.false_eq_true, if_false]
    rw [execute_bind, execute_readFile content, if_neg (Nat.not_lt.mpr small)]
    dsimp only
    rw [show (fresh options).options.formatVersion = options.formatVersion from rfl, decoded]
    dsimp only
    split
    · rfl
    · next named =>
        rw [execute_bind, execute_pathExists, found fun empty => named (List.isEmpty_iff.mpr empty)]
        rfl

theorem loadOrRebuild_of_loads {m : Manifest} (loads : m.Loads options d) :
    execute (fresh options).loadOrRebuild d = (.ok ((fresh options).adopt m), d) := by
  unfold loadOrRebuild
  rw [execute_bind, loadManifest_eq_ok.mpr ⟨rfl, m, loads, rfl⟩]
  rfl

theorem loads_of_loadOrRebuild (h : execute (fresh options).loadOrRebuild d = (.ok t, e))
    (kept : t.recovery.manifestRebuilt = false) :
    e = d ∧ ∃ m, Manifest.Loads options d m ∧ t = (fresh options).adopt m := by
  unfold loadOrRebuild at h
  rw [execute_bind] at h
  cases loaded : execute (fresh options).loadManifest d with
  | mk result d₁ =>
      rw [loaded] at h
      cases result with
      | ok s =>
          cases h
          exact loadManifest_eq_ok.mp loaded
      | error failure =>
          dsimp only at h
          split at h
          · cases h
          · rw [execute_bind] at h
            cases rebuilt : execute (fresh options).rebuildManifest d₁ with
            | mk result d₂ =>
                rw [rebuilt] at h
                cases result with
                | error failure => cases h
                | ok s =>
                    cases h
                    cases kept

/-! ## Members of a store whose manifest is in force -/

def Unnamed (s : Store) : Prop := s.snapshotPath = none → s.snapshotSequence = 0

structure Begun (options : StoreOptions) (s : Store) : Prop where
  options : s.options = options
  unnamed : s.Unnamed
  writable : s.readOnly = false
  replayed : s.replayed = []
  snapshotBytes : s.snapshotBytes = []
  truncated : s.recovery.truncatedTailBytes = 0

theorem sound_manifest (unnamed : s.Unnamed) : s.manifest.Sound := by
  cases path : s.snapshotPath with
  | none =>
      refine Manifest.sound_unnamed ?_ (unnamed path)
      simp [manifest, path]
  | some name =>
      have named : s.manifest.snapshotName = snapshotFileName s.snapshotSequence := by
        simp [manifest, path]
      exact Manifest.sound_snapshotFileName named

theorem execute_writeManifest_of_sound (sound : s.manifest.Sound) (d : Disk FileName) :
    ∃ e, execute s.writeManifest d = (.ok (), e) ∧
      Replaced d e manifestFileName s.manifest.file := by
  have weakest : s.writeManifest.wp Disk.world (fun _ => True)
      (fun r e => r = .ok () ∧ Replaced d e manifestFileName s.manifest.file) d :=
    Live.wp_writeManifest sound (fun _ _ => trivial) fun _ replaced => ⟨trivial, rfl, replaced⟩
  obtain ⟨result, replaced⟩ := Program.wp_run weakest
  exact ⟨_, Prod.ext result rfl, replaced⟩

theorem unnamed_of_decodeManifest {formatVersion : UInt16} {raw : Bytes} {m : Manifest}
    (decoded : decodeManifest formatVersion raw = .ok m) (name : m.snapshotName = []) :
    m.snapshotSequence = 0 := by
  unfold decodeManifest at decoded
  split at decoded
  · cases decoded
  split at decoded
  · cases decoded
  split at decoded
  · cases decoded
  dsimp only at decoded
  split at decoded
  · cases decoded
  split at decoded
  · cases decoded
  split at decoded
  · cases decoded
  split at decoded
  · cases decoded
  cases decoded
  exact if_pos (List.isEmpty_iff.mpr name)

theorem begun_adopt {m : Manifest} (loads : m.Loads options d) :
    Begun options ((fresh options).adopt m) where
  options := rfl
  unnamed path := by
    obtain ⟨raw, -, -, decoded⟩ := loads.file
    refine unnamed_of_decodeManifest decoded ?_
    by_contra named
    rw [adopt, if_neg (mt List.isEmpty_iff.mp named)] at path
    cases path
  writable := rfl
  replayed := rfl
  snapshotBytes := rfl
  truncated := rfl

theorem begun_rebuildFromSnapshot (options : StoreOptions) (best : Option (UInt64 × FileName)) :
    Begun options ((fresh options).rebuildFromSnapshot best) := by
  cases best with
  | none => exact ⟨rfl, fun _ => rfl, rfl, rfl, rfl, rfl⟩
  | some found => exact ⟨rfl, nofun, rfl, rfl, rfl, rfl⟩

theorem Begun.restated (begun : Begun options s) (frames : List Frame) :
    Begun options (s.restated frames) :=
  ⟨begun.options, begun.unnamed, begun.writable, begun.replayed, begun.snapshotBytes,
    begun.truncated⟩

theorem begun_rebuildFromLog (begun : Begun options s)
    (h : execute s.rebuildFromLog d = (t, e)) : Begun options t ∧ e = d := by
  unfold rebuildFromLog at h
  rw [execute_bind, execute_exists] at h
  cases present : (d.file walFileName).isSome with
  | false =>
      rw [present] at h
      cases h
      exact ⟨begun, rfl⟩
  | true =>
      rw [present, if_pos rfl, execute_bind] at h
      rcases readFile_cases d walFileName maxWalScanBytes with ⟨failure, read⟩ | ⟨log, read, -, -⟩
      · rw [read] at h
        cases h
        exact ⟨begun, rfl⟩
      · rw [read] at h
        cases h
        refine ⟨Framing.scan_keeps (P := Begun options) ?_ begun, rfl⟩
        intro v f held
        rw [rebuildFrame_eq]
        exact held.restated [f]

theorem bestSnapshot_reads (names : List FileName) (best : Option (UInt64 × FileName)) :
    (execute (bestSnapshot names best) d).2 = d := by
  induction names generalizing best with
  | nil => rfl
  | cons name names ih =>
      unfold bestSnapshot
      split
      · exact ih best
      next sequence _ =>
      rw [execute_bind]
      rcases readFile_cases d name Limits.maxSnapshotBytes with ⟨failure, read⟩ | ⟨bytes, read, -, -⟩
      · rw [read]
        exact ih best
      · rw [read]
        dsimp only
        split
        · exact ih best
        split
        · exact ih best
        split
        · exact ih _
        · split
          · exact ih _
          · exact ih _

theorem rebuilt_of_rebuildManifest (h : execute (fresh options).rebuildManifest d = (.ok t, e)) :
    ∃ best v report, execute ((fresh options).rebuildFromSnapshot best).rebuildFromLog d = (v, d) ∧
      execute v.writeManifest d = (.ok (), e) ∧ t = { v with recovery := report } ∧
      report.truncatedTailBytes = v.recovery.truncatedTailBytes := by
  unfold rebuildManifest at h
  rw [execute_bind, execute_listDirectory] at h
  cases listed : (execute listDirectory d).1 with
  | error failure =>
      rw [listed] at h
      cases h
  | ok names =>
      rw [listed] at h
      dsimp only at h
      rw [execute_bind, bestSnapshot_reads] at h
      generalize (execute (bestSnapshot names none) d).1 = best at h
      rw [execute_bind] at h
      cases logged : execute ((fresh options).rebuildFromSnapshot best).rebuildFromLog d with
      | mk v d₁ =>
          obtain ⟨-, rfl⟩ := begun_rebuildFromLog (begun_rebuildFromSnapshot options best) logged
          rw [logged] at h
          dsimp only at h
          rw [execute_bind] at h
          cases written : execute v.writeManifest d₁ with
          | mk result d₂ =>
              rw [written] at h
              cases result with
              | error failure => cases h
              | ok =>
                  cases h
                  exact ⟨best, v, _, logged, written, rfl, rfl⟩

theorem begun_of_loadOrRebuild (h : execute (fresh options).loadOrRebuild d = (.ok t, e)) :
    Begun options t := by
  unfold loadOrRebuild at h
  rw [execute_bind] at h
  cases loaded : execute (fresh options).loadManifest d with
  | mk result d₁ =>
      rw [loaded] at h
      cases result with
      | ok s =>
          cases h
          obtain ⟨-, m, loads, rfl⟩ := loadManifest_eq_ok.mp loaded
          exact begun_adopt loads
      | error failure =>
          dsimp only at h
          split at h
          · cases h
          rw [execute_bind] at h
          cases rebuilt : execute (fresh options).rebuildManifest d₁ with
          | mk result d₂ =>
              rw [rebuilt] at h
              cases result with
              | error failure => cases h
              | ok s =>
                  cases h
                  obtain ⟨best, v, report, logged, -, rfl, kept⟩ :=
                    rebuilt_of_rebuildManifest rebuilt
                  obtain ⟨begun, -⟩ :=
                    begun_rebuildFromLog (begun_rebuildFromSnapshot options best) logged
                  exact ⟨begun.options, begun.unnamed, begun.writable, begun.replayed,
                    begun.snapshotBytes, kept.trans begun.truncated⟩

theorem published_of_loadOrRebuild (h : execute (fresh options).loadOrRebuild d = (.ok t, e)) :
    walOf e = walOf d ∧
      ((t.recovery.manifestRebuilt = false ∧ e = d ∧
          ∃ m, Manifest.Loads options d m ∧ t = (fresh options).adopt m) ∨
        (t.recovery.manifestRebuilt = true ∧
          e.content manifestFileName = some t.manifest.file)) := by
  have begun := begun_of_loadOrRebuild h
  cases rebuilt : t.recovery.manifestRebuilt with
  | false =>
      obtain ⟨rfl, m, loads, eq⟩ := loads_of_loadOrRebuild h rebuilt
      exact ⟨rfl, .inl ⟨rfl, rfl, m, loads, eq⟩⟩
  | true =>
      unfold loadOrRebuild at h
      rw [execute_bind] at h
      cases loaded : execute (fresh options).loadManifest d with
      | mk result d₁ =>
          rw [loaded] at h
          cases result with
          | ok s =>
              cases h
              obtain ⟨-, m, -, rfl⟩ := loadManifest_eq_ok.mp loaded
              cases rebuilt
          | error failure =>
              have read : d₁ = d := by
                have same := Disk.Reading.run (reading_loadManifest (fresh options)) d
                rwa [show Program.run Disk.answer (fresh options).loadManifest d = _ from loaded] at same
              subst read
              dsimp only at h
              split at h
              · cases h
              rw [execute_bind] at h
              cases remade : execute (fresh options).rebuildManifest d₁ with
              | mk result d₂ =>
                  rw [remade] at h
                  cases result with
                  | error failure => cases h
                  | ok s =>
                      cases h
                      obtain ⟨best, v, report, -, written, rfl, -⟩ :=
                        rebuilt_of_rebuildManifest remade
                      obtain ⟨e, published, replaced⟩ :=
                        execute_writeManifest_of_sound (sound_manifest begun.unnamed) d₁
                      obtain ⟨-, rfl⟩ := Prod.mk.inj (written.symm.trans published)
                      refine ⟨walOf_of_content (replaced.content_of_ne _ wal_ne_manifest
                        (tempName_ne_wal _).symm), .inr ⟨rfl, replaced.content_self⟩⟩

/-! ## Leftover files -/

def swept (d : Disk FileName) : Disk FileName :=
  (execute (removeAll ((listedNames (execute listDirectory d).1).filter isTempName)) d).2

theorem listedNames_listDirectory (d : Disk FileName) :
    listedNames (execute listDirectory d).1 =
      if d.names.keys.length > 4096 then [] else sortTexts d.names.keys := by
  unfold listDirectory
  rw [execute_bind, execute_list]
  dsimp only
  split <;> rfl

theorem removeAll_of_mem {names : List FileName} {name : FileName} (mem : name ∈ names) :
    (execute (removeAll names) d).2.file name = none := by
  induction names generalizing d with
  | nil => cases mem
  | cons other names ih =>
      rw [removeAll, execute_bind, execute_remove]
      by_cases later : name ∈ names
      · exact ih later
      · rcases List.mem_cons.mp mem with rfl | inside
        · exact (execute_removeAll later).1.trans Disk.file_remove_self
        · exact absurd inside later

theorem content_removeAll {names : List FileName} {name : FileName} {bytes : Bytes}
    (content : (execute (removeAll names) d).2.content name = some bytes) :
    d.content name = some bytes := by
  by_cases mem : name ∈ names
  · rw [Disk.content, removeAll_of_mem mem] at content
    cases content
  · rwa [(execute_removeAll mem).2] at content

theorem content_swept {name : FileName} {bytes : Bytes} :
    (swept d).content name = some bytes ↔
      d.content name = some bytes ∧ ¬(isTempName name = true ∧ d.names.keys.length ≤ 4096) := by
  constructor
  · intro content
    have before := content_removeAll content
    refine ⟨before, ?_⟩
    rintro ⟨isTemp, few⟩
    have listed : name ∈ listedNames (execute listDirectory d).1 := by
      rw [listedNames_listDirectory, if_neg (Nat.not_lt.mpr few), sortTexts,
        List.mem_insertionSort]
      by_contra absent
      rw [Disk.content, Disk.file, AList.lookup_eq_none.mpr absent] at before
      cases before
    rw [swept, Disk.content, removeAll_of_mem (List.mem_filter.mpr ⟨listed, isTemp⟩)] at content
    cases content
  · rintro ⟨content, kept⟩
    rw [swept, (execute_removeAll _).2, content]
    intro mem
    obtain ⟨listed, isTemp⟩ := List.mem_filter.mp mem
    refine kept ⟨isTemp, ?_⟩
    rw [listedNames_listDirectory] at listed
    split at listed
    · cases listed
    · next few => exact Nat.not_lt.mp few

theorem swept_of_last {name : FileName} (last : name.getLast? ≠ some 112) :
    (swept d).file name = d.file name ∧ (swept d).content name = d.content name :=
  execute_removeTemps d _ last

theorem walOf_swept (d : Disk FileName) : walOf (swept d) = walOf d :=
  walOf_of_content (swept_of_last (by decide)).2

/-! ## The snapshot -/

def Snapshotted (d : Disk FileName) (path : Option FileName) (sequence : UInt64) :
    Option Bytes → Prop
  | none => path = none
  | some payload => ∃ name entry bytes, path = some name ∧ pathEntry name = some entry ∧
      d.content entry = some bytes ∧ bytes.length ≤ Limits.maxSnapshotBytes ∧
      decodeSnapshot bytes = .ok (sequence, payload)

def withPayload (s : Store) : Option Bytes → Store
  | none => s
  | some payload => { s with
      snapshotBytes := payload
      recovery := { s.recovery with snapshotLoaded := true, snapshotSequence := s.snapshotSequence } }

theorem loadSnapshot_eq_ok :
    execute s.loadSnapshot d = (.ok t, e) ↔
      e = d ∧ ∃ held, Snapshotted d s.snapshotPath s.snapshotSequence held ∧ t = s.withPayload held := by
  constructor
  · intro h
    unfold loadSnapshot at h
    cases path : s.snapshotPath with
    | none =>
        rw [path] at h
        cases h
        exact ⟨rfl, none, rfl, rfl⟩
    | some name =>
        rw [path] at h
        dsimp only at h
        rw [execute_bind] at h
        rcases readPath_cases d name Limits.maxSnapshotBytes with
          ⟨failure, read⟩ | ⟨entry, bytes, named, read, content, small⟩
        · rw [read] at h
          cases h
        rw [read] at h
        dsimp only at h
        cases decoded : decodeSnapshot bytes with
        | error failure =>
            rw [decoded] at h
            cases h
        | ok held =>
            obtain ⟨sequence, payload⟩ := held
            rw [decoded] at h
            dsimp only at h
            split at h
            · cases h
            · next same =>
                obtain rfl := not_not.mp same
                cases h
                refine ⟨rfl, some payload, ⟨name, entry, bytes, rfl, named, content, small, decoded⟩, ?_⟩
                rw [withPayload, path]
  · rintro ⟨rfl, held, snapshotted, rfl⟩
    unfold loadSnapshot
    cases held with
    | none =>
        rw [show s.snapshotPath = none from snapshotted]
        rfl
    | some payload =>
        obtain ⟨name, entry, bytes, path, named, content, small, decoded⟩ := snapshotted
        rw [path]
        dsimp only
        rw [execute_bind, readPath_of_entry named, execute_readEntry content,
          if_neg (Nat.not_lt.mpr small)]
        dsimp only
        rw [decoded]
        dsimp only
        rw [if_neg (not_not.mpr rfl), withPayload, path]
        rfl

/-! ## The log -/

structure TakesLog (s t : Store) (d e : Disk FileName) : Prop where
  small : (walOf d).length ≤ maxWalScanBytes
  admits : s.Admits (walOf d)
  replayed : s.Replayed t (walOf d)
  rebuilt : t.recovery.manifestRebuilt = s.recovery.manifestRebuilt
  dropped : t.recovery.truncatedTailBytes =
    ((tailOf (s.replayOf (walOf d)).2).map Tail.dropped).getD s.recovery.truncatedTailBytes
  log : walOf e = (walOf d).take ((s.cutOf (walOf d)).getD (walOf d).length)
  names : e.names = d.names
  content : ∀ name, name ≠ walFileName → e.content name = d.content name

theorem recovery_readLog {log : Bytes} {cut : Option Nat} (h : s.readLog log = .ok (t, cut)) :
    t.recovery.manifestRebuilt = s.recovery.manifestRebuilt ∧
      t.recovery.truncatedTailBytes =
        ((tailOf (s.replayOf log).2).map Tail.dropped).getD s.recovery.truncatedTailBytes := by
  unfold readLog at h
  rw [← replayOf] at h
  dsimp only at h
  cases behind : tailOf (s.replayOf log).2 with
  | none =>
      rw [behind] at h
      cases h
      exact ⟨rfl, rfl⟩
  | some tail =>
      rw [behind] at h
      dsimp only at h
      split at h
      · cases h
      · cases h
        exact ⟨rfl, rfl⟩

theorem takesLog_of_readLog {log : Bytes} {cut : Option Nat}
    (content : d.content walFileName = some log) (small : log.length ≤ maxWalScanBytes)
    (h : s.readLog log = .ok (t, cut)) :
    s.TakesLog t d (cut.elim d (d.truncate walFileName)) := by
  have admits := admits_of_readLog h
  obtain ⟨v, read, replayed⟩ := readLog_of_admits admits
  obtain ⟨rfl, rfl⟩ := Prod.mk.inj (Except.ok.inj (h.symm.trans read))
  obtain ⟨rebuilt, dropped⟩ := recovery_readLog h
  have shown : walOf d = log := by rw [walOf, content, Option.getD_some]
  cases cut : s.cutOf log with
  | none =>
      refine ⟨shown ▸ small, shown ▸ admits, shown ▸ replayed, rebuilt, shown ▸ dropped, ?_, rfl,
        fun _ _ => rfl⟩
      rw [shown, cut, Option.getD_none, List.take_length]
      exact shown
  | some length =>
      refine ⟨shown ▸ small, shown ▸ admits, shown ▸ replayed, rebuilt, shown ▸ dropped, ?_,
        Disk.names_truncate, fun _ ne => Disk.content_truncate_of_ne ne⟩
      rw [shown, cut, Option.getD_some, Option.elim_some, walOf,
        Disk.content_truncate_self content (cutOf_le s log length cut), Option.getD_some]

theorem replayOf_nil (s : Store) :
    s.replayOf [] = (.start s.lastSequence s.durableEpoch, .ended []) := rfl

theorem takesLog_of_replayLog (h : execute s.replayLog d = (.ok t, e)) : s.TakesLog t d e := by
  cases content : d.content walFileName with
  | none =>
      have absent : d.file walFileName = none := by simpa [Disk.content] using content
      have shown : walOf d = [] := by rw [walOf, content, Option.getD_none]
      rw [execute_replayLog_of_absent absent] at h
      cases h
      have uncut : s.cutOf [] = none := rfl
      refine ⟨?_, ?_, ?_, rfl, ?_, ?_, rfl, fun _ _ => rfl⟩
      · rw [shown]
        exact Nat.zero_le _
      · rw [shown]
        exact fun _ mem => by cases mem
      · rw [shown]
        constructor <;> first | rfl | exact (List.append_nil _).symm
      · rw [shown, replayOf_nil]
        rfl
      · rw [shown]
        rfl
  | some log =>
      rw [execute_replayLog s content] at h
      split at h
      · cases h
      · next small =>
          cases read : s.readLog log with
          | error failure =>
              rw [read] at h
              cases h
          | ok outcome =>
              obtain ⟨v, cut⟩ := outcome
              have taken := takesLog_of_readLog content (Nat.not_lt.mp small) read
              rw [read] at h
              cases cut with
              | none =>
                  cases h
                  exact taken
              | some length =>
                  cases h
                  exact taken

theorem replayLog_of_admits (small : (walOf d).length ≤ maxWalScanBytes)
    (admits : s.Admits (walOf d)) :
    ∃ t e, execute s.replayLog d = (.ok t, e) := by
  cases content : d.content walFileName with
  | none =>
      have absent : d.file walFileName = none := by simpa [Disk.content] using content
      exact ⟨_, _, execute_replayLog_of_absent absent⟩
  | some log =>
      have shown : walOf d = log := by rw [walOf, content, Option.getD_some]
      rw [shown] at small admits
      obtain ⟨t, read, -⟩ := readLog_of_admits admits
      rw [execute_replayLog s content, if_neg (Nat.not_lt.mpr small), read]
      cases s.cutOf log with
      | none => exact ⟨_, _, rfl⟩
      | some length => exact ⟨_, _, rfl⟩

/-! ## The handle on the log -/

def attachLog (names : List FileName) (path : Option FileName) (d : Disk FileName) :
    Handle × Disk FileName :=
  (execute (removeAll (names.filter fun name => isSnapshotName name && path ≠ some name))
    d).2.openAppend walFileName

theorem file_attachLog (names : List FileName) (path : Option FileName) (d : Disk FileName) :
    (attachLog names path d).2.file walFileName = some (attachLog names path d).1 := by
  unfold attachLog Disk.openAppend
  split
  · next file => exact file
  · exact Disk.file_link_self

theorem content_openAppend_of_ne {name other : FileName} (ne : other ≠ name) :
    (d.openAppend name).2.content other = d.content other := by
  cases file : d.file name with
  | some handle => rw [Disk.openAppend_of_file file]
  | none =>
      have created := Disk.content_create_of_ne (d := d) ne
      rw [Disk.create_of_absent file] at created
      rw [Disk.openAppend_of_absent file]
      exact created

theorem walOf_openAppend (d : Disk FileName) : walOf (d.openAppend walFileName).2 = walOf d := by
  cases file : d.file walFileName with
  | some handle => rw [Disk.openAppend_of_file file]
  | none =>
      have empty : (d.link walFileName).content walFileName = some [] := by
        rw [← Disk.content_create_self (d := d), Disk.create_of_absent file]
      rw [Disk.openAppend_of_absent file, walOf, empty, walOf, Disk.content, file]
      rfl

theorem walOf_attachLog (names : List FileName) (path : Option FileName) (d : Disk FileName) :
    walOf (attachLog names path d).2 = walOf d :=
  (walOf_openAppend _).trans (walOf_of_content (execute_removeOrphans d names path (by decide)).2)

theorem reopenWal_eq (s : Store) (d : Disk FileName) :
    execute s.reopenWal d =
      ((.ok (), { s with walHandle := some (d.openAppend walFileName).1 }),
        (d.openAppend walFileName).2) := by
  unfold reopenWal
  rw [execute_bind, execute_openAppend]
  rfl

theorem openLoaded_eq_ok :
    execute (s.openLoaded boot) d = (.ok u, d') ↔
      ∃ held t e, Snapshotted (swept d) s.snapshotPath s.snapshotSequence held ∧
        execute (s.withPayload held).replayLog (swept d) = (.ok t, e) ∧
        execute ({ t with walHandle := some (attachLog (listedNames (execute listDirectory d).1)
            t.snapshotPath e).1 }.conclude boot)
          (attachLog (listedNames (execute listDirectory d).1) t.snapshotPath e).2 =
            (.ok u, d') := by
  unfold openLoaded
  rw [execute_bind, execute_listDirectory, execute_bind, ← swept, execute_bind]
  constructor
  · intro h
    cases loaded : execute s.loadSnapshot (swept d) with
    | mk result d₁ =>
        rw [loaded] at h
        cases result with
        | error failure => cases h
        | ok v =>
            obtain ⟨rfl, held, snapshotted, rfl⟩ := loadSnapshot_eq_ok.mp loaded
            dsimp only at h
            rw [execute_bind] at h
            cases taken : execute (s.withPayload held).replayLog (swept d) with
            | mk result e =>
                rw [taken] at h
                cases result with
                | error failure => cases h
                | ok t =>
                    dsimp only at h
                    rw [execute_bind, execute_bind, reopenWal_eq] at h
                    exact ⟨held, t, e, snapshotted, taken, h⟩
  · rintro ⟨held, t, e, snapshotted, taken, concluded⟩
    rw [loadSnapshot_eq_ok.mpr ⟨rfl, held, snapshotted, rfl⟩]
    dsimp only
    rw [execute_bind, taken]
    dsimp only
    rw [execute_bind, execute_bind, reopenWal_eq]
    exact concluded

structure Opens (s t : Store) (d e : Disk FileName) (held : Option Bytes) : Prop where
  snapshotted : Snapshotted (swept d) s.snapshotPath s.snapshotSequence held
  small : (walOf d).length ≤ maxWalScanBytes
  admits : s.Admits (walOf d)
  replayed : s.Replayed { t with snapshotBytes := s.snapshotBytes } (walOf d)
  snapshotBytes : t.snapshotBytes = held.getD s.snapshotBytes
  rebuilt : t.recovery.manifestRebuilt = s.recovery.manifestRebuilt
  dropped : t.recovery.truncatedTailBytes =
    ((tailOf (s.replayOf (walOf d)).2).map Tail.dropped).getD s.recovery.truncatedTailBytes
  log : walOf e = (walOf d).take ((s.cutOf (walOf d)).getD (walOf d).length)
  handle : ∃ handle, t.walHandle = some handle ∧ e.file walFileName = some handle
  manifest : e.content manifestFileName = d.content manifestFileName
  named : ∀ name, name ≠ walFileName → (isSnapshotName name = true → s.snapshotPath = some name) →
    e.content name = (swept d).content name
  crowded : 4096 < d.names.keys.length → d.names.keys.length ≤ e.names.keys.length

theorem opens_of_takesLog {held : Option Bytes}
    (snapshotted : Snapshotted (swept d) s.snapshotPath s.snapshotSequence held)
    (takes : (s.withPayload held).TakesLog t (swept d) e) :
    s.Opens { t with walHandle := some (attachLog (listedNames (execute listDirectory d).1)
        t.snapshotPath e).1 } d
      (attachLog (listedNames (execute listDirectory d).1) t.snapshotPath e).2 held := by
  obtain ⟨small, admits, replays, rebuilt, dropped, log, names, content⟩ := takes
  rw [walOf_swept] at small admits replays dropped log
  have path : t.snapshotPath = s.snapshotPath := by
    rw [replays.snapshotPath]
    cases held <;> rfl
  have listed := listedNames_listDirectory d
  refine ⟨snapshotted, small, ?_, ?_, ?_, ?_, ?_, ?_, ⟨_, rfl, file_attachLog _ _ _⟩, ?_, ?_, ?_⟩
  · cases held <;> exact admits
  · cases held <;> exact ⟨replays.options, replays.storeId, replays.snapshotPath,
      replays.lastSequence, replays.durableEpoch, replays.walBytes, replays.snapshotSequence,
      replays.stagedCount, replays.replayed, rfl, replays.unfinished, replays.readOnly⟩
  · cases held <;> exact replays.snapshotBytes
  · cases held <;> exact rebuilt
  · cases held <;> exact dropped
  · rw [walOf_attachLog, log]
    cases held <;> rfl
  · rw [attachLog, content_openAppend_of_ne manifest_ne_wal,
      (execute_removeOrphans e _ t.snapshotPath (by decide)).2, content _ manifest_ne_wal,
      (swept_of_last (by decide)).2]
  · intro name ne referenced
    rw [attachLog, content_openAppend_of_ne ne, (execute_removeAll ?_).2, content name ne]
    rw [List.mem_filter, path, Bool.and_eq_true]
    rintro ⟨-, snapshot, stale⟩
    exact absurd (referenced snapshot) (by simpa using stale)
  · intro crowded
    rw [if_pos crowded] at listed
    have same : e.names = d.names := by
      rw [names, swept, listed]
      rfl
    rw [listed, ← same]
    exact Disk.length_keys_openAppend

theorem opens_of_openLoaded (h : execute (s.openLoaded boot) d = (.ok u, d')) :
    ∃ t e held, s.Opens t d e held ∧ execute (t.conclude boot) e = (.ok u, d') := by
  obtain ⟨held, t, e, snapshotted, taken, concluded⟩ := openLoaded_eq_ok.mp h
  exact ⟨_, _, held, opens_of_takesLog snapshotted (takesLog_of_replayLog taken), concluded⟩

theorem openLoaded_of_snapshotted {held : Option Bytes}
    (snapshotted : Snapshotted (swept d) s.snapshotPath s.snapshotSequence held)
    (small : (walOf d).length ≤ maxWalScanBytes) (admits : s.Admits (walOf d)) (boot : Bytes) :
    ∃ t e, s.Opens t d e held ∧
      ∀ u d', execute (t.conclude boot) e = (.ok u, d') →
        execute (s.openLoaded boot) d = (.ok u, d') := by
  have admitted : (s.withPayload held).Admits (walOf (swept d)) := by
    rw [walOf_swept]
    cases held <;> exact admits
  obtain ⟨t, e, taken⟩ := replayLog_of_admits (s := s.withPayload held) (walOf_swept d ▸ small) admitted
  refine ⟨_, _, opens_of_takesLog snapshotted (takesLog_of_replayLog taken), ?_⟩
  intro u d' concluded
  exact openLoaded_eq_ok.mpr ⟨held, t, e, snapshotted, taken, concluded⟩

theorem Opens.same_options {held : Option Bytes} (opens : s.Opens t d e held)
    (begun : Begun options s) : t.options = options :=
  opens.replayed.options.trans begun.options

theorem Opens.nameless {held : Option Bytes} (opens : s.Opens t d e held)
    (begun : Begun options s) : t.Unnamed := by
  intro path
  have same := opens.replayed.snapshotPath
  have sequence := opens.replayed.snapshotSequence
  dsimp only at same sequence
  rw [sequence]
  exact begun.unnamed (same ▸ path)

/-! ## The identity -/

theorem conclude_ok_iff (small : t.options.maxRecordBytes ≤ Limits.maxWalRecordBytes)
    (ready : t.Ready) (unnamed : t.Unnamed) (boot : Bytes) (d : Disk FileName) :
    (∃ u d', execute (t.conclude boot) d = (.ok u, d')) ↔ t.identified = true ∨ t.Takes 32 := by
  constructor
  · rintro ⟨u, d', h⟩
    rcases concluded_of_execute small h with ⟨known, -, -⟩ | ⟨-, sequence, v, e, wrote, -, -⟩
    · exact .inl known
    · right
      have planned := wrote.planned
      have bound := planned.sequence ▸ sequence.toNat_lt
      have size : (encodeFrame (headerFrame boot sequence)).length = 65 := by
        rw [length_encodeFrame]
        exact congrArg (fun n => frameHeaderBytes + (recordHeaderBytes + n)) (sha256 boot).size
      have budget := UInt64.le_iff_toNat_le.mp planned.budget
      have fits := planned.fits.1
      rw [planned.total, size] at budget
      rw [show (headerFrame boot sequence).body.length = 32 from (sha256 boot).size] at fits
      exact ⟨bound, fits, small, budget⟩
  · intro h
    unfold conclude mintIdentity
    by_cases known : t.identified = true
    · rw [if_pos known]
      exact ⟨_, _, rfl⟩
    · rw [if_neg known]
      have takes := h.resolve_left known
      dsimp only
      have taken : Takes { t with storeId := (sha256 boot).hex } (sha256 boot).bytes.length := by
        rw [(sha256 boot).size]
        exact ⟨takes.sequence, takes.record, takes.small, takes.log⟩
      obtain ⟨d₁, appended⟩ := execute_appendFrame_of_takes .storeHeader flagNone 0
        (s := { t with storeId := (sha256 boot).hex }) ready taken d
      have sound : (grown { t with storeId := (sha256 boot).hex }
          (sha256 boot).bytes.length).manifest.Sound := sound_manifest unnamed
      obtain ⟨d₂, published, -⟩ := execute_writeManifest_of_sound sound d₁
      rw [execute_bind, execute_bind, append, appended]
      dsimp only
      rw [execute_bind, published]
      exact ⟨_, _, rfl⟩

/-- What the end of an opening leaves of the members, of the report and of the log. -/
structure Ends (t u : Store) (d d' : Disk FileName) : Prop where
  snapshotSequence : u.snapshotSequence = t.snapshotSequence
  replayed : u.replayed = t.replayed
  snapshotBytes : u.snapshotBytes = t.snapshotBytes
  rebuilt : u.recovery.manifestRebuilt = t.recovery.manifestRebuilt
  truncated : u.recovery.truncatedTailBytes = t.recovery.truncatedTailBytes
  log : walOf d <+: walOf d'

theorem ends_of_conclude (small : t.options.maxRecordBytes ≤ Limits.maxWalRecordBytes)
    (unnamed : t.Unnamed) {handle : Handle} (opened : t.walHandle = some handle)
    (file : d.file walFileName = some handle)
    (h : execute (t.conclude boot) d = (.ok u, d')) : Ends t u d d' := by
  rcases concluded_of_execute small h with
    ⟨-, rfl, rfl⟩ | ⟨-, sequence, v, e, wrote, published, rfl⟩
  · exact ⟨rfl, rfl, rfl, rfl, rfl, List.prefix_refl _⟩
  · have members := wrote.members
    obtain ⟨same, handled, rfl⟩ := wrote.handle
    obtain rfl : handle = same := Option.some.inj (opened.symm.trans handled)
    have sound : v.manifest.Sound := by
      rw [members]
      exact sound_manifest unnamed
    obtain ⟨d₂, written, replaced⟩ := execute_writeManifest_of_sound sound
      (d.write handle (encodeFrame (headerFrame boot sequence)))
    obtain ⟨-, rfl⟩ := Prod.mk.inj (published.symm.trans written)
    have grown : walOf d <+: walOf d' := by
      rw [walOf_of_content (replaced.content_of_ne _ wal_ne_manifest (tempName_ne_wal _).symm),
        walOf, walOf, Disk.content_write_self file, Disk.content_of_file file]
      exact List.prefix_append _ _
    refine ⟨?_, ?_, ?_, ?_, ?_, grown⟩
    all_goals rw [members]

theorem openImpl_eq_ok :
    execute (openImpl options boot) d = (.ok u, d') ↔
      ∃ s e, execute (fresh options).loadOrRebuild d = (.ok s, e) ∧
        execute (s.openLoaded boot) e = (.ok u, d') := by
  constructor
  · intro h
    cases loaded : execute (fresh options).loadOrRebuild d with
    | mk result e =>
        cases result with
        | ok s =>
            rw [execute_openImpl_of_loaded loaded] at h
            exact ⟨s, e, rfl, h⟩
        | error failure =>
            unfold openImpl at h
            rw [execute_bind, loaded] at h
            cases h
  · rintro ⟨s, e, loaded, concluded⟩
    rw [execute_openImpl_of_loaded loaded]
    exact concluded

end Store

end QoSFabric
