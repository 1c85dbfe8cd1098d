import QoSFabric.Proof.Store.Opening
import QoSFabric.Proof.Store.Frames
import QoSFabric.Proof.Store.Corruption

/-!
# Verifying against opening

`Store::Verify` and `Store::Open` walk the same files. What the first accepts the second opens as it
stands exactly when the manifest can be loaded, the snapshot it names can be read, no frame past the
snapshot has a malformed body that is not repaired away, and a store without an identity has room
for one.
-/

namespace QoSFabric

open FileSystem Interaction

variable {options : StoreOptions} {s t u : Store} {d e d' : Disk FileName} {boot log : Bytes}
  {m : Manifest} {f : Frame}

/-! ## What verification says -/

structure Verified (s : Store) (d : Disk FileName) : Prop where
  small : (walOf d).length ≤ maxWalScanBytes
  framed : Framing.extent frameHeaderBytes (parseFrame s.options.maxRecordBytes) (walOf d).length
    (walOf d) = .ended []

theorem framed_of_verifyFrames {maxRecordBytes : Nat}
    (verified : Store.verifyFrames maxRecordBytes log = .ok ()) :
    Framing.extent frameHeaderBytes (parseFrame maxRecordBytes) log.length log = .ended [] := by
  unfold Store.verifyFrames at verified
  split at verified
  · assumption
  · cases verified
  · cases verified

theorem verified_of_verifyLog (verified : (execute s.verifyLog d).1 = .ok ()) : Verified s d := by
  unfold Store.verifyLog at verified
  rw [execute_bind, execute_exists] at verified
  cases file : d.file walFileName with
  | none =>
      have shown : walOf d = [] := by rw [walOf, Disk.content, file]; rfl
      refine ⟨?_, ?_⟩
      · rw [shown]
        exact Nat.zero_le _
      · rw [shown]
        rfl
  | some handle =>
      rw [file] at verified
      simp only [Option.isSome_some, Bool.not_true, Bool.false_eq_true, if_false] at verified
      rw [execute_bind] at verified
      rcases readFile_cases d walFileName maxWalScanBytes with
        ⟨failure, read⟩ | ⟨log, read, content, small⟩
      · rw [read] at verified
        cases verified
      · rw [read] at verified
        have shown : walOf d = log := by rw [walOf, content, Option.getD_some]
        exact ⟨shown ▸ small, shown ▸ framed_of_verifyFrames verified⟩

theorem reading_verifyManifest : Disk.Reading Store.verifyManifest := by
  apply Disk.Reading.bind (reading_readFile _ _)
  intro raw
  cases raw with
  | error e => exact .done _
  | ok raw => exact Disk.Reading.ite (.done _) (Disk.Reading.ite (.done _) (.done _))

theorem reading_verifySnapshot (s : Store) : Disk.Reading s.verifySnapshot := by
  unfold Store.verifySnapshot
  cases s.snapshotPath with
  | none => exact .done _
  | some path =>
      apply Disk.Reading.bind (reading_readPath _ _)
      intro bytes
      cases bytes with
      | error e => exact .done _
      | ok bytes =>
          dsimp only
          cases decodeSnapshot bytes with
          | error e => exact .done _
          | ok decoded => exact Disk.Reading.ite (.done _) (.done _)

theorem verified_of_verify (verified : (execute s.verify d).1 = .ok ()) : Verified s d := by
  have manifestRead : (execute Store.verifyManifest d).2 = d := reading_verifyManifest.run d
  have snapshotRead : (execute s.verifySnapshot d).2 = d := (reading_verifySnapshot s).run d
  unfold Store.verify at verified
  rw [execute_bind, manifestRead] at verified
  cases manifest : (execute Store.verifyManifest d).1 with
  | error failure =>
      rw [manifest] at verified
      cases verified
  | ok =>
      rw [manifest] at verified
      dsimp only at verified
      rw [execute_bind, snapshotRead] at verified
      cases snapshot : (execute s.verifySnapshot d).1 with
      | error failure =>
          rw [snapshot] at verified
          cases verified
      | ok =>
          rw [snapshot] at verified
          exact verified_of_verifyLog verified

/-! ## What a replay makes of whole frames -/

def Passable (options : StoreOptions) (snapshotSequence : UInt64) (p : Frame × Bytes) : Prop :=
  snapshotSequence < p.1.sequence → p.1.Replays ∨
    (options.repairTruncateCorruptTail = true ∧
      anyValidFrameAfter options.maxRecordBytes p.2 = false)

structure ReadThrough (s : Store) (log : Bytes) : Prop where
  admits : s.Admits log
  whole : ∀ tail ∈ tailOf (s.replayOf log).2, tail.dropped = 0

theorem anyValidFrameAfter_of_behind {maxRecordBytes size : Nat} {rest : Bytes}
    (stands : StandsWhole maxRecordBytes rest size) (behind : rest.drop size ≠ [])
    (whole : (parseFrame maxRecordBytes (rest.drop size)).isWhole = true) :
    anyValidFrameAfter maxRecordBytes rest = true := by
  unfold anyValidFrameAfter
  rw [Framing.anyWhole_iff]
  refine ⟨rest.drop size, behind, ?_, whole⟩
  rw [← List.drop_one]
  exact List.drop_suffix_drop_left rest stands.positive

theorem admitted_iff {maxRecordBytes size : Nat} {repair : Bool} {rest after : Bytes}
    (stands : StandsWhole maxRecordBytes rest size) :
    Tail.refused maxRecordBytes repair ⟨true, rest, after.length⟩ = false ↔
      repair = true ∧ anyValidFrameAfter maxRecordBytes rest = false := by
  unfold Tail.refused Tail.validFrameFollows
  rw [stands.completeFrameBad]
  cases repair <;> simp

theorem readThrough_iff (framed : Framing.extent frameHeaderBytes
      (parseFrame s.options.maxRecordBytes) log.length log = .ended []) :
    ReadThrough s log ↔
      ∀ p ∈ framesOf s.options.maxRecordBytes log, Passable s.options s.snapshotSequence p := by
  rcases replayOf_scanned s log with
    ⟨accepted, eq⟩ | ⟨done, later, f, rest, size, split, accepted, refused, whole, eq⟩
  · have stop : tailOf (s.replayOf log).2 = none := by
      have ended : (s.replayOf log).2 = .ended [] := (congrArg Prod.snd eq).trans framed
      rw [ended]
      rfl
    constructor
    · rintro - p mem later
      exact .inl (Frame.passes_iff.mp (accepted p mem) later)
    · rintro -
      refine ⟨?_, ?_⟩
      · intro tail some
        rw [stop] at some
        cases some
      · intro tail some
        rw [stop] at some
        cases some
  · have stands := standsWhole whole
    have stop : tailOf (s.replayOf log).2 = some ⟨true, rest, (rest.drop size).length⟩ := by
      have halted : (s.replayOf log).2 = .refused rest (rest.drop size) := congrArg Prod.snd eq
      rw [halted]
      rfl
    have malformed : s.snapshotSequence < f.sequence ∧ ¬f.Replays := by
      have fails : ¬f.passes s.snapshotSequence = true := Bool.eq_false_iff.mp refused
      rwa [Frame.passes_iff, Classical.not_imp] at fails
    have last (repaired : anyValidFrameAfter s.options.maxRecordBytes rest = false) :
        later = [] ∧ rest.drop size = [] := by
      rcases Framing.frames_behind (by decide) framed split whole with last | ⟨behind, next⟩
      · exact last
      · rw [anyValidFrameAfter_of_behind stands behind next] at repaired
        cases repaired
    constructor
    · rintro ⟨admits, -⟩
      have dropped := (admitted_iff stands).mp (admits _ stop)
      intro p mem
      rw [framesOf, split, (last dropped.2).1, List.mem_append, List.mem_singleton] at mem
      rcases mem with before | rfl
      · exact fun past => .inl (Frame.passes_iff.mp (accepted p before) past)
      · exact fun _ => .inr dropped
    · intro passable
      have mem : (f, rest) ∈ framesOf s.options.maxRecordBytes log := by
        rw [framesOf, split]
        exact List.mem_append_right _ List.mem_cons_self
      have dropped := (passable (f, rest) mem malformed.1).resolve_left malformed.2
      refine ⟨?_, ?_⟩
      · intro tail some
        obtain rfl := Option.some.inj (stop.symm.trans some)
        exact (admitted_iff stands).mpr dropped
      · intro tail some
        obtain rfl := Option.some.inj (stop.symm.trans some)
        rw [(last dropped.2).2, List.length_nil]

theorem readThrough_of_admits (framed : Framing.extent frameHeaderBytes
      (parseFrame s.options.maxRecordBytes) log.length log = .ended []) (admits : s.Admits log) :
    ReadThrough s log := by
  refine ⟨admits, ?_⟩
  intro tail behind
  rcases replayOf_scanned s log with
    ⟨accepted, eq⟩ | ⟨done, later, f, rest, size, split, accepted, refused, whole, eq⟩
  · have ended : (s.replayOf log).2 = .ended [] := (congrArg Prod.snd eq).trans framed
    rw [ended] at behind
    cases behind
  · have stands := standsWhole whole
    have stop : tailOf (s.replayOf log).2 = some ⟨true, rest, (rest.drop size).length⟩ := by
      have halted : (s.replayOf log).2 = .refused rest (rest.drop size) := congrArg Prod.snd eq
      rw [halted]
      rfl
    obtain rfl := Option.some.inj (stop.symm.trans behind)
    have dropped := (admitted_iff stands).mp (admits _ stop)
    rcases Framing.frames_behind (by decide) framed split whole with ⟨-, last⟩ | ⟨behind, next⟩
    · exact congrArg List.length last
    · exact absurd (anyValidFrameAfter_of_behind stands behind next) (by rw [dropped.2]; decide)

theorem replayOf_readThrough (framed : Framing.extent frameHeaderBytes
      (parseFrame s.options.maxRecordBytes) log.length log = .ended [])
    (through : ReadThrough s log) :
    (s.replayOf log).1 = replayFrames s.snapshotSequence (.start s.lastSequence s.durableEpoch)
      (framesOf s.options.maxRecordBytes log) := by
  rcases replayOf_scanned s log with
    ⟨accepted, eq⟩ | ⟨done, later, f, rest, size, split, accepted, refused, whole, eq⟩
  · exact congrArg Prod.fst eq
  · have stop : tailOf (s.replayOf log).2 = some ⟨true, rest, (rest.drop size).length⟩ := by
      have halted : (s.replayOf log).2 = .refused rest (rest.drop size) := congrArg Prod.snd eq
      rw [halted]
      rfl
    have none : rest.drop size = [] := List.eq_nil_of_length_eq_zero (through.whole _ stop)
    have last : later = [] := by
      rcases Framing.frames_behind (by decide) framed split whole with ⟨last, -⟩ | ⟨behind, -⟩
      · exact last
      · exact absurd none behind
    rw [framesOf, split, last]
    exact congrArg Prod.fst eq

/-! ## Opening as it stands -/

/-- A directory that opens without a rebuild and without a cut. -/
def OpensClean (options : StoreOptions) (boot : Bytes) (d : Disk FileName) : Prop :=
  ∃ s d', execute (Store.open options boot) d = (.ok s, d') ∧
    s.recovery.manifestRebuilt = false ∧ s.recovery.truncatedTailBytes = 0 ∧ walOf d <+: walOf d'

theorem cutOf_readThrough (through : ReadThrough s log) :
    (s.cutOf log).getD log.length = log.length := by
  unfold Store.cutOf
  cases behind : tailOf (s.replayOf log).2 with
  | none => rfl
  | some tail =>
      rw [Option.map_some, Option.getD_some, through.whole tail behind, Nat.sub_zero]

structure RoomForIdentity (s : Store) (log : Bytes) : Prop where
  sequence : (s.replayOf log).1.lastSequence ≠ maxUInt64
  record : recordHeaderBytes + 32 ≤ s.options.maxRecordBytes
  log : log.length + (frameHeaderBytes + (recordHeaderBytes + 32)) ≤ s.options.maxWalBytes.toNat

theorem ne_maxUInt64_iff (v : UInt64) : v ≠ maxUInt64 ↔ v.toNat + 1 < 2 ^ 64 := by
  have top : maxUInt64.toNat = 2 ^ 64 - 1 := by decide
  have bound := v.toNat_lt
  rw [ne_eq, ← UInt64.toNat_inj, top]
  omega

theorem takes_iff_room (small : s.options.maxRecordBytes ≤ Limits.maxWalRecordBytes)
    (scanned : log.length ≤ maxWalScanBytes) (through : ReadThrough s log)
    (replays : s.Replayed t log) : t.Takes 32 ↔ RoomForIdentity s log := by
  have size : t.walBytes.toNat = log.length := by
    have within : log.length < 2 ^ 64 := Nat.lt_of_le_of_lt scanned (by decide)
    rw [replays.walBytes, cutOf_readThrough through, UInt64.toNat_ofNat', Nat.mod_eq_of_lt within]
  constructor
  · intro takes
    have sequence := takes.sequence
    have record := takes.record
    have room := takes.log
    rw [replays.lastSequence, ← ne_maxUInt64_iff] at sequence
    rw [replays.options] at record
    rw [size, replays.options] at room
    exact ⟨sequence, record, room⟩
  · rintro ⟨sequence, record, room⟩
    refine ⟨?_, ?_, ?_, ?_⟩
    · rw [replays.lastSequence, ← ne_maxUInt64_iff]
      exact sequence
    · rw [replays.options]
      exact record
    · rw [replays.options]
      exact small
    · rw [size, replays.options]
      exact room

structure Stands (options : StoreOptions) (d : Disk FileName) (m : Manifest) (held : Option Bytes) :
    Prop where
  loads : m.Loads options d
  snapshotted : Store.Snapshotted (Store.swept d) ((Store.fresh options).adopt m).snapshotPath
    m.snapshotSequence held
  small : (walOf d).length ≤ maxWalScanBytes
  through : ReadThrough ((Store.fresh options).adopt m) (walOf d)
  identity : m.storeId.isZero = true → RoomForIdentity ((Store.fresh options).adopt m) (walOf d)

theorem stands_of_opensClean (valid : options.Valid) (opens : OpensClean options boot d) :
    ∃ m held, Stands options d m held := by
  obtain ⟨u, d', opened, rebuilt, truncated, -⟩ := opens
  rw [execute_open valid, Store.openImpl_eq_ok] at opened
  obtain ⟨s, e, loaded, opened⟩ := opened
  obtain ⟨t, e₁, held, opens, concluded⟩ := Store.opens_of_openLoaded opened
  have begun := Store.begun_of_loadOrRebuild loaded
  have small : t.options.maxRecordBytes ≤ Limits.maxWalRecordBytes :=
    (opens.same_options begun) ▸ valid.small
  obtain ⟨handle, attached, file⟩ := opens.handle
  have ends := Store.ends_of_conclude small (opens.nameless begun) attached file concluded
  rw [ends.rebuilt, opens.rebuilt] at rebuilt
  rw [ends.truncated, opens.dropped, begun.truncated] at truncated
  obtain ⟨rfl, m, loads, rfl⟩ := Store.loads_of_loadOrRebuild loaded rebuilt
  have through : ReadThrough ((Store.fresh options).adopt m) (walOf e) := by
    refine ⟨opens.admits, ?_⟩
    intro tail behind
    rwa [Option.mem_def.mp behind] at truncated
  refine ⟨m, held, loads, opens.snapshotted, opens.small, through, ?_⟩
  intro zero
  have ready : t.Ready := ⟨opens.replayed.readOnly.trans begun.writable, handle, attached⟩
  have possible := (Store.conclude_ok_iff small ready (opens.nameless begun) boot e₁).mp
    ⟨u, d', concluded⟩
  have unknown : t.identified = false := by
    rw [identified_iff (t := t) (m := m) opens.replayed.storeId, zero]
    rfl
  have takes := possible.resolve_left fun known => Bool.false_ne_true (unknown.symm.trans known)
  exact (takes_iff_room valid.small opens.small through opens.replayed).mp
    ⟨takes.sequence, takes.record, takes.small, takes.log⟩

theorem opens_of_stands (valid : options.Valid) {held : Option Bytes}
    (stands : Stands options d m held) (boot : Bytes) :
    ∃ s d', execute (Store.open options boot) d = (.ok s, d') ∧
      s.recovery.manifestRebuilt = false ∧ s.recovery.truncatedTailBytes = 0 ∧
      walOf d <+: walOf d' ∧ s.snapshotSequence = m.snapshotSequence ∧
      s.replayed = (((Store.fresh options).adopt m).replayOf (walOf d)).1.replayed ∧
      s.snapshotBytes = held.getD [] := by
  have begun := Store.begun_adopt stands.loads
  obtain ⟨t, e, opens, concludes⟩ := Store.openLoaded_of_snapshotted stands.snapshotted stands.small
    stands.through.admits boot
  have small : t.options.maxRecordBytes ≤ Limits.maxWalRecordBytes :=
    (opens.same_options begun) ▸ valid.small
  obtain ⟨handle, attached, file⟩ := opens.handle
  have ready : t.Ready := ⟨opens.replayed.readOnly.trans begun.writable, handle, attached⟩
  have known : t.identified = !m.storeId.isZero :=
    identified_iff (t := t) (m := m) opens.replayed.storeId
  have possible : t.identified = true ∨ t.Takes 32 := by
    cases zero : m.storeId.isZero with
    | true =>
        right
        have takes := (takes_iff_room valid.small stands.small stands.through opens.replayed).mpr
          (stands.identity zero)
        exact ⟨takes.sequence, takes.record, takes.small, takes.log⟩
    | false =>
        left
        rw [known, zero]
        rfl
  obtain ⟨u, d', concluded⟩ :=
    (Store.conclude_ok_iff small ready (opens.nameless begun) boot e).mpr possible
  have ends := Store.ends_of_conclude small (opens.nameless begun) attached file concluded
  refine ⟨u, d', ?_, ?_, ?_, ?_, ?_, ?_, ?_⟩
  · rw [execute_open valid, Store.openImpl_eq_ok]
    exact ⟨_, d, Store.loadOrRebuild_of_loads stands.loads, concludes u d' concluded⟩
  · rw [ends.rebuilt, opens.rebuilt]
    rfl
  · rw [ends.truncated, opens.dropped]
    cases behind : tailOf (((Store.fresh options).adopt m).replayOf (walOf d)).2 with
    | none => exact begun.truncated
    | some tail => exact stands.through.whole tail behind
  · have grows := ends.log
    rw [opens.log, cutOf_readThrough stands.through, List.take_length] at grows
    exact grows
  · exact ends.snapshotSequence.trans opens.replayed.snapshotSequence
  · exact ends.replayed.trans opens.replayed.replayed
  · exact ends.snapshotBytes.trans opens.snapshotBytes

theorem opensClean_of_stands (valid : options.Valid) {held : Option Bytes}
    (stands : Stands options d m held) (boot : Bytes) : OpensClean options boot d := by
  obtain ⟨s, d', opened, rebuilt, truncated, grows, -⟩ := opens_of_stands valid stands boot
  exact ⟨s, d', opened, rebuilt, truncated, grows⟩

theorem opensClean_of_open (valid : options.Valid) (loads : m.Loads options d)
    (framed : Framing.extent frameHeaderBytes (parseFrame options.maxRecordBytes) (walOf d).length
      (walOf d) = .ended [])
    (opened : execute (Store.open options boot) d = (.ok u, d')) : OpensClean options boot d := by
  have inner := opened
  rw [execute_open valid, Store.openImpl_eq_ok] at inner
  obtain ⟨s, e, loaded, inner⟩ := inner
  obtain ⟨eq, rfl⟩ := Prod.mk.inj ((Store.loadOrRebuild_of_loads loads).symm.trans loaded)
  obtain rfl := Except.ok.inj eq
  obtain ⟨t, e₁, held, opens, concluded⟩ := Store.opens_of_openLoaded inner
  have begun := Store.begun_adopt loads
  have small : t.options.maxRecordBytes ≤ Limits.maxWalRecordBytes :=
    (opens.same_options begun) ▸ valid.small
  obtain ⟨handle, attached, file⟩ := opens.handle
  have ends := Store.ends_of_conclude small (opens.nameless begun) attached file concluded
  have through : ReadThrough ((Store.fresh options).adopt m) (walOf d) :=
    readThrough_of_admits framed opens.admits
  refine ⟨u, d', opened, ?_, ?_, ?_⟩
  · rw [ends.rebuilt, opens.rebuilt]
    rfl
  · rw [ends.truncated, opens.dropped]
    cases behind : tailOf (((Store.fresh options).adopt m).replayOf (walOf d)).2 with
    | none => exact begun.truncated
    | some tail => exact through.whole tail behind
  · have grows := ends.log
    rwa [opens.log, cutOf_readThrough through, List.take_length] at grows

/-! ## Opening what has been verified -/

/-- Files that a store opens over as they stand, once they have been verified. -/
structure Reopenable (options : StoreOptions) (d : Disk FileName) (m : Manifest) : Prop where
  loads : m.Loads options d
  snapshot : m.snapshotName ≠ [] → ∃ entry bytes payload,
    pathEntry m.snapshotName = some entry ∧ d.content entry = some bytes ∧
    bytes.length ≤ Limits.maxSnapshotBytes ∧
    decodeSnapshot bytes = .ok (m.snapshotSequence, payload) ∧
    ¬(isTempName entry = true ∧ d.names.keys.length ≤ 4096)
  bodies : ∀ p ∈ framesOf options.maxRecordBytes (walOf d), Passable options m.snapshotSequence p
  identity : m.storeId.isZero = true →
    (m.lastSequence ≠ maxUInt64 ∧ ∀ p ∈ framesOf options.maxRecordBytes (walOf d),
      m.snapshotSequence < p.1.sequence → p.1.sequence ≠ maxUInt64) ∧
    recordHeaderBytes + 32 ≤ options.maxRecordBytes ∧
    (walOf d).length + (frameHeaderBytes + (recordHeaderBytes + 32)) ≤ options.maxWalBytes.toNat

theorem snapshotted_adopt_iff :
    (∃ held, Store.Snapshotted (Store.swept d) ((Store.fresh options).adopt m).snapshotPath
      m.snapshotSequence held) ↔
      (m.snapshotName ≠ [] → ∃ entry bytes payload,
        pathEntry m.snapshotName = some entry ∧ d.content entry = some bytes ∧
        bytes.length ≤ Limits.maxSnapshotBytes ∧
        decodeSnapshot bytes = .ok (m.snapshotSequence, payload) ∧
        ¬(isTempName entry = true ∧ d.names.keys.length ≤ 4096)) := by
  by_cases named : m.snapshotName = []
  · have path : ((Store.fresh options).adopt m).snapshotPath = none :=
      if_pos (List.isEmpty_iff.mpr named)
    exact iff_of_true ⟨none, path⟩ fun ne => absurd named ne
  have path : ((Store.fresh options).adopt m).snapshotPath = some m.snapshotName :=
    if_neg (mt List.isEmpty_iff.mp named)
  rw [path]
  constructor
  · rintro ⟨held, snapshotted⟩ -
    cases held with
    | none => cases snapshotted
    | some payload =>
        obtain ⟨name, entry, bytes, same, stands, content, small, decoded⟩ := snapshotted
        cases same
        obtain ⟨before, kept⟩ := Store.content_swept.mp content
        exact ⟨entry, bytes, payload, stands, before, small, decoded, kept⟩
  · intro snapshot
    obtain ⟨entry, bytes, payload, stands, content, small, decoded, kept⟩ := snapshot named
    exact ⟨some payload, m.snapshotName, entry, bytes, rfl, stands,
      Store.content_swept.mpr ⟨content, kept⟩, small, decoded⟩

theorem roomForIdentity_iff (framed : Framing.extent frameHeaderBytes
      (parseFrame options.maxRecordBytes) log.length log = .ended [])
    (through : ReadThrough ((Store.fresh options).adopt m) log) :
    RoomForIdentity ((Store.fresh options).adopt m) log ↔
      (m.lastSequence ≠ maxUInt64 ∧ ∀ p ∈ framesOf options.maxRecordBytes log,
        m.snapshotSequence < p.1.sequence → p.1.sequence ≠ maxUInt64) ∧
      recordHeaderBytes + 32 ≤ options.maxRecordBytes ∧
      log.length + (frameHeaderBytes + (recordHeaderBytes + 32)) ≤ options.maxWalBytes.toNat := by
  have last : (((Store.fresh options).adopt m).replayOf log).1.lastSequence ≠ maxUInt64 ↔
      m.lastSequence ≠ maxUInt64 ∧ ∀ p ∈ framesOf options.maxRecordBytes log,
        m.snapshotSequence < p.1.sequence → p.1.sequence ≠ maxUInt64 := by
    rw [replayOf_readThrough framed through]
    exact lastSequence_replayFrames_ne
  constructor
  · rintro ⟨sequence, record, room⟩
    exact ⟨last.mp sequence, record, room⟩
  · rintro ⟨sequence, record, room⟩
    exact ⟨last.mpr sequence, record, room⟩

theorem stands_iff (verified : Verified s d) :
    (∃ held, Stands s.options d m held) ↔ Reopenable s.options d m := by
  have framed := verified.framed
  constructor
  · rintro ⟨held, loads, snapshotted, small, through, identity⟩
    refine ⟨loads, snapshotted_adopt_iff.mp ⟨held, snapshotted⟩, ?_, ?_⟩
    · exact (@readThrough_iff ((Store.fresh s.options).adopt m) _ framed).mp through
    · exact fun zero => (roomForIdentity_iff framed through).mp (identity zero)
  · rintro ⟨loads, snapshot, bodies, identity⟩
    obtain ⟨held, snapshotted⟩ := snapshotted_adopt_iff.mpr snapshot
    have through : ReadThrough ((Store.fresh s.options).adopt m) (walOf d) :=
      (@readThrough_iff ((Store.fresh s.options).adopt m) _ framed).mpr bodies
    exact ⟨held, loads, snapshotted, verified.small, through,
      fun zero => (roomForIdentity_iff framed through).mpr (identity zero)⟩

/-- A store opens without a rebuild and without a cut over files it has verified exactly when its
manifest loads with the snapshot it names, the bodies behind the snapshot are well formed, and an
identity is there or fits. -/
theorem verified_opens_iff (valid : s.options.Valid)
    (verified : (execute s.verify d).1 = .ok ()) (boot : Bytes) :
    OpensClean s.options boot d ↔ ∃ m, Reopenable s.options d m := by
  have seen := verified_of_verify verified
  constructor
  · intro opens
    obtain ⟨m, held, stands⟩ := stands_of_opensClean valid opens
    exact ⟨m, (stands_iff seen).mp ⟨held, stands⟩⟩
  · rintro ⟨m, reopenable⟩
    obtain ⟨held, stands⟩ := (stands_iff seen).mpr reopenable
    exact opensClean_of_stands valid stands boot

/-! ## Verifying what a store wrote -/

theorem verifyManifest_of_loads (loads : m.Loads options d) :
    execute Store.verifyManifest d = (.ok (), d) := by
  obtain ⟨raw, content, small, decoded⟩ := loads.file
  unfold decodeManifest at decoded
  split at decoded
  · cases decoded
  next long =>
  split at decoded
  · cases decoded
  next sealed =>
  have twelve : ¬raw.length < 12 := by omega
  unfold Store.verifyManifest
  rw [execute_bind, execute_readFile content, if_neg (Nat.not_lt.mpr small)]
  dsimp only
  rw [if_neg twelve, if_neg sealed]
  rfl

theorem Shows.loads {held : Option Bytes} (valid : options.Valid) (shows : Shows d m held log) :
    m.Loads options d := by
  have short := shows.sound.short
  refine ⟨⟨m.file, shows.manifest, ?_, valid.version ▸ decodeManifest_file shows.sound⟩, ?_⟩
  · rw [Manifest.length_file]
    omega
  · intro named
    cases h : held with
    | none => exact absurd (shows.unnamed h) named
    | some payload =>
        obtain ⟨name, -, content⟩ := shows.named payload h
        rw [name] at content ⊢
        rw [pathEntry_snapshotFileName, Option.all_some]
        exact Store.isSome_file_of_content content

theorem verifySnapshot_of_attached {held : Option Bytes} (attached : Attached s d m held log)
    (small : ∀ payload ∈ held, 28 + payload.length ≤ Limits.maxSnapshotBytes) :
    execute s.verifySnapshot d = (.ok (), d) := by
  unfold Store.verifySnapshot
  rw [attached.path]
  cases h : held with
  | none => rfl
  | some payload =>
      obtain ⟨name, fits, content⟩ := attached.shows.named payload h
      have within := small payload h
      rw [name, ← attached.sequence] at content
      dsimp only [Option.map_some]
      rw [execute_bind, readPath_snapshotFileName, execute_readFile content, length_snapshotFile,
        if_neg (Nat.not_lt.mpr within)]
      dsimp only
      rw [decodeSnapshot_snapshotFile _ fits]
      dsimp only
      rw [if_neg (not_not.mpr rfl)]
      rfl

theorem Framed.extent {maxRecordBytes : Nat} (framed : Framed maxRecordBytes log) :
    Framing.extent frameHeaderBytes (parseFrame maxRecordBytes) log.length log = .ended [] := by
  obtain ⟨frames, whole, rfl⟩ := framed
  obtain ⟨u, visited⟩ := Framing.Format.visitAll_of_accepted
    (fun (u : Unit) (_ : Frame) => (u, true)) (s := ()) fun _ f (_ : f ∈ frames) => rfl
  exact congrArg Prod.snd ((walFormat maxRecordBytes).scan_whole _ whole visited)

theorem verify_of_attached {held : Option Bytes} (attached : Attached s d m held log)
    (framed : Framed s.options.maxRecordBytes log)
    (fits : ∀ payload ∈ held, 28 + payload.length ≤ Limits.maxSnapshotBytes)
    (small : log.length ≤ maxWalScanBytes) : execute s.verify d = (.ok (), d) := by
  unfold Store.verify
  rw [execute_bind, verifyManifest_of_loads (attached.shows.loads attached.valid)]
  dsimp only
  rw [execute_bind, verifySnapshot_of_attached attached fits]
  dsimp only
  unfold Store.verifyLog
  rw [execute_bind, execute_exists, Store.isSome_file_of_content attached.shows.log]
  simp only [Bool.not_true, Bool.false_eq_true, if_false]
  rw [execute_bind, execute_readFile attached.shows.log, if_neg (Nat.not_lt.mpr small)]
  dsimp only
  unfold Store.verifyFrames
  rw [framed.extent]
  rfl

/-! ## Opening what a store wrote -/

theorem Shows.opens_iff {held : Option Bytes} (valid : options.Valid) (shows : Shows d m held log)
    (framed : Framed options.maxRecordBytes log) (boot : Bytes) :
    (∃ t d', execute (Store.open options boot) d = (.ok t, d')) ↔
      (walOf d).length ≤ maxWalScanBytes ∧ ∃ m, Reopenable options d m := by
  have shown : walOf d = log := by rw [walOf, shows.log, Option.getD_some]
  have ended := framed.extent
  rw [← shown] at ended
  constructor
  · rintro ⟨t, d', opened⟩
    have clean := opensClean_of_open valid (shows.loads valid) ended opened
    obtain ⟨m', held, stands⟩ := stands_of_opensClean valid clean
    exact ⟨stands.small, m', (stands_iff (s := Store.fresh options) ⟨stands.small, ended⟩).mp
      ⟨held, stands⟩⟩
  · rintro ⟨small, m', reopenable⟩
    obtain ⟨held, stands⟩ := (stands_iff (s := Store.fresh options) ⟨small, ended⟩).mpr reopenable
    obtain ⟨t, d', opened, -⟩ := opens_of_stands valid stands boot
    exact ⟨t, d', opened⟩

theorem StoreRun.opens_iff {events : List StoreEvent} (run : StoreRun options events s d)
    (boot : Bytes) :
    (∃ t d', execute (Store.open options boot) d = (.ok t, d')) ↔
      (walOf d).length ≤ maxWalScanBytes ∧ ∃ m, Reopenable options d m := by
  obtain ⟨valid, -, m, log, attached⟩ := run.attached
  obtain ⟨log', content, framed⟩ := run.framed
  obtain rfl := Option.some.inj (attached.shows.log.symm.trans content)
  exact attached.shows.opens_iff valid framed boot

theorem exists_created : ∃ s d, StoreRun .default [.opened (List.replicate 16 7)] s d ∧
    Created .default (List.replicate 16 7) s d := by
  have opens : (execute (Store.open .default (List.replicate 16 7)) Disk.empty).1.toBool = true := by
    decide +kernel
  cases opening : execute (Store.open .default (List.replicate 16 7)) Disk.empty with
  | mk result d =>
      rw [opening] at opens
      cases result with
      | error e => cases opens
      | ok s => exact ⟨s, d, .created opening, created_of_empty (valid_of_open opening) opening⟩

theorem Manifest.Loads.eq_of_shows {m' : Manifest} {held : Option Bytes} (loads : m'.Loads options d)
    (valid : options.Valid) (shows : Shows d m held log) : m' = m := by
  obtain ⟨raw, content, -, decoded⟩ := loads.file
  obtain rfl := Option.some.inj (content.symm.trans shows.manifest)
  rw [valid.version, decodeManifest_file shows.sound] at decoded
  exact (Except.ok.inj decoded).symm

theorem refused_of_malformed {held : Option Bytes} {frames : List Frame} (valid : options.Valid)
    (repair : options.repairTruncateCorruptTail = false)
    (shows : Shows d m held ((walFormat options.maxRecordBytes).log frames))
    (fits : ∀ f ∈ frames, f.Fits options.maxRecordBytes) (mem : f ∈ frames)
    (past : m.snapshotSequence < f.sequence) (malformed : ¬f.Replays) (boot : Bytes) :
    ¬OpensClean options boot d := by
  intro opens
  obtain ⟨m', held', stands⟩ := stands_of_opensClean valid opens
  obtain rfl := stands.loads.eq_of_shows valid shows
  have through := stands.through.admits
  rw [walOf, shows.log, Option.getD_some] at through
  obtain ⟨r, visited⟩ := visitAll_of_admits (s := (Store.fresh options).adopt m')
    (fun repaired => absurd (repair.symm.trans repaired) Bool.noConfusion) fits through
  have passed := Framing.Format.accepted_of_visitAll _ (applyFrame_passes _) visited f mem
  exact malformed (Frame.passes_iff.mp passed past)

def shortEpoch : Frame := ⟨.epochAdvance, flagNone, 2, 0, [1, 2, 3]⟩

theorem exists_shortEpoch : ∃ events s d, StoreRun .default events s d ∧ s.Ready ∧
    Attached s d (identityManifest (List.replicate 16 7)) none
      ((walFormat StoreOptions.default.maxRecordBytes).log
        [headerFrame (List.replicate 16 7) 1, shortEpoch]) ∧
    (∀ f ∈ [headerFrame (List.replicate 16 7) 1, shortEpoch],
      f.Fits StoreOptions.default.maxRecordBytes) ∧
    s.options = .default ∧ s.walBytes.toNat = 101 := by
  obtain ⟨s, d, run, created⟩ := exists_created
  obtain ⟨handle, file, opened⟩ := created.live.handle
  have ready : s.Ready := ⟨created.live.writable, handle, opened⟩
  have size : s.walBytes.toNat = 65 := by
    rw [created.live.walBytes, length_encodeFrame]
    exact congrArg (fun n => frameHeaderBytes + (recordHeaderBytes + n))
      (sha256 (List.replicate 16 7)).size
  have takes : s.Takes 3 := by
    refine ⟨?_, ?_, ?_, ?_⟩
    all_goals
      simp only [created.same_options, created.lastSequence, size]
      decide
  have three : ([1, 2, 3] : Bytes).length = 3 := rfl
  obtain ⟨event, d', f, run', -, shape, fits, wrote⟩ :=
    run.appended ready .epochAdvance three takes
  rw [created.lastSequence] at shape
  obtain rfl : f = shortEpoch := shape
  have attached := created.live.attached.wrote wrote
  refine ⟨_, s.grown 3, d', run', ready, ?_, ?_, created.same_options, ?_⟩
  · rwa [Framing.Format.log_cons, Framing.Format.log_cons, Framing.Format.log_nil, List.append_nil]
  · intro g mem
    rcases List.mem_pair.mp mem with rfl | rfl
    · exact created.fits
    · exact fits
  · rw [takes.walBytes_grown, size]
    decide

/-- Verification looks at no body: a store that appends an epoch of three bytes verifies its log,
and the next open refuses it. -/
theorem verified_log_refused : ¬∀ options events s d d' boot, StoreRun options events s d →
    s.Ready → (execute s.verify d').1 = .ok () → OpensClean options boot d' := by
  intro agrees
  obtain ⟨events, s, d, run, ready, attached, whole, same, size⟩ := exists_shortEpoch
  have valid : StoreOptions.default.Valid := same ▸ attached.valid
  have short : ((walFormat StoreOptions.default.maxRecordBytes).log
      [headerFrame (List.replicate 16 7) 1, shortEpoch]).length ≤ maxWalScanBytes := by
    rw [← attached.walBytes, size]
    decide
  have verified : (execute s.verify d).1 = .ok () := by
    rw [verify_of_attached attached ⟨_, same ▸ whole, same ▸ rfl⟩ nofun short]
  have past : (identityManifest (List.replicate 16 7)).snapshotSequence < shortEpoch.sequence := by
    decide
  exact refused_of_malformed valid rfl attached.shows whole (List.mem_pair.mpr (.inr rfl)) past
    Bool.false_ne_true [] (agrees _ _ _ _ d [] run ready verified)

/-- A store that has just been created is verified and opens again. -/
theorem verified_opens_iff_created : ∃ (s : Store) (d : Disk FileName), s.options.Valid ∧
    (execute s.verify d).1 = .ok () ∧
    (OpensClean s.options (List.replicate 16 8) d ↔ ∃ m, Reopenable s.options d m) := by
  obtain ⟨s, d, run, created⟩ := exists_created
  have framed : Framed s.options.maxRecordBytes (encodeFrame (headerFrame (List.replicate 16 7) 1)) := by
    refine ⟨[headerFrame (List.replicate 16 7) 1], ?_, (List.append_nil _).symm⟩
    intro f mem
    rw [List.mem_singleton.mp mem, created.same_options]
    exact created.fits
  have short : (encodeFrame (headerFrame (List.replicate 16 7) 1)).length ≤ maxWalScanBytes := by
    rw [length_encodeFrame]
    show frameHeaderBytes + (recordHeaderBytes + (sha256 (List.replicate 16 7)).bytes.length) ≤ _
    rw [(sha256 _).size]
    decide
  have verified : (execute s.verify d).1 = .ok () := by
    rw [verify_of_attached created.live.attached framed nofun short]
  exact ⟨s, d, created.live.valid, verified, verified_opens_iff created.live.valid verified _⟩

end QoSFabric
