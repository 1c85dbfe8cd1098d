import QoSFabric.Proof.Store.Corruption
import QoSFabric.Proof.Store.Orphans
import QoSFabric.Proof.Store.Torn

/-!
# A torn frame at the end of the log
-/

namespace QoSFabric

open FileSystem Framing

variable {options : StoreOptions} {events : List StoreEvent} {s t u : Store} {d d' : Disk FileName}
  {m : Manifest} {held : Option Bytes} {log torn boot : Bytes} {frames front : List Frame}
  {f : Frame} {cut : Option Nat} {n : Nat}

namespace Store

/-- A replay meets a torn frame behind whole ones, or refuses one of these before it gets there. -/
theorem replayOf_behind (s : Store) (fits : ∀ f ∈ frames, f.Fits s.options.maxRecordBytes)
    (cut : (walFormat s.options.maxRecordBytes).Torn torn) :
    (∃ r, s.replayOf ((walFormat s.options.maxRecordBytes).log frames ++ torn) =
        (r, (walFormat s.options.maxRecordBytes).tornStop torn) ∧
      s.replayOf ((walFormat s.options.maxRecordBytes).log frames) = (r, .ended [])) ∨
    ∀ behind, ∃ rest size after, StandsWhole s.options.maxRecordBytes rest size ∧
      (s.replayOf ((walFormat s.options.maxRecordBytes).log frames ++ behind)).2 =
        .refused rest after := by
  have fuel (behind : Bytes) : ∃ spare,
      ((walFormat s.options.maxRecordBytes).log frames ++ behind).length =
        frames.length + (spare + behind.length) := by
    obtain ⟨spare, eq⟩ :=
      Nat.exists_eq_add_of_le ((walFormat s.options.maxRecordBytes).length_le_log frames)
    exact ⟨spare, by rw [List.length_append, eq, Nat.add_assoc]⟩
  cases visited : Format.visitAll (applyFrame s.snapshotSequence)
      (.start s.lastSequence s.durableEpoch) frames with
  | some r =>
      left
      refine ⟨r, ?_, (walFormat s.options.maxRecordBytes).scan_whole _ fits visited⟩
      obtain ⟨spare, eq⟩ := fuel torn
      unfold replayOf replayLoop
      rw [eq]
      exact ((walFormat s.options.maxRecordBytes).scan_log _ fits visited).trans
        ((walFormat s.options.maxRecordBytes).scan_torn _ cut.unframed (Nat.le_add_left _ _))
  | none =>
      right
      intro behind
      obtain ⟨spare, eq⟩ := fuel behind
      obtain ⟨r, done, f, later, split, stopped⟩ := (walFormat s.options.maxRecordBytes).scan_refused _
        fits (spare + behind.length) behind visited
      have fit : f.Fits s.options.maxRecordBytes := by
        rw [split] at fits
        exact fits f (List.mem_append_right _ List.mem_cons_self)
      have stands := standsWhole (parseFrame_encode f
        ((walFormat s.options.maxRecordBytes).log later ++ behind) fit)
      refine ⟨_, _, (walFormat s.options.maxRecordBytes).log later ++ behind, stands, ?_⟩
      unfold replayOf replayLoop
      rw [eq]
      exact congrArg Prod.snd stopped

theorem not_admits_of_refused {rest after : Bytes} {size : Nat}
    (unrepaired : s.options.repairTruncateCorruptTail = false)
    (stands : StandsWhole s.options.maxRecordBytes rest size)
    (stop : (s.replayOf log).2 = .refused rest after) : ¬s.Admits log := by
  intro admits
  have refused := admits ⟨true, rest, after.length⟩ (by rw [stop]; rfl)
  rw [admitted_iff stands, unrepaired] at refused
  cases refused.1

/-- A log that ends in a torn frame, read without repair: the whole frames pass, and the rest is cut
off. -/
structure EndsTorn (s : Store) (log torn : Bytes) : Prop where
  admits : s.Admits log
  unframed : anyValidFrameAfter s.options.maxRecordBytes torn = false
  replay : (s.replayOf (log ++ torn)).1 = (s.replayOf log).1
  uncut : (s.cutOf log).getD log.length = log.length
  cut : (s.cutOf (log ++ torn)).getD (log ++ torn).length = log.length
  dropped : ((tailOf (s.replayOf (log ++ torn)).2).map Tail.dropped).getD 0 = torn.length

theorem dropped_tornStop (maxRecordBytes : Nat) (torn : Bytes) :
    ((tailOf ((walFormat maxRecordBytes).tornStop torn)).map Tail.dropped).getD 0 = torn.length := by
  unfold Format.tornStop
  split
  · cases torn <;> rfl
  · rfl

theorem cutOf_append (dropped :
      ((tailOf (s.replayOf (log ++ torn)).2).map Tail.dropped).getD 0 = torn.length) :
    (s.cutOf (log ++ torn)).getD (log ++ torn).length = log.length := by
  unfold cutOf
  cases behind : tailOf (s.replayOf (log ++ torn)).2 with
  | none =>
      rw [behind] at dropped
      rw [Option.map_none, Option.getD_none, List.length_append, ← dropped]
      rfl
  | some tail =>
      rw [behind] at dropped
      rw [Option.map_some, Option.getD_some, List.length_append, ← dropped]
      exact Nat.add_sub_cancel _ _

theorem admits_torn_iff (unrepaired : s.options.repairTruncateCorruptTail = false)
    (fits : ∀ f ∈ frames, f.Fits s.options.maxRecordBytes)
    (cut : (walFormat s.options.maxRecordBytes).Torn torn) :
    (s.Admits ((walFormat s.options.maxRecordBytes).log frames ++ torn) ↔
      s.Admits ((walFormat s.options.maxRecordBytes).log frames) ∧
        anyValidFrameAfter s.options.maxRecordBytes torn = false) ∧
    (s.Admits ((walFormat s.options.maxRecordBytes).log frames) →
      anyValidFrameAfter s.options.maxRecordBytes torn = false →
        s.EndsTorn ((walFormat s.options.maxRecordBytes).log frames) torn) := by
  rcases s.replayOf_behind fits cut with ⟨r, behind, whole⟩ | stops
  · have admitted : s.Admits ((walFormat s.options.maxRecordBytes).log frames) := by
      unfold Admits
      rw [whole]
      exact nofun
    have torn_iff : s.Admits ((walFormat s.options.maxRecordBytes).log frames ++ torn) ↔
        anyValidFrameAfter s.options.maxRecordBytes torn = false := by
      unfold Admits
      rw [behind]
      exact refused_torn cut _
    refine ⟨torn_iff.trans ⟨fun unframed => ⟨admitted, unframed⟩, And.right⟩, ?_⟩
    rintro - unframed
    have dropped : ((tailOf (s.replayOf
        ((walFormat s.options.maxRecordBytes).log frames ++ torn)).2).map Tail.dropped).getD 0 =
          torn.length := by
      rw [behind]
      exact dropped_tornStop _ _
    refine ⟨admitted, unframed, by rw [behind, whole], ?_, cutOf_append dropped, dropped⟩
    unfold cutOf
    rw [whole]
    rfl
  · have refused (bytes : Bytes) :
        ¬s.Admits ((walFormat s.options.maxRecordBytes).log frames ++ bytes) := by
      obtain ⟨rest, size, after, stands, stop⟩ := stops bytes
      exact not_admits_of_refused unrepaired stands stop
    have refused_whole := refused []
    rw [List.append_nil] at refused_whole
    exact ⟨iff_of_false (refused torn) fun admits => refused_whole admits.1,
      fun admits => absurd admits refused_whole⟩

end Store

/-! ## The opening -/

/-- A directory that shows its artifacts opens exactly when they are recovered and an identity is
there, or fits behind what is kept of the log. -/
theorem Shows.opens_iff_recovers (valid : options.Valid) (shows : Shows d m held log) (boot : Bytes) :
    (∃ u d', execute (Store.open options boot) d = (.ok u, d')) ↔
      ∃ t cut, Store.recover options m held log = .ok (t, cut) ∧
        (t.identified = true ∨ t.Takes 32) := by
  rw [execute_open valid]
  have opened := Store.execute_openImpl valid shows boot
  cases recovered : Store.recover options m held log with
  | error e =>
      rw [recovered] at opened
      obtain ⟨d₁, -, failed⟩ := opened
      rw [failed]
      refine iff_of_false ?_ ?_
      · rintro ⟨u, d', eq⟩
        cases eq
      · rintro ⟨t, cut, eq, -⟩
        cases eq
  | ok outcome =>
      obtain ⟨t, cut⟩ := outcome
      obtain ⟨u, computed, reads⟩ :=
        Store.recover_of_readable (Store.readable_of_recover recovered)
      obtain ⟨rfl, rfl⟩ := Prod.mk.inj (Except.ok.inj (recovered.symm.trans computed))
      rw [recovered] at opened
      obtain ⟨d₁, handle, shows₁, file, eq⟩ := opened
      have replays := reads.replayed
      have small : t.options.maxRecordBytes ≤ Limits.maxWalRecordBytes :=
        (congrArg StoreOptions.maxRecordBytes replays.options).trans_le valid.small
      have unnamed : Store.Unnamed { t with walHandle := some handle } := by
        intro path
        have begun := Store.begun_adopt (shows.loads valid)
        exact replays.snapshotSequence.trans (begun.unnamed (replays.snapshotPath.symm.trans path))
      have ready : Store.Ready { t with walHandle := some handle } :=
        ⟨replays.readOnly, handle, rfl⟩
      have concludes := Store.conclude_ok_iff (t := { t with walHandle := some handle }) small ready
        unnamed boot d₁
      rw [eq, concludes]
      constructor
      · rintro (known | takes)
        · exact ⟨t, _, rfl, .inl known⟩
        · exact ⟨t, _, rfl, .inr ⟨takes.sequence, takes.record, takes.small, takes.log⟩⟩
      · rintro ⟨v, cut, same, possible⟩
        obtain ⟨rfl, -⟩ := Prod.mk.inj (Except.ok.inj same)
        rcases possible with known | takes
        · exact .inl known
        · exact .inr ⟨takes.sequence, takes.record, takes.small, takes.log⟩

theorem Store.possible_congr (storeId : t.storeId = u.storeId)
    (options : t.options = u.options) (lastSequence : t.lastSequence = u.lastSequence)
    (walBytes : t.walBytes = u.walBytes) :
    (t.identified = true ∨ t.Takes 32) ↔ (u.identified = true ∨ u.Takes 32) := by
  have takes : t.Takes 32 ↔ u.Takes 32 := by
    constructor
    · rintro ⟨sequence, record, small, log⟩
      rw [lastSequence] at sequence
      rw [options] at record small log
      rw [walBytes] at log
      exact ⟨sequence, record, small, log⟩
    · rintro ⟨sequence, record, small, log⟩
      rw [← lastSequence] at sequence
      rw [← options] at record small log
      rw [← walBytes] at log
      exact ⟨sequence, record, small, log⟩
  rw [identified_of_storeId storeId, takes]

theorem Store.EndsTorn.possible (ends : ((fresh options).adopt m).EndsTorn log torn)
    (torn_read : Recovered options m held (log ++ torn) t) (read : Recovered options m held log u) :
    (t.identified = true ∨ t.Takes 32) ↔ (u.identified = true ∨ u.Takes 32) := by
  obtain ⟨replays, -⟩ := torn_read
  obtain ⟨replays', -⟩ := read
  refine possible_congr (replays.storeId.trans replays'.storeId.symm)
    (replays.options.trans replays'.options.symm) ?_ ?_
  · have last := replays.lastSequence
    rw [ends.replay] at last
    exact last.trans replays'.lastSequence.symm
  · have size := replays.walBytes
    rw [ends.cut, ← ends.uncut] at size
    exact size.trans replays'.walBytes.symm

theorem Store.recovers_torn_iff (unrepaired : options.repairTruncateCorruptTail = false)
    (fits : ∀ f ∈ frames, f.Fits options.maxRecordBytes)
    (cut : (walFormat options.maxRecordBytes).Torn torn) :
    (∃ t length, recover options m held ((walFormat options.maxRecordBytes).log frames ++ torn) =
        .ok (t, length) ∧ (t.identified = true ∨ t.Takes 32)) ↔
      (∃ t length, recover options m held ((walFormat options.maxRecordBytes).log frames) =
        .ok (t, length) ∧ (t.identified = true ∨ t.Takes 32)) ∧
      anyValidFrameAfter options.maxRecordBytes torn = false ∧
      ((walFormat options.maxRecordBytes).log frames ++ torn).length ≤ maxWalScanBytes := by
  obtain ⟨admits, ends⟩ := @admits_torn_iff ((fresh options).adopt m) torn frames unrepaired fits cut
  constructor
  · rintro ⟨t, length, recovered, possible⟩
    have readable := readable_of_recover recovered
    obtain ⟨t', computed, torn_read⟩ := recover_of_readable readable
    obtain ⟨rfl, -⟩ := Prod.mk.inj (Except.ok.inj (recovered.symm.trans computed))
    obtain ⟨admitted, unframed⟩ := admits.mp readable.admits
    have shorter := readable.log_small
    rw [List.length_append] at shorter
    obtain ⟨u, computed, read⟩ := recover_of_readable
      ⟨readable.snapshot_small, Nat.le_trans (Nat.le_add_right _ _) shorter, admitted⟩
    exact ⟨⟨u, _, computed, ((ends admitted unframed).possible torn_read read).mp possible⟩, unframed,
      readable.log_small⟩
  · rintro ⟨⟨u, length, recovered, possible⟩, unframed, small⟩
    have readable := readable_of_recover recovered
    obtain ⟨u', computed, read⟩ := recover_of_readable readable
    obtain ⟨rfl, -⟩ := Prod.mk.inj (Except.ok.inj (recovered.symm.trans computed))
    obtain ⟨t, computed, torn_read⟩ := recover_of_readable
      ⟨readable.snapshot_small, small, admits.mpr ⟨readable.admits, unframed⟩⟩
    exact ⟨t, _, computed, ((ends readable.admits unframed).possible torn_read read).mpr possible⟩

theorem truncated_of_open (valid : options.Valid) (loads : m.Loads options d)
    (opened : execute (Store.open options boot) d = (.ok u, d')) :
    u.recovery.truncatedTailBytes =
      ((tailOf (((Store.fresh options).adopt m).replayOf (walOf d)).2).map Tail.dropped).getD 0 := by
  rw [execute_open valid, Store.openImpl_eq_ok] at opened
  obtain ⟨s, e, loaded, opened⟩ := opened
  obtain ⟨eq, rfl⟩ := Prod.mk.inj ((Store.loadOrRebuild_of_loads loads).symm.trans loaded)
  obtain rfl := Except.ok.inj eq
  obtain ⟨t, e₁, held, opens, concluded⟩ := Store.opens_of_openLoaded opened
  have begun := Store.begun_adopt loads
  have small : t.options.maxRecordBytes ≤ Limits.maxWalRecordBytes :=
    (opens.same_options begun) ▸ valid.small
  obtain ⟨handle, attached, file⟩ := opens.handle
  have ends := Store.ends_of_conclude small (opens.nameless begun) attached file concluded
  rw [ends.truncated, opens.dropped, begun.truncated]

/-- An opening that keeps the given front of the log, whose recovery reports what it has cut off. -/
def OpensCutting (options : StoreOptions) (boot : Bytes) (d : Disk FileName) (kept : Nat) : Prop :=
  ∃ t d' header, execute (Store.open options boot) d = (.ok t, d') ∧
    t.recovery.truncatedTailBytes = (walOf d).length - kept ∧
    walOf d' = (walOf d).take kept ++ header.flatMap encodeFrame ∧
    (header = [] ∨ ∃ sequence, header = [headerFrame boot sequence])

theorem Shows.opensCutting (valid : options.Valid)
    (unrepaired : options.repairTruncateCorruptTail = false)
    (fits : ∀ f ∈ frames, f.Fits options.maxRecordBytes)
    (cut : (walFormat options.maxRecordBytes).Torn torn)
    (shows : Shows d m held ((walFormat options.maxRecordBytes).log frames ++ torn))
    (opens : ∃ t d', execute (Store.open options boot) d = (.ok t, d')) :
    OpensCutting options boot d ((walFormat options.maxRecordBytes).log frames).length := by
  obtain ⟨t, d', opening⟩ := opens
  obtain ⟨m', header, reopened⟩ := reopened_of_open valid shows opening
  obtain ⟨admits, ends⟩ :=
    @Store.admits_torn_iff ((Store.fresh options).adopt m) torn frames unrepaired fits cut
  obtain ⟨admitted, unframed⟩ := admits.mp reopened.readable.admits
  have ends : Store.EndsTorn ((Store.fresh options).adopt m)
      ((walFormat options.maxRecordBytes).log frames) torn := ends admitted unframed
  have shown : walOf d = (walFormat options.maxRecordBytes).log frames ++ torn := by
    rw [walOf, shows.log, Option.getD_some]
  refine ⟨t, d', header, opening, ?_, ?_, ?_⟩
  · rw [truncated_of_open valid (shows.loads valid) opening, shown, ends.dropped, List.length_append,
      Nat.add_sub_cancel_left]
  · rw [walOf, reopened.live.shows.log, Option.getD_some, shown, keptOf, ends.cut]
  · rcases reopened.header with ⟨rfl, -⟩ | ⟨-, rfl, -⟩
    · exact .inl rfl
    · exact .inr ⟨_, rfl⟩

theorem StoreRun.shows_cut (run : StoreRun options events s d)
    (holds : HoldsFrames options d (front ++ [f])) :
    ∃ m held, Shows (d.truncate walFileName (front.flatMap encodeFrame).length) m held
        ((walFormat options.maxRecordBytes).log front) ∧
      ∀ n ≤ (encodeFrame f).length,
        Shows (d.truncate walFileName ((front.flatMap encodeFrame).length + n)) m held
          ((walFormat options.maxRecordBytes).log front ++ (encodeFrame f).take n) := by
  obtain ⟨-, -, m, log, attached⟩ := run.attached
  have shows := attached.shows
  obtain rfl := Option.some.inj (shows.log.symm.trans holds.log)
  rw [List.flatMap_append, List.flatMap_singleton] at shows
  have cut (n : Nat) (within : n ≤ (encodeFrame f).length) :
      Shows (d.truncate walFileName ((front.flatMap encodeFrame).length + n)) m (snapshotOf events)
        (front.flatMap encodeFrame ++ (encodeFrame f).take n) := by
    have short : (front.flatMap encodeFrame).length + n ≤
        (front.flatMap encodeFrame ++ encodeFrame f).length := by
      rw [List.length_append]
      omega
    have cut := shows.cut short
    rwa [List.take_length_add_append] at cut
  refine ⟨m, snapshotOf events, ?_, cut⟩
  have whole := cut 0 (Nat.zero_le _)
  rwa [List.take_zero, List.append_nil] at whole

theorem StoreRun.front_opens_iff (run : StoreRun options events s d)
    (holds : HoldsFrames options d (front ++ [f])) {options' : StoreOptions} (valid : options'.Valid)
    (same : options'.maxRecordBytes = options.maxRecordBytes) (boot : Bytes) :
    (∃ t d', execute (Store.open options' boot)
        (d.truncate walFileName (front.flatMap encodeFrame).length) = (.ok t, d')) ↔
      (front.flatMap encodeFrame).length ≤ maxWalScanBytes ∧
        ∃ m, Reopenable options' (d.truncate walFileName (front.flatMap encodeFrame).length) m := by
  obtain ⟨m, held, shows, -⟩ := run.shows_cut holds
  have fits : ∀ g ∈ front, g.Fits options'.maxRecordBytes :=
    fun g mem => same ▸ holds.fits g (List.mem_append_left _ mem)
  have shown : walOf (d.truncate walFileName (front.flatMap encodeFrame).length) =
      front.flatMap encodeFrame := by
    rw [walOf, shows.log, Option.getD_some]
    rfl
  rw [shows.opens_iff valid ⟨front, fits, rfl⟩ boot, shown]

theorem StoreRun.opensCutting_iff (run : StoreRun options events s d)
    (holds : HoldsFrames options d (front ++ [f])) (inside : n < (encodeFrame f).length)
    (boot : Bytes) :
    OpensCutting { options with repairTruncateCorruptTail := false } boot
        (d.truncate walFileName ((front.flatMap encodeFrame).length + n))
        (front.flatMap encodeFrame).length ↔
      anyValidFrameAfter options.maxRecordBytes ((encodeFrame f).take n) = false ∧
        (front.flatMap encodeFrame).length + n ≤ maxWalScanBytes ∧
        ∃ m, Reopenable { options with repairTruncateCorruptTail := false }
          (d.truncate walFileName (front.flatMap encodeFrame).length) m := by
  obtain ⟨valid, -⟩ := run.attached
  have valid' : StoreOptions.Valid { options with repairTruncateCorruptTail := false } :=
    ⟨valid.version, valid.positive, valid.small⟩
  have fits : ∀ g ∈ front, g.Fits options.maxRecordBytes :=
    fun g mem => holds.fits g (List.mem_append_left _ mem)
  have torn : (walFormat options.maxRecordBytes).Torn ((encodeFrame f).take n) := by
    refine .inr ⟨f, holds.fits f (List.mem_append_right _ (List.mem_singleton_self f)),
      List.take_prefix _ _, ?_⟩
    intro whole
    have cut : ((encodeFrame f).take n).length = (encodeFrame f).length := congrArg List.length whole
    rw [List.length_take] at cut
    omega
  have size : ((walFormat options.maxRecordBytes).log front ++ (encodeFrame f).take n).length =
      (front.flatMap encodeFrame).length + n := by
    rw [List.length_append, List.length_take, Nat.min_eq_left inside.le]
    rfl
  obtain ⟨m, held, front_shows, cut_shows⟩ := run.shows_cut holds
  have torn_shows := cut_shows n inside.le
  have front_opens := run.front_opens_iff holds valid' rfl boot
  rw [front_shows.opens_iff_recovers valid'] at front_opens
  have torn_opens := (torn_shows.opens_iff_recovers valid' boot).trans
    (Store.recovers_torn_iff rfl fits torn)
  constructor
  · rintro ⟨t, d', header, opening, -⟩
    obtain ⟨recovers, unframed, within⟩ := torn_opens.mp ⟨t, d', opening⟩
    exact ⟨unframed, size ▸ within, (front_opens.mp recovers).2⟩
  · rintro ⟨unframed, within, reopenable⟩
    have recovers := front_opens.mpr ⟨Nat.le_trans (Nat.le_add_right _ _) within, reopenable⟩
    exact torn_shows.opensCutting valid' rfl fits torn
      (torn_opens.mpr ⟨recovers, unframed, size.symm ▸ within⟩)

/-- In every state of a run, a log that is cut inside its last frame opens without repair, and is cut
back to its whole frames, exactly when no whole frame stands inside what is left of the last one, the
log is within the budget for reading, and the files would be opened over the whole frames. -/
theorem torn_tail_truncated_iff (run : StoreRun options events s d)
    (holds : HoldsFrames options d (front ++ [f])) (inside : n < (encodeFrame f).length)
    (boot : Bytes) :
    OpensCutting { options with repairTruncateCorruptTail := false } boot
        (d.truncate walFileName ((front.flatMap encodeFrame).length + n))
        (front.flatMap encodeFrame).length ↔
      anyValidFrameAfter options.maxRecordBytes ((encodeFrame f).take n) = false ∧
        (front.flatMap encodeFrame).length + n ≤ maxWalScanBytes ∧
        ∃ m, Reopenable { options with repairTruncateCorruptTail := false }
          (d.truncate walFileName (front.flatMap encodeFrame).length) m :=
  run.opensCutting_iff holds inside boot

theorem Interleaving.holdsFrames {past j : Journal} (run : Interleaving options past j s d) :
    HoldsFrames options d j.frames := by
  have trailing := run.trailing
  obtain ⟨m, held, attached, -⟩ := trailing.attached
  exact ⟨trailing.fits, attached.shows.log⟩

def enclosingEntries : Journal :=
  [(1, headerEntry (List.replicate 16 7)), (2, .append .publishClass enclosing)]

set_option maxRecDepth 4000 in
/-- A frame that stands inside the payload of a torn record is taken for damage in the middle of the
log. -/
theorem torn_tail_refused : ¬∀ options events s d front f n boot, StoreRun options events s d →
    HoldsFrames options d (front ++ [f]) → n < (encodeFrame f).length →
      OpensCutting { options with repairTruncateCorruptTail := false } boot
        (d.truncate walFileName ((front.flatMap encodeFrame).length + n))
        (front.flatMap encodeFrame).length := by
  intro recoverable
  have leaves : leavesEntries [some (.append .publishClass enclosing)] ([], enclosingEntries)
      (fun _ => true) = true := by decide +kernel
  obtain ⟨s, d, run, -⟩ := exists_interleaving leaves
  have holds : HoldsFrames .default d
      ([headerFrame (List.replicate 16 7) 1] ++ [⟨.publishClass, flagNone, 2, 0, enclosing⟩]) :=
    run.holdsFrames
  obtain ⟨events, stored⟩ := run.run
  have inside : 66 < (encodeFrame ⟨.publishClass, flagNone, 2, 0, enclosing⟩).length := by decide
  have opens := recoverable _ _ _ _ _ _ 66 [] stored holds inside
  have unframed := ((stored.opensCutting_iff holds inside []).mp opens).1
  have framed : anyValidFrameAfter StoreOptions.default.maxRecordBytes
      ((encodeFrame ⟨.publishClass, flagNone, 2, 0, enclosing⟩).take 66) = true := by decide +kernel
  cases framed.symm.trans unframed

def committedFrames : List Frame :=
  Journal.frames [(1, headerEntry (List.replicate 16 7)), (2, .stage .publishClass [1])]

set_option maxRecDepth 4000 in
/-- The record of a commit may be torn at any byte. -/
theorem torn_tail_truncated_iff_committed : ∃ events s d, StoreRun .default events s d ∧
    ∀ n < (encodeFrame ((Entry.commit 2 .zero).frame 3)).length, ∀ boot,
      OpensCutting .default boot
        (d.truncate walFileName ((committedFrames.flatMap encodeFrame).length + n))
        (committedFrames.flatMap encodeFrame).length := by
  have leaves : leavesEntries [some (.stage .publishClass [1]), some (.commit 2 .zero)]
      ([], [(1, headerEntry (List.replicate 16 7)), (2, .stage .publishClass [1]),
        (3, .commit 2 .zero)])
      (fun d => reopens (d.truncate walFileName (committedFrames.flatMap encodeFrame).length)) =
        true := by decide +kernel
  obtain ⟨s, d, run, opens⟩ := exists_interleaving leaves
  have holds : HoldsFrames .default d (committedFrames ++ [(Entry.commit 2 .zero).frame 3]) :=
    run.holdsFrames
  obtain ⟨events, stored⟩ := run.run
  obtain ⟨valid, -⟩ := stored.attached
  have unframed : ∀ n < (encodeFrame ((Entry.commit 2 .zero).frame 3)).length,
      anyValidFrameAfter StoreOptions.default.maxRecordBytes
        ((encodeFrame ((Entry.commit 2 .zero).frame 3)).take n) = false := by decide +kernel
  have small : (committedFrames.flatMap encodeFrame).length +
      (encodeFrame ((Entry.commit 2 .zero).frame 3)).length ≤ maxWalScanBytes := by decide
  have reopenable := ((stored.front_opens_iff holds valid rfl _).mp (opens_of_reopens opens)).2
  refine ⟨events, s, d, stored, fun n inside boot => ?_⟩
  exact (torn_tail_truncated_iff stored holds inside boot).mpr
    ⟨unframed n inside, by omega, reopenable⟩

end QoSFabric
