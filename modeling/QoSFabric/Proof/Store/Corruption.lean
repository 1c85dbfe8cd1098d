import QoSFabric.Proof.Codec.Checksum
import QoSFabric.Proof.Store.Budgets

/-!
# Corruption in the middle of the log

The log of a store is a sequence of whole frames. A frame one byte of which has changed behind its
length is no frame any more, and the intact frame that follows it tells the damage from a torn tail:
the store refuses to open, whether or not it repairs its log, and the log stays as it is. Only a
budget that refuses the undamaged artifacts comes first.
-/

namespace QoSFabric

open FileSystem Interaction

open Framing (Format)

variable {options : StoreOptions} {s s' : Store} {d d' : Disk FileName} {m : Manifest}
  {held : Option Bytes} {log bytes : Bytes} {events : List StoreEvent} {frames : List Frame}
  {f : Frame} {maxRecordBytes : Nat}

theorem parseFrame_damaged (fits : f.Fits maxRecordBytes) {i : Nat} {b : UInt8} (behind : 4 ≤ i)
    (lt : i < (encodeFrame f).length) (ne : b ≠ (encodeFrame f)[i]) (rest : Bytes) :
    parseFrame maxRecordBytes ((encodeFrame f).set i b ++ rest) = .bad := by
  have size : (encodeFrame f).length = 8 + f.payload.length := by
    rw [encodeFrame, List.length_append, length_frameHeader]
  have changed : (encodeFrame f).set i b ≠ frameHeader (((encodeFrame f).set i b).drop 8) ++
      ((encodeFrame f).set i b).drop 8 := framed_set_ne lt ne
  have same : ((encodeFrame f).set i b).length = (encodeFrame f).length := List.length_set
  have word : LittleEndian.decode (((encodeFrame f).set i b).take 4) = f.payload.length := by
    rw [List.take_set_of_le behind]
    exact decode_header_length fits.payload_lt f.payload
  generalize (encodeFrame f).set i b = damaged at changed same word ⊢
  have eight : frameHeaderBytes = 8 := rfl
  have budget : ¬f.payload.length > maxRecordBytes := by
    rw [Frame.length_payload]
    exact Nat.not_lt.mpr fits.1
  have front : (damaged ++ rest).take 4 = damaged.take 4 :=
    List.take_append_of_le_length (by omega)
  have sum : ((damaged ++ rest).drop 4).take 4 = (damaged.drop 4).take 4 := by
    rw [List.drop_append_of_le_length (by omega),
      List.take_append_of_le_length (by rw [List.length_drop]; omega)]
  have record : ((damaged ++ rest).drop frameHeaderBytes).take f.payload.length = damaged.drop 8 := by
    rw [List.drop_append_of_le_length (by omega), List.take_left' (by rw [List.length_drop]; omega)]
  have unsealed : (crc32c (damaged.drop 8)).toNat ≠
      LittleEndian.decode ((damaged.drop 4).take 4) := by
    intro sealed
    apply changed
    have first := LittleEndian.encode_decode (damaged.take 4)
    have second := LittleEndian.encode_decode ((damaged.drop 4).take 4)
    rw [List.length_take_of_le (by omega)] at first
    rw [List.length_take_of_le (by rw [List.length_drop]; omega), ← sealed] at second
    rw [word] at first
    have length : (damaged.drop 8).length = f.payload.length := by
      rw [List.length_drop]
      omega
    rw [frameHeader, length, first, second, List.append_assoc,
      show damaged.drop 8 = (damaged.drop 4).drop 4 by rw [List.drop_drop],
      List.take_append_drop, List.take_append_drop]
  have complete : ¬frameHeaderBytes + f.payload.length > (damaged ++ rest).length := by
    rw [List.length_append]
    omega
  have header : ¬frameHeaderBytes > (damaged ++ rest).length := by omega
  rw [parseFrame, if_neg header]
  simp only [front, word, sum, record]
  rw [if_neg budget, if_neg complete, if_pos unsealed]

def Framed (maxRecordBytes : Nat) (log : Bytes) : Prop :=
  ∃ frames, (∀ f ∈ frames, f.Fits maxRecordBytes) ∧ log = (walFormat maxRecordBytes).log frames

theorem Framed.append (framed : Framed maxRecordBytes log) (fits : f.Fits maxRecordBytes) :
    Framed maxRecordBytes (log ++ encodeFrame f) := by
  obtain ⟨frames, fit, rfl⟩ := framed
  refine ⟨frames ++ [f], ?_, (Format.log_concat _ frames f).symm⟩
  intro g mem
  rcases List.mem_append.mp mem with mem | mem
  · exact fit g mem
  · rw [List.mem_singleton.mp mem]
    exact fits

theorem Framed.kept (framed : Framed options.maxRecordBytes log) :
    Framed options.maxRecordBytes (keptOf options m log) := by
  obtain ⟨frames, fits, rfl⟩ := framed
  obtain ⟨spare, eq⟩ :=
    Nat.exists_eq_add_of_le ((walFormat options.maxRecordBytes).length_le_log frames)
  cases visited : Format.visitAll (applyFrame ((Store.fresh options).adopt m).snapshotSequence)
      (.start ((Store.fresh options).adopt m).lastSequence ((Store.fresh options).adopt m).durableEpoch)
      frames with
  | some r =>
      have scanned := (walFormat options.maxRecordBytes).scan_whole _ fits visited
      have stop : (((Store.fresh options).adopt m).replayOf
          ((walFormat options.maxRecordBytes).log frames)).2 = .ended [] := congrArg Prod.snd scanned
      unfold keptOf Store.cutOf
      rw [stop]
      exact ⟨frames, fits, List.take_length⟩
  | none =>
      obtain ⟨r, done, a, later, rfl, stopped⟩ :=
        (walFormat options.maxRecordBytes).scan_refused _ fits spare [] visited
      rw [List.append_nil, List.append_nil, ← eq] at stopped
      have stop : (((Store.fresh options).adopt m).replayOf
          ((walFormat options.maxRecordBytes).log (done ++ a :: later))).2 = _ :=
        congrArg Prod.snd stopped
      refine ⟨done ++ [a], fun f mem => fits f (by simp at mem ⊢; tauto), ?_⟩
      unfold keptOf Store.cutOf
      rw [stop, show done ++ a :: later = done ++ [a] ++ later by simp, Format.log_append]
      have cut (front back : Bytes) :
          (front ++ back).take ((front ++ back).length - back.length) = front := by
        rw [List.length_append, Nat.add_sub_cancel, List.take_left]
      exact cut _ _

theorem Store.Called.framed {call : StoreCall} {answer : StoreAnswer}
    (attached : Attached s d m held log) (framed : Framed s.options.maxRecordBytes log)
    (called : s.Called d call answer s' d') :
    ∃ log', d'.content walFileName = some log' ∧ Framed s.options.maxRecordBytes log' := by
  have appends {f : Frame} {t : Store} {e : Disk FileName} (wrote : Store.Wrote s t d e f) :
      ∃ log', e.content walFileName = some log' ∧ Framed s.options.maxRecordBytes log' :=
    ⟨_, (attached.wrote wrote).shows.log, framed.append wrote.planned.fits⟩
  cases called with
  | appended wrote => exact appends wrote
  | staged wrote => exact appends wrote
  | committed wrote => exact appends wrote
  | aborted wrote => exact appends wrote
  | compacted executed => exact ⟨[], (attached.compacted executed).2.shows.log, [], nofun, rfl⟩
  | adopted published => exact ⟨log, (attached.adopted published).shows.log, framed⟩
  | closed wrote => exact appends wrote
  | idle silent => exact ⟨log, attached.shows.log, framed⟩

theorem StoreRun.framed (run : StoreRun options events s d) :
    ∃ log, d.content walFileName = some log ∧ Framed options.maxRecordBytes log := by
  induction run with
  | created opening =>
      have created := created_of_empty (valid_of_open opening) opening
      refine ⟨_, created.live.shows.log, [headerFrame _ 1], ?_, (List.append_nil _).symm⟩
      intro f mem
      rw [List.mem_singleton.mp mem]
      exact created.fits
  | called run calling ih =>
      obtain ⟨log, content, framed⟩ := ih
      obtain ⟨valid, same, m, log', attached⟩ := run.attached
      obtain rfl : log = log' := Option.some.inj (content.symm.trans attached.shows.log)
      have called := Store.called_of_execute attached.valid.small calling
      rw [← same] at framed ⊢
      exact called.framed attached framed
  | reopened run opening ih =>
      obtain ⟨log, content, framed⟩ := ih
      obtain ⟨valid, -, m, log', attached⟩ := run.attached
      obtain rfl : log = log' := Option.some.inj (content.symm.trans attached.shows.log)
      obtain ⟨m', header, reopened⟩ := reopened_of_open valid attached.shows opening
      refine ⟨_, reopened.live.shows.log, ?_⟩
      rcases reopened.header with ⟨rfl, -⟩ | ⟨-, rfl, fits, -⟩
      · rw [List.flatMap_nil, List.append_nil]
        exact framed.kept
      · rw [List.flatMap_cons, List.flatMap_nil, List.append_nil]
        exact framed.kept.append fits

/-- A payload or checksum byte of a frame is another one, and a frame follows. -/
inductive Damages (frames : List Frame) : Bytes → Prop where
  | byte {before after : List Frame} {f : Frame} {i : Nat} {b : UInt8}
      (split : frames = before ++ f :: after) (follows : after ≠ []) (behind : 4 ≤ i)
      (lt : i < (encodeFrame f).length) (ne : b ≠ (encodeFrame f)[i]) :
      Damages frames
        (before.flatMap encodeFrame ++ ((encodeFrame f).set i b ++ after.flatMap encodeFrame))

theorem Damages.length (damages : Damages frames bytes) :
    bytes.length = (frames.flatMap encodeFrame).length := by
  obtain ⟨rfl, -, -, -, -⟩ := damages
  simp

theorem suffix_tail {front back : Bytes} (ne : front ≠ []) : back <:+ (front ++ back).tail := by
  cases front with
  | nil => exact absurd rfl ne
  | cons b front => exact List.suffix_append front back

theorem encodeFrame_ne_nil (f : Frame) : encodeFrame f ≠ [] := by
  apply List.ne_nil_of_length_pos
  rw [length_encodeFrame]
  exact Nat.add_pos_left (by decide) _

theorem anyValidFrameAfter_intact (fits : f.Fits maxRecordBytes) {front : Bytes} (ne : front ≠ [])
    (back : Bytes) : anyValidFrameAfter maxRecordBytes (front ++ (encodeFrame f ++ back)) = true := by
  refine Framing.anyWhole_iff.mpr ⟨encodeFrame f ++ back, ?_, suffix_tail ne, ?_⟩
  · exact List.append_ne_nil_of_left_ne_nil (encodeFrame_ne_nil f) back
  · rw [parseFrame_encode f back fits]
    rfl

theorem Damages.follows (fits : ∀ f ∈ frames, f.Fits s.options.maxRecordBytes)
    (damages : Damages frames bytes) :
    ∃ tail, tailOf (s.replayOf bytes).2 = some tail ∧
      tail.validFrameFollows s.options.maxRecordBytes = true := by
  obtain @⟨before, after, f, i, b, rfl, follows, behind, lt, ne⟩ := damages
  obtain ⟨next, later, rfl⟩ := List.exists_cons_of_ne_nil follows
  have intact : next.Fits s.options.maxRecordBytes := fits next (by simp)
  have broken (rest : Bytes) : parseFrame s.options.maxRecordBytes ((encodeFrame f).set i b ++ rest) =
      .bad := parseFrame_damaged (fits f (by simp)) behind lt ne rest
  have size : ((encodeFrame f).set i b).length = (encodeFrame f).length := List.length_set
  have long := length_encodeFrame f
  have damaged : (encodeFrame f).set i b ≠ [] := by
    apply List.ne_nil_of_length_pos
    omega
  rw [List.flatMap_cons]
  generalize (encodeFrame f).set i b = damage at broken size damaged ⊢
  generalize later.flatMap encodeFrame = rest
  have count := (walFormat s.options.maxRecordBytes).length_le_log before
  obtain ⟨fuel, enough⟩ : ∃ fuel, ((walFormat s.options.maxRecordBytes).log before ++
      (damage ++ (encodeFrame next ++ rest))).length = before.length + (fuel + 1) := by
    refine ⟨((walFormat s.options.maxRecordBytes).log before ++
      (damage ++ (encodeFrame next ++ rest))).length - before.length - 1, ?_⟩
    rw [List.length_append, List.length_append]
    omega
  have header : (walFormat s.options.maxRecordBytes).header ≤
      (damage ++ (encodeFrame next ++ rest)).length := by
    rw [List.length_append, size, long]
    exact Nat.le_trans (Nat.le_add_right _ _) (Nat.le_add_right _ _)
  have halted := (walFormat s.options.maxRecordBytes).scan_halted (applyFrame s.snapshotSequence)
    (fun g mem => fits g (List.mem_append_left _ mem)) fuel (s := .start s.lastSequence s.durableEpoch)
    header fun g size parsed => nomatch (broken _).symm.trans parsed
  rw [← enough] at halted
  rcases halted with stopped | ⟨a, later, stopped⟩
  · have stop : (s.replayOf (before.flatMap encodeFrame ++ (damage ++ (encodeFrame next ++ rest)))).2 =
        _ := stopped
    rw [stop]
    exact ⟨⟨true, _, _⟩, rfl, anyValidFrameAfter_intact intact damaged rest⟩
  · have stop : (s.replayOf (before.flatMap encodeFrame ++ (damage ++ (encodeFrame next ++ rest)))).2 =
        _ := stopped
    rw [stop]
    refine ⟨⟨true, _, _⟩, rfl, ?_⟩
    have nonempty : encodeFrame a ++ ((walFormat s.options.maxRecordBytes).log later ++ damage) ≠ [] :=
      List.append_ne_nil_of_left_ne_nil (encodeFrame_ne_nil a) _
    have found := anyValidFrameAfter_intact intact nonempty rest
    rw [List.append_assoc, List.append_assoc] at found
    exact found

theorem Damages.refused (fits : ∀ f ∈ frames, f.Fits s.options.maxRecordBytes)
    (damages : Damages frames bytes) :
    ∃ e, s.readLog bytes = .error e ∧ e.code = .corrupt := by
  obtain ⟨tail, behind, follows⟩ := damages.follows fits
  refine ⟨_, Store.readLog_of_not_admits fun admits => ?_, rfl⟩
  have admitted := admits tail behind
  unfold Tail.refused at admitted
  rw [follows, Bool.or_true, Bool.or_true] at admitted
  cases admitted

/-- A directory whose log has been changed, and nothing else. -/
structure LogReplaced (d d' : Disk FileName) (bytes : Bytes) : Prop where
  log : d'.content walFileName = some bytes
  others : ∀ name, name ≠ walFileName → d'.content name = d.content name

theorem Shows.replaced (shows : Shows d m held log) (replaced : LogReplaced d d' bytes) :
    Shows d' m held bytes where
  manifest := (replaced.others _ manifest_ne_wal).trans shows.manifest
  sound := shows.sound
  log := replaced.log
  unnamed := shows.unnamed
  named payload mem := by
    obtain ⟨name, small, content⟩ := shows.named payload mem
    refine ⟨name, small, (replaced.others _ ?_).trans content⟩
    rw [name]
    exact snapshot_ne_wal _

/-- Opening fails for a corrupted log and leaves the bytes of the log as they are. -/
def RefusesLog (options : StoreOptions) (boot : Bytes) (d : Disk FileName) : Prop :=
  ∃ e d', execute (Store.open options boot) d = (.error e, d') ∧ e.code = .corrupt ∧
    d'.content walFileName = d.content walFileName

theorem withSnapshot_error {e : Error} (failed : s.withSnapshot held = .error e) :
    e.code = .tooLarge ∧ ∃ payload ∈ held, 28 + payload.length > Limits.maxSnapshotBytes := by
  unfold Store.withSnapshot at failed
  split at failed
  · cases failed
  next payload =>
    split at failed
    next large =>
      cases failed
      exact ⟨rfl, payload, rfl, large⟩
    · cases failed

theorem options_withSnapshot (loaded : s.withSnapshot held = .ok s') : s'.options = s.options := by
  rw [Store.withSnapshot_of_small (Store.small_of_withSnapshot loaded)] at loaded
  cases loaded
  rfl

theorem refusesLog_iff (valid : options.Valid) (shows : Shows d m held bytes)
    (fits : ∀ f ∈ frames, f.Fits options.maxRecordBytes) (damages : Damages frames bytes)
    (boot : Bytes) :
    RefusesLog options boot d ↔
      (∀ payload ∈ held, payload.length + 28 ≤ Limits.maxSnapshotBytes) ∧
        bytes.length ≤ maxWalScanBytes := by
  have opened := Store.execute_openImpl valid shows boot
  rw [← execute_open valid] at opened
  have tooLarge {e : Error} (large : e.code = .tooLarge)
      (failed : Store.recover options m held bytes = .error e) : ¬RefusesLog options boot d := by
    rintro ⟨e, d', refused, corrupt, -⟩
    rw [failed, refused] at opened
    obtain ⟨d₁, -, same⟩ := opened
    cases same
    cases large.symm.trans corrupt
  unfold Store.recover Store.recoverFrom at opened tooLarge
  cases loaded : ((Store.fresh options).adopt m).withSnapshot held with
  | error e =>
      obtain ⟨code, payload, mem, large⟩ := withSnapshot_error loaded
      rw [loaded] at tooLarge
      refine iff_of_false (tooLarge code rfl) fun budgets => ?_
      have := budgets.1 payload mem
      omega
  | ok t =>
      have small := Store.small_of_withSnapshot loaded
      rw [loaded] at opened tooLarge
      dsimp only at opened tooLarge
      by_cases large : bytes.length > maxWalScanBytes
      · rw [if_pos large] at tooLarge
        exact iff_of_false (tooLarge rfl rfl) fun budgets => absurd budgets.2 (Nat.not_le.mpr large)
      · have same : t.options = options := options_withSnapshot loaded
        obtain ⟨e, refused, corrupt⟩ := damages.refused (s := t) (by rwa [same])
        rw [if_neg large, refused] at opened
        obtain ⟨d₁, shows₁, failed⟩ := opened
        refine iff_of_true ⟨e, d₁, failed, corrupt, shows₁.log.trans shows.log.symm⟩ ⟨?_, ?_⟩
        · intro payload mem
          rw [Nat.add_comm]
          exact small payload mem
        · exact Nat.not_lt.mp large

/-- The frames a log consists of. -/
structure HoldsFrames (options : StoreOptions) (d : Disk FileName) (frames : List Frame) : Prop where
  fits : ∀ f ∈ frames, f.Fits options.maxRecordBytes
  log : d.content walFileName = some (frames.flatMap encodeFrame)

theorem StoreRun.holdsFrames (run : StoreRun options events s d) :
    ∃ frames, HoldsFrames options d frames := by
  obtain ⟨log, content, frames, fits, rfl⟩ := run.framed
  exact ⟨frames, fits, content⟩

theorem StoreRun.refusesLog_iff (run : StoreRun options events s d)
    (holds : HoldsFrames options d frames) (damages : Damages frames bytes)
    (replaced : LogReplaced d d' bytes) (repair : Bool) (boot : Bytes) :
    RefusesLog { options with repairTruncateCorruptTail := repair } boot d' ↔
      (∀ payload ∈ snapshotOf events, payload.length + 28 ≤ Limits.maxSnapshotBytes) ∧
        s.walBytes.toNat ≤ maxWalScanBytes := by
  obtain ⟨valid, -, m, log, attached⟩ := run.attached
  have shows := attached.shows.replaced replaced
  obtain rfl := Option.some.inj (attached.shows.log.symm.trans holds.log)
  have valid' : StoreOptions.Valid { options with repairTruncateCorruptTail := repair } :=
    ⟨valid.version, valid.positive, valid.small⟩
  rw [QoSFabric.refusesLog_iff valid' shows holds.fits damages boot, damages.length,
    attached.walBytes]

/-- In every state of a run every damage in the middle of the log is refused, with and without
repair, and the log left as it is, exactly when the budgets for reading let the artifacts through. -/
theorem damaged_log_refused_iff (run : StoreRun options events s d) :
    (∃ frames, HoldsFrames options d frames) ∧
      ∀ frames bytes d' repair boot, HoldsFrames options d frames → Damages frames bytes →
        LogReplaced d d' bytes →
          (RefusesLog { options with repairTruncateCorruptTail := repair } boot d' ↔
            (∀ payload ∈ snapshotOf events, payload.length + 28 ≤ Limits.maxSnapshotBytes) ∧
              s.walBytes.toNat ≤ maxWalScanBytes) :=
  ⟨run.holdsFrames, fun _ _ _ repair boot holds damages replaced =>
    run.refusesLog_iff holds damages replaced repair boot⟩

theorem exists_replaced (content : d.content walFileName = some log) (bytes : Bytes) :
    ∃ d', LogReplaced d d' bytes := by
  obtain ⟨handle, file, -⟩ := Disk.content_eq_some.mp content
  refine ⟨d.setData handle bytes, ?_, ?_⟩
  · exact Disk.content_eq_some.mpr ⟨handle, file, Disk.data_setData_self bytes⟩
  · intro name other
    refine Disk.content_of_same_file (e := d.setData handle bytes) rfl fun i named => ?_
    exact Disk.data_setData_of_ne (by rintro rfl; exact other (Disk.file_injective named file)) _

theorem StoreRun.appended (run : StoreRun options events s d) (ready : s.Ready) (type : RecordType)
    {body : Bytes} {length : Nat} (size : body.length = length) (takes : s.Takes length) :
    ∃ event d' f, StoreRun options (events ++ [event]) (s.grown length) d' ∧
      snapshotOf (events ++ [event]) = snapshotOf events ∧
      f = ⟨type, flagNone, s.lastSequence + 1, 0, body⟩ ∧ f.Fits options.maxRecordBytes ∧
      Store.Wrote s (s.grown length) d d' f := by
  subst size
  obtain ⟨d', executed⟩ := Store.execute_appendFrame_of_takes type flagNone 0 ready takes d
  have calling : execute (s.call (.append type body)) d =
      ((.ok (.appended (s.lastSequence + 1)), s.grown body.length), d') := by
    unfold Store.call answered Store.append
    rw [execute_bind, executed]
    rfl
  obtain ⟨valid, same, -⟩ := run.attached
  have called := Store.called_of_execute takes.small calling
  cases called with
  | appended wrote =>
      exact ⟨_, d', _, run.called calling, snapshotOf_concat _ _, rfl, same ▸ wrote.planned.fits,
        wrote⟩

theorem exists_damaged {payload : Bytes} (small : payload.length ≤ Limits.maxSnapshotBytes) :
    ∃ events s d frames bytes d', StoreRun StoreOptions.default events s d ∧
      snapshotOf events = some payload ∧ s.walBytes.toNat ≤ maxWalScanBytes ∧
      HoldsFrames StoreOptions.default d frames ∧ Damages frames bytes ∧ LogReplaced d d' bytes := by
  obtain ⟨events, s, d, run, last, ready, options, sequence, size⟩ := exists_compacted small
  obtain ⟨-, -, m, log, attached⟩ := run.attached
  have empty : log = [] := by
    apply List.eq_nil_of_length_eq_zero
    rw [← attached.walBytes, size]
    rfl
  have takes : s.Takes 0 := by
    refine ⟨?_, ?_, ?_, ?_⟩
    all_goals
      simp only [options, sequence, size]
      decide
  have takes' : (s.grown 0).Takes 0 := by
    have same : (s.grown 0).options = StoreOptions.default := options
    refine ⟨?_, ?_, ?_, ?_⟩
    · rw [takes.sequence_grown, sequence]
      decide
    · rw [same]
      decide
    · rw [same]
      decide
    · rw [takes.walBytes_grown, same, size]
      decide
  have length : ((s.grown 0).grown 0).walBytes.toNat ≤ maxWalScanBytes := by
    rw [takes'.walBytes_grown, takes.walBytes_grown, size]
    decide
  obtain ⟨event, d₁, f, run₁, last₁, -, fits, wrote⟩ :=
    run.appended ready .publishClass List.length_nil takes
  obtain ⟨event', d₂, g, run₂, last₂, -, fits', wrote'⟩ :=
    run₁.appended ready .publishClass List.length_nil takes'
  have holds : HoldsFrames StoreOptions.default d₂ [f, g] := by
    refine ⟨?_, ?_⟩
    · intro h mem
      rcases List.mem_pair.mp mem with rfl | rfl
      · exact fits
      · exact fits'
    · rw [((attached.wrote wrote).wrote wrote').shows.log, empty]
      simp
  have four : 4 < (encodeFrame f).length := by
    rw [length_encodeFrame]
    exact Nat.lt_of_lt_of_le (by decide) (Nat.le_add_right _ _)
  have changed (b : UInt8) : b + 1 ≠ b := by
    simp
  have damages : Damages [f, g] ([].flatMap encodeFrame ++
      ((encodeFrame f).set 4 ((encodeFrame f)[4] + 1) ++ [g].flatMap encodeFrame)) :=
    .byte rfl (List.cons_ne_nil g []) (Nat.le_refl 4) four (changed _)
  obtain ⟨d', replaced⟩ := exists_replaced holds.log _
  exact ⟨_, _, d₂, [f, g], _, d', run₂, last₂.trans (last₁.trans last), length, holds, damages, replaced⟩

/-- A log behind a snapshot of the largest size is not called corrupt. -/
theorem damaged_log_unrefused : ¬∀ options events s d frames bytes d' repair boot,
    StoreRun options events s d → HoldsFrames options d frames → Damages frames bytes →
      LogReplaced d d' bytes →
      RefusesLog { options with repairTruncateCorruptTail := repair } boot d' := by
  intro refuses
  obtain ⟨payload, length⟩ : ∃ payload : Bytes, payload.length = Limits.maxSnapshotBytes :=
    ⟨List.replicate _ 0, List.length_replicate⟩
  obtain ⟨events, s, d, frames, bytes, d', run, last, -, holds, damages, replaced⟩ :=
    exists_damaged length.le
  have refused := refuses _ events s d frames bytes d' false [] run holds damages replaced
  have fits := ((run.refusesLog_iff holds damages replaced false []).mp refused).1 payload last
  rw [length] at fits
  omega

theorem damaged_log_refused_iff_empty : ∃ events s d frames bytes d',
    StoreRun StoreOptions.default events s d ∧ HoldsFrames StoreOptions.default d frames ∧
      Damages frames bytes ∧ LogReplaced d d' bytes ∧
      ∀ repair boot,
        RefusesLog { StoreOptions.default with repairTruncateCorruptTail := repair } boot d' := by
  obtain ⟨events, s, d, frames, bytes, d', run, last, scanned, holds, damages, replaced⟩ :=
    exists_damaged (show ([] : Bytes).length ≤ Limits.maxSnapshotBytes from Nat.zero_le _)
  refine ⟨events, s, d, frames, bytes, d', run, holds, damages, replaced, fun repair boot => ?_⟩
  refine ((damaged_log_refused_iff run).2 frames bytes d' repair boot holds damages replaced).mpr
    ⟨?_, scanned⟩
  intro payload mem
  cases last.symm.trans mem
  decide

end QoSFabric
