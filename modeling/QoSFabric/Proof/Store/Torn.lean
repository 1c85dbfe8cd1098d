import QoSFabric.Proof.Store.Survival
import QoSFabric.Proof.Store.Verify

/-!
# Logs cut at any byte

A cut of the log leaves whole frames and a part of the next one. Opening drops that part, unless the
bytes of a whole frame stand inside it, as they may in the payload of a record: then it is taken for
damage in the middle of the log, and the store refuses to open and leaves the log as it is.
-/

namespace QoSFabric

open FileSystem Framing Interaction

variable {options : StoreOptions} {s t : Store} {d d' : Disk FileName} {m : Manifest}
  {held : Option Bytes} {maxRecordBytes : Nat} {log torn : Bytes}

def tornEnd (maxRecordBytes : Nat) (log : Bytes) : Bytes :=
  (Framing.extent frameHeaderBytes (parseFrame maxRecordBytes) log.length log).rest

theorem rest_tornStop : ((walFormat maxRecordBytes).tornStop torn).rest = torn := by
  unfold Format.tornStop
  split <;> rfl

theorem visitAll_passing (frames : List Frame) :
    Format.visitAll (fun (u : Unit) (_ : Frame) => (u, true)) () frames = some () := by
  induction frames with
  | nil => rfl
  | cons f frames ih => exact ih

theorem tornEnd_log {frames : List Frame} (fits : ∀ f ∈ frames, f.Fits maxRecordBytes)
    (cut : (walFormat maxRecordBytes).Torn torn) :
    tornEnd maxRecordBytes ((walFormat maxRecordBytes).log frames ++ torn) = torn := by
  obtain ⟨spare, eq⟩ := Nat.exists_eq_add_of_le ((walFormat maxRecordBytes).length_le_log frames)
  have stop : Framing.extent frameHeaderBytes (parseFrame maxRecordBytes)
      ((walFormat maxRecordBytes).log frames ++ torn).length
      ((walFormat maxRecordBytes).log frames ++ torn) = (walFormat maxRecordBytes).tornStop torn := by
    have scanned : (walFormat maxRecordBytes).scanWith (fun u _ => (u, true))
        (frames.length + (spare + torn.length)) () ((walFormat maxRecordBytes).log frames ++ torn) =
          ((), (walFormat maxRecordBytes).tornStop torn) :=
      ((walFormat maxRecordBytes).scan_log _ fits (visitAll_passing frames)).trans
        ((walFormat maxRecordBytes).scan_torn _ cut.unframed (Nat.le_add_left _ _))
    unfold Framing.extent
    rw [List.length_append, eq, Nat.add_assoc]
    exact congrArg Prod.snd scanned
  rw [tornEnd, stop, rest_tornStop]

theorem anyValidFrameAfter_short (short : torn.length < frameHeaderBytes) :
    anyValidFrameAfter maxRecordBytes torn = false := by
  rw [Bool.eq_false_iff]
  intro found
  obtain ⟨rest, -, suffix, whole⟩ := Framing.anyWhole_iff.mp found
  have le := suffix.length_le
  rw [List.length_tail] at le
  unfold parseFrame at whole
  rw [if_pos (by omega)] at whole
  cases whole

theorem refused_torn (cut : (walFormat maxRecordBytes).Torn torn) (repair : Bool) :
    (∀ tail ∈ tailOf ((walFormat maxRecordBytes).tornStop torn),
        tail.refused maxRecordBytes repair = false) ↔
      anyValidFrameAfter maxRecordBytes torn = false := by
  by_cases short : torn.length < frameHeaderBytes
  · have stop : (walFormat maxRecordBytes).tornStop torn = .ended torn := if_pos short
    rw [stop]
    refine iff_of_true ?_ (anyValidFrameAfter_short short)
    intro tail mem
    cases torn with
    | nil => cases mem
    | cons byte rest =>
        obtain rfl := Option.some.inj mem
        rfl
  · have stop : (walFormat maxRecordBytes).tornStop torn = .unparsed torn := if_neg short
    have ne : torn ≠ [] := by
      rintro rfl
      exact short (by decide)
    have incomplete : parseFrame maxRecordBytes torn = .incomplete :=
      (walFormat maxRecordBytes).parse_log_ne cut ne
    -- the frame is not complete, so only one inside it counts
    have incomplete : Tail.completeFrameBad maxRecordBytes ⟨true, torn, torn.length⟩ = false := by
      unfold parseFrame at incomplete
      rw [if_neg short] at incomplete
      dsimp only at incomplete
      rw [Bool.eq_false_iff]
      intro complete
      simp only [Tail.completeFrameBad, Bool.true_and, Bool.and_eq_true, decide_eq_true_eq]
        at complete
      rw [if_neg (Nat.not_lt.mpr complete.1.2), if_neg (Nat.not_lt.mpr complete.2)] at incomplete
      split at incomplete
      · cases incomplete
      split at incomplete
      · cases incomplete
      split at incomplete <;> cases incomplete
    have refused : Tail.refused maxRecordBytes repair ⟨true, torn, torn.length⟩ =
        anyValidFrameAfter maxRecordBytes torn := by
      unfold Tail.refused Tail.validFrameFollows
      rw [incomplete]
      cases anyValidFrameAfter maxRecordBytes torn <;> cases repair <;> rfl
    rw [stop, ← refused]
    exact ⟨fun all => all _ rfl, fun one tail mem => Option.some.inj mem ▸ one⟩

theorem withinBudget_code {maxWalBytes : UInt64} {size : Option UInt64} {e : Error}
    (failed : Store.withinBudget maxWalBytes size = .error e) : e.code ≠ .corrupt := by
  unfold Store.withinBudget at failed
  split at failed
  · cases failed
    exact ErrorCode.noConfusion
  · split at failed
    · cases failed
      exact ErrorCode.noConfusion
    · cases failed

theorem planFrame_code {type : RecordType} {flags : UInt8} {attempt : AttemptId} {payload : Bytes}
    {e : Error} (failed : s.planFrame type flags attempt payload = .error e) : e.code ≠ .corrupt := by
  unfold Store.planFrame at failed
  split at failed
  · obtain rfl := Except.error.inj failed
    exact ErrorCode.noConfusion
  split at failed
  · obtain rfl := Except.error.inj failed
    exact ErrorCode.noConfusion
  split at failed
  · obtain rfl := Except.error.inj failed
    exact ErrorCode.noConfusion
  next body written =>
    cases sized : s.sizeWith body with
    | error e' =>
        rw [sized] at failed
        obtain rfl := Except.error.inj failed
        exact withinBudget_code sized
    | ok size =>
        rw [sized] at failed
        cases failed

theorem appendFrame_code {type : RecordType} {flags : UInt8} {attempt : AttemptId} {payload : Bytes}
    {e : Error} (failed : execute (s.appendFrame type flags attempt payload) d = ((.error e, t), d')) :
    e.code ≠ .corrupt := by
  unfold Store.appendFrame at failed
  split at failed
  · split at failed
    next plan =>
      obtain rfl := Except.error.inj (congrArg (fun outcome => outcome.1.1) failed)
      exact planFrame_code plan
    · rw [execute_bind, execute_write] at failed
      cases congrArg (fun outcome => outcome.1.1) failed
  · obtain rfl := Except.error.inj (congrArg (fun outcome => outcome.1.1) failed)
    exact ErrorCode.noConfusion

theorem writeManifest_code {e : Error} (failed : execute s.writeManifest d = (.error e, d')) :
    e.code ≠ .corrupt := by
  unfold Store.writeManifest at failed
  split at failed
  · obtain rfl := Except.error.inj (congrArg Prod.fst failed)
    exact ErrorCode.noConfusion
  next bytes encoded =>
    have weakest : (writeFileAtomic manifestFileName bytes).wp Disk.world (fun _ => True)
        (fun result _ => result = .ok ()) d :=
      wp_writeFileAtomic (fun _ _ => trivial) fun _ _ => ⟨trivial, rfl⟩
    have written : (execute (writeFileAtomic manifestFileName bytes) d).1 = .ok () :=
      Program.wp_run weakest
    rw [execute_bind, written] at failed
    cases congrArg Prod.fst failed

theorem conclude_code {boot : Bytes} {e : Error}
    (failed : execute (s.conclude boot) d = (.error e, d')) : e.code ≠ .corrupt := by
  unfold Store.conclude Store.mintIdentity at failed
  by_cases identified : s.identified = true
  · rw [if_pos identified] at failed
    cases congrArg Prod.fst failed
  rw [if_neg identified] at failed
  dsimp only at failed
  rw [execute_bind, execute_bind] at failed
  cases appended : execute (Store.append { s with storeId := (sha256 boot).hex } .storeHeader
      (sha256 boot).bytes) d with
  | mk outcome d₁ =>
      obtain ⟨result, t⟩ := outcome
      rw [appended] at failed
      cases result with
      | error e' =>
          obtain rfl := Except.error.inj (congrArg Prod.fst failed)
          exact appendFrame_code appended
      | ok sequence =>
          dsimp only at failed
          rw [execute_bind] at failed
          cases manifest : execute t.writeManifest d₁ with
          | mk result d₂ =>
              rw [manifest] at failed
              cases result with
              | error e' =>
                  obtain rfl := Except.error.inj (congrArg Prod.fst failed)
                  exact writeManifest_code manifest
              | ok _ => cases congrArg Prod.fst failed

theorem Holding.refusesLog_iff {covered : List Frame} {payload : Bytes} {j : Journal}
    (valid : options.Valid)
    (shows : Shows d m held ((walFormat options.maxRecordBytes).log (covered ++ j.frames) ++ torn))
    (holding : Holding options.maxRecordBytes m held covered payload j)
    (cut : (walFormat options.maxRecordBytes).Torn torn) (boot : Bytes) :
    RefusesLog options boot d ↔ anyValidFrameAfter options.maxRecordBytes torn = true ∧
      payload.length + 28 ≤ Limits.maxSnapshotBytes ∧
      ((walFormat options.maxRecordBytes).log (covered ++ j.frames) ++ torn).length ≤
        maxWalScanBytes := by
  generalize whole : (walFormat options.maxRecordBytes).log (covered ++ j.frames) ++ torn = log at *
  have opened := Store.execute_openImpl valid shows boot
  rw [← execute_open valid] at opened
  have tooLarge {e : Error} (large : e.code = .tooLarge)
      (failed : Store.recover options m held log = .error e) : ¬RefusesLog options boot d := by
    rintro ⟨e, d', refused, corrupt, -⟩
    rw [failed, refused] at opened
    obtain ⟨d₁, -, same⟩ := opened
    cases same
    cases large.symm.trans corrupt
  unfold Store.recover Store.recoverFrom at opened tooLarge
  cases loaded : ((Store.fresh options).adopt m).withSnapshot held with
  | error e =>
      obtain ⟨code, bytes, mem, large⟩ := withSnapshot_error loaded
      rw [loaded] at tooLarge
      refine iff_of_false (tooLarge code rfl) fun budgets => ?_
      have same : held.getD [] = bytes := congrArg (·.getD []) (Option.mem_def.mp mem)
      rw [holding.held] at same
      have fits := budgets.2.1
      rw [same] at fits
      omega
  | ok t =>
      have small := Store.small_of_withSnapshot loaded
      rw [loaded] at opened tooLarge
      dsimp only at opened tooLarge
      have fits : payload.length + 28 ≤ Limits.maxSnapshotBytes := by
        rw [← holding.held]
        cases held with
        | none => decide
        | some bytes => exact Nat.add_comm 28 _ ▸ small bytes rfl
      by_cases large : log.length > maxWalScanBytes
      · rw [if_pos large] at tooLarge
        exact iff_of_false (tooLarge rfl rfl) fun budgets => absurd budgets.2.2 (Nat.not_le.mpr large)
      · have same : t.options = options := options_withSnapshot loaded
        have sequence : t.snapshotSequence = m.snapshotSequence := by
          rw [Store.withSnapshot_of_small small] at loaded
          obtain rfl := Except.ok.inj loaded
          rfl
        have admits : t.Admits log ↔ anyValidFrameAfter options.maxRecordBytes torn = false := by
          obtain ⟨r, -, replays⟩ := Store.replayOf_log (s := t) (same ▸ holding.fits)
            (sequence ▸ holding.before) (sequence ▸ holding.after) holding.lawful (same ▸ cut.unframed)
          rw [same, whole] at replays
          unfold Store.Admits
          rw [replays, same]
          exact refused_torn cut _
        rw [if_neg large] at opened
        cases embedded : anyValidFrameAfter options.maxRecordBytes torn with
        | true =>
            have refuses : ¬t.Admits log := fun admitted => by
              rw [admits.mp admitted] at embedded
              cases embedded
            rw [Store.readLog_of_not_admits refuses] at opened
            obtain ⟨d₁, shows₁, failed⟩ := opened
            exact iff_of_true ⟨_, d₁, failed, rfl, shows₁.log.trans shows.log.symm⟩
              ⟨rfl, fits, Nat.not_lt.mp large⟩
        | false =>
            obtain ⟨u, read, -⟩ := Store.readLog_of_admits (admits.mpr embedded)
            rw [read] at opened
            obtain ⟨d₁, handle, -, -, concluded⟩ := opened
            refine iff_of_false ?_ fun budgets => nomatch budgets.1
            rintro ⟨e, d', refused, corrupt, -⟩
            exact conclude_code (concluded.symm.trans refused) corrupt

theorem Running.content {payload : Bytes} {j : Journal} (running : Running s d payload j) :
    d.content walFileName = some (walOf d) := by
  obtain ⟨m, held, covered, live, -, -⟩ := running
  rw [walOf, live.shows.log, Option.getD_some]

/-- A log of a session that is cut at any byte is refused exactly when a whole frame stands behind
the frames that survive the cut, whether the store repairs its log or not. An opening that succeeds
has recovered what survives. -/
theorem cut_log_refused_iff {r : Ledger} (session : Session options r s d) {n : Nat}
    (within : n ≤ (walOf d).length) (repair : Bool) (boot : Bytes) :
    (RefusesLog { options with repairTruncateCorruptTail := repair } boot
        (d.truncate walFileName n) ↔
      anyValidFrameAfter options.maxRecordBytes
          (tornEnd options.maxRecordBytes ((walOf d).take n)) = true ∧
        r.snapshot.length + 28 ≤ Limits.maxSnapshotBytes ∧ n ≤ maxWalScanBytes) ∧
      ∀ t e, execute (Store.open { options with repairTruncateCorruptTail := repair } boot)
          (d.truncate walFileName n) = (.ok t, e) →
        t.Recovers (r.survivors options.maxRecordBytes ((walOf d).take n)) := by
  have kept := session.kept
  obtain ⟨k, rests, clients⟩ := kept.rests (.cut within)
  obtain ⟨valid, same, j, running, -⟩ := kept
  have valid' : StoreOptions.Valid { options with repairTruncateCorruptTail := repair } :=
    ⟨valid.version, valid.positive, valid.small⟩
  rw [same] at rests clients
  have content := Disk.content_truncate_self running.content within
  constructor
  · obtain ⟨m, held, covered, torn, shows, cut, holding⟩ := rests
    have log := Option.some.inj (shows.log.symm.trans content)
    have behind : tornEnd options.maxRecordBytes ((walOf d).take n) = torn :=
      log ▸ tornEnd_log holding.fits cut
    have length : ((walOf d).take n).length = n := List.length_take_of_le within
    rw [behind, Holding.refusesLog_iff valid' shows holding cut boot, log, length]
    rfl
  · intro t e opening
    have lawful : k.Lawful := by
      obtain ⟨_, _, _, _, -, -, holding⟩ := rests
      exact holding.lawful
    obtain ⟨-, bytes, replayed, unfinished, -⟩ := Rests.opened valid' rests opening
    refine ⟨bytes, ?_, ?_, ?_⟩
    · rw [replayed, ← clients, Journal.history_clients]
    · rw [replayed]
      exact lawful.history_rises
    · rw [unfinished, ← clients, Journal.pending_clients]

def enclosing : Bytes := encodeFrame ⟨.cleanShutdown, flagNone, 9, 0, []⟩ ++ [0]

def cutsEnclosing : Bool :=
  match execute (Store.open .default (List.replicate 16 7)) Disk.empty with
  | (.ok s, d) =>
      match execute (s.call (.append .publishClass enclosing)) d with
      | ((.ok (.appended _), _), d) =>
          let n := (walOf d).length - 1
          anyValidFrameAfter StoreOptions.default.maxRecordBytes
              (tornEnd StoreOptions.default.maxRecordBytes ((walOf d).take n)) &&
            decide (n < (walOf d).length ∧ n ≤ maxWalScanBytes)
      | _ => false
  | _ => false

theorem cut_log_refused_iff_enclosing : ∃ r s d n, Session .default r s d ∧
    n < (walOf d).length ∧ ∀ repair boot,
      RefusesLog { StoreOptions.default with repairTruncateCorruptTail := repair } boot
        (d.truncate walFileName n) := by
  have rehearsal : cutsEnclosing = true := by decide +kernel
  unfold cutsEnclosing at rehearsal
  split at rehearsal
  case h_2 => cases rehearsal
  next s d opening =>
    split at rehearsal
    case h_2 => cases rehearsal
    next next s' d' calling =>
      simp only [Bool.and_eq_true, decide_eq_true_eq] at rehearsal
      obtain ⟨embedded, cut, small⟩ := rehearsal
      have session : Session .default _ s' d' :=
        .called (.created opening) calling (.appended rfl trivial)
      have room : ([] : Bytes).length + 28 ≤ Limits.maxSnapshotBytes := by decide
      exact ⟨_, s', d', _, session, cut, fun repair boot =>
        (cut_log_refused_iff session cut.le repair boot).1.mpr ⟨embedded, room, small⟩⟩

end QoSFabric
