import QoSFabric.Proof.Store.Lifetime
import QoSFabric.Proof.Store.Capacity

/-!
# Read budgets

A snapshot is written when its payload is within the budget, and read when its file is, which is
longer by the envelope. The log grows to the budget of the options, and is read within a constant.
-/

namespace QoSFabric

open FileSystem Interaction

variable {options : StoreOptions} {s : Store} {d : Disk FileName} {m : Manifest}
  {held : Option Bytes} {log : Bytes} {events : List StoreEvent}

def TooLarge {α : Type} (result : Result α) : Prop := ∃ e, result = .error e ∧ e.code = .tooLarge

/-- A later open with the same options finds nothing too large: neither when it follows the manifest
nor when it rebuilds it from the same snapshot and log. -/
structure ReadsBack (options : StoreOptions) (d : Disk FileName) : Prop where
  loads : ∀ s, (execute (Store.fresh options).loadManifest d).1 = .ok s →
    ¬TooLarge (execute s.loadSnapshot d).1
  replays : ∀ s : Store, ¬TooLarge (execute s.replayLog d).1
  rebuilds : ∀ s, (execute (Store.fresh options).loadManifest d).1 = .ok s →
    ∀ path ∈ s.snapshotPath,
      (execute (Store.bestSnapshot [path] none) d).1 = some (s.snapshotSequence, path)
  rescans : ¬TooLarge (execute (readFile walFileName maxWalScanBytes) d).1

theorem not_tooLarge_ok {α : Type} {a : α} : ¬TooLarge (.ok a : Result α) := by
  rintro ⟨e, failed, -⟩
  cases failed

theorem tooLarge_makeError {α : Type} {detail : String} :
    TooLarge (.error (makeError .tooLarge detail) : Result α) := ⟨_, rfl, rfl⟩

theorem rescans_iff (content : d.content walFileName = some log) :
    ¬TooLarge (execute (readFile walFileName maxWalScanBytes) d).1 ↔
      log.length ≤ maxWalScanBytes := by
  rw [execute_readFile content]
  split
  next large => exact iff_of_false (not_not.mpr tooLarge_makeError) (Nat.not_le.mpr large)
  next small => exact iff_of_true not_tooLarge_ok (Nat.not_lt.mp small)

theorem not_tooLarge_readLog : ¬TooLarge (s.readLog log) := by
  rintro ⟨e, failed, large⟩
  unfold Store.readLog at failed
  dsimp only at failed
  split at failed
  · cases failed
  · split at failed
    · cases failed
      cases large
    · cases failed

theorem replays_iff (content : d.content walFileName = some log) :
    ¬TooLarge (execute s.replayLog d).1 ↔ log.length ≤ maxWalScanBytes := by
  rw [Store.execute_replayLog s content]
  split
  next large => exact iff_of_false (not_not.mpr tooLarge_makeError) (Nat.not_le.mpr large)
  next small =>
    refine iff_of_true ?_ (Nat.not_lt.mp small)
    have read := @not_tooLarge_readLog s log
    split
    next e failed =>
      rintro ⟨_, ⟨⟩, large⟩
      exact read ⟨e, failed, large⟩
    · exact not_tooLarge_ok
    · exact not_tooLarge_ok

section Snapshots

variable (shows : Shows d m held log)
  (path : s.snapshotPath = held.map fun _ => snapshotFileName m.snapshotSequence)
  (sequence : s.snapshotSequence = m.snapshotSequence)
include shows path sequence

theorem loads_iff : ¬TooLarge (execute s.loadSnapshot d).1 ↔
    ∀ payload ∈ held, payload.length + 28 ≤ Limits.maxSnapshotBytes := by
  rw [Store.execute_loadSnapshot shows path sequence]
  cases held with
  | none => exact iff_of_true not_tooLarge_ok nofun
  | some payload =>
      unfold Store.withSnapshot
      simp only [Option.mem_some_iff, forall_eq']
      split
      next large =>
        refine iff_of_false (not_not.mpr tooLarge_makeError) ?_
        rw [Nat.add_comm]
        exact Nat.not_le.mpr large
      next small =>
        refine iff_of_true not_tooLarge_ok ?_
        rw [Nat.add_comm]
        exact Nat.not_lt.mp small

theorem rebuilds_iff : (∀ name ∈ s.snapshotPath,
      (execute (Store.bestSnapshot [name] none) d).1 = some (s.snapshotSequence, name)) ↔
    ∀ payload ∈ held, payload.length + 28 ≤ Limits.maxSnapshotBytes := by
  rw [path, sequence]
  cases held with
  | none => exact iff_of_true nofun nofun
  | some payload =>
      obtain ⟨name, small, content⟩ := shows.named payload rfl
      rw [name] at content
      simp only [Option.map_some, Option.mem_some_iff, forall_eq']
      unfold Store.bestSnapshot
      rw [snapshotNameSequence_snapshotFileName]
      dsimp only
      rw [execute_bind, execute_readFile content, length_snapshotFile]
      split
      next large =>
        split at large
        next exceeds => exact iff_of_false nofun (by omega)
        next => cases large
      next bytes within =>
        split at within
        next => cases within
        next fits =>
          obtain rfl := Except.ok.inj within
          rw [decodeSnapshot_snapshotFile _ small]
          dsimp only
          rw [if_neg (not_not.mpr rfl)]
          exact iff_of_true rfl (by omega)

end Snapshots

/-- In every state of a run the read budgets accept what has been written exactly when the last
snapshot leaves room for its envelope and the log is no longer than what is scanned. -/
theorem read_budgets_agree_iff (run : StoreRun options events s d) :
    ReadsBack options d ↔
      (∀ payload ∈ snapshotOf events, payload.length + 28 ≤ Limits.maxSnapshotBytes) ∧
        s.walBytes.toNat ≤ maxWalScanBytes := by
  obtain ⟨valid, -, m, log, attached⟩ := run.attached
  have shows := attached.shows
  have loaded := Store.execute_loadManifest valid shows
  have path := Store.adopt_snapshotPath (Store.fresh options) shows
  rw [attached.walBytes]
  constructor
  · rintro ⟨loads, replays, -, -⟩
    refine ⟨(loads_iff shows path rfl).mp (loads _ ?_), (replays_iff shows.log).mp (replays s)⟩
    rw [loaded]
  · rintro ⟨snapshot, scanned⟩
    refine ⟨?_, fun s => (replays_iff shows.log).mpr scanned, ?_, (rescans_iff shows.log).mpr scanned⟩
    · intro t adopted
      rw [loaded] at adopted
      obtain rfl := Except.ok.inj adopted
      exact (loads_iff shows path rfl).mpr snapshot
    · intro t adopted
      rw [loaded] at adopted
      obtain rfl := Except.ok.inj adopted
      exact (rebuilds_iff shows path rfl).mpr snapshot

theorem exists_compacted {payload : Bytes} (small : payload.length ≤ Limits.maxSnapshotBytes) :
    ∃ events s d, StoreRun StoreOptions.default events s d ∧ snapshotOf events = some payload ∧
      s.Ready ∧ s.options = StoreOptions.default ∧ s.lastSequence = 1 ∧ s.walBytes = 0 := by
  have opens : (execute (Store.open StoreOptions.default (List.replicate 16 7))
      Disk.empty).1.toBool = true := by decide +kernel
  cases opening : execute (Store.open StoreOptions.default (List.replicate 16 7)) Disk.empty with
  | mk result d =>
      rw [opening] at opens
      cases result with
      | error e => cases opens
      | ok s =>
          have created := created_of_empty (valid_of_open opening) opening
          have weakest : (s.writeSnapshot payload).wp Disk.world (fun _ => True)
              (fun outcome _ => ∃ handle, outcome =
                (.ok (), { s.compacted with walHandle := some handle, walBytes := 0 })) d :=
            created.live.attached.shows.wp_writeSnapshot created.live.attached.path small
              ⟨fun _ _ => trivial, fun _ _ _ => trivial, fun _ _ => trivial, fun _ _ => trivial⟩
              fun handle _ _ _ => ⟨handle, rfl⟩
          have done := Program.wp_run weakest
          cases written : execute (s.writeSnapshot payload) d with
          | mk outcome d' =>
              rw [show Program.run Disk.answer _ d = _ from written] at done
              obtain ⟨handle, rfl⟩ := done
              have calling : execute (s.call (.writeSnapshot payload)) d = ((.ok .finished,
                  { s.compacted with walHandle := some handle, walBytes := 0 }), d') := by
                unfold Store.call answered
                rw [execute_bind, written]
                rfl
              exact ⟨_, _, d', (StoreRun.created opening).called calling, snapshotOf_concat _ _,
                ⟨created.live.writable, handle, rfl⟩, created.same_options, created.lastSequence, rfl⟩

theorem exists_largest : ∃ options events s d payload, StoreRun options events s d ∧
    snapshotOf events = some payload ∧ payload.length = Limits.maxSnapshotBytes := by
  obtain ⟨payload, length⟩ : ∃ payload : Bytes, payload.length = Limits.maxSnapshotBytes :=
    ⟨List.replicate _ 0, List.length_replicate⟩
  obtain ⟨events, s, d, run, last, -⟩ := exists_compacted length.le
  exact ⟨_, events, s, d, payload, run, last, length⟩

/-- A snapshot that has been accepted is too large to be read. -/
theorem largest_snapshot_unread : ¬∀ options events s d, StoreRun options events s d →
    ReadsBack options d := by
  intro agrees
  obtain ⟨options, events, s, d, payload, run, last, length⟩ := exists_largest
  have fits := ((read_budgets_agree_iff run).mp (agrees options events s d run)).1 payload last
  rw [length] at fits
  omega

theorem read_budgets_agree_iff_largest : ∃ options events s d payload,
    StoreRun options events s d ∧ snapshotOf events = some payload ∧
    payload.length = Limits.maxSnapshotBytes ∧
    (ReadsBack options d ↔
      (∀ payload ∈ snapshotOf events, payload.length + 28 ≤ Limits.maxSnapshotBytes) ∧
        s.walBytes.toNat ≤ maxWalScanBytes) := by
  obtain ⟨options, events, s, d, payload, run, last, length⟩ := exists_largest
  exact ⟨options, events, s, d, payload, run, last, length, read_budgets_agree_iff run⟩

end QoSFabric
