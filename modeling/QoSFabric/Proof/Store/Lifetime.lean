import QoSFabric.Model.Client
import QoSFabric.Proof.Store.Compaction

namespace QoSFabric

open FileSystem Interaction

variable {options : StoreOptions} {s s' : Store} {d d' : Disk FileName} {m : Manifest}
  {held : Option Bytes} {log : Bytes} {call : StoreCall} {answer : StoreAnswer}
  {events : List StoreEvent}

/-- The events of a run, the store they leave, and its directory. -/
inductive StoreRun (options : StoreOptions) :
    List StoreEvent → Store → Disk FileName → Prop where
  | created {boot : Bytes} {s : Store} {d : Disk FileName}
      (opening : execute (Store.open options boot) Disk.empty = (.ok s, d)) :
      StoreRun options [.opened boot] s d
  | called {events : List StoreEvent} {s s' : Store} {d d' : Disk FileName} {call : StoreCall}
      {answer : StoreAnswer} (run : StoreRun options events s d)
      (calling : execute (s.call call) d = ((.ok answer, s'), d')) :
      StoreRun options (events ++ [.called call answer]) s' d'
  | reopened {events : List StoreEvent} {boot : Bytes} {s s' : Store} {d d' : Disk FileName}
      (run : StoreRun options events s d)
      (opening : execute (Store.open options boot) d = (.ok s', d')) :
      StoreRun options (events ++ [.opened boot]) s' d'

/-- The snapshot an event leaves. -/
def StoreEvent.snapshot (held : Option Bytes) : StoreEvent → Option Bytes
  | called (.writeSnapshot payload) _ => some payload
  | _ => held

def snapshotOf (events : List StoreEvent) : Option Bytes := events.foldl StoreEvent.snapshot none

theorem snapshotOf_concat (events : List StoreEvent) (event : StoreEvent) :
    snapshotOf (events ++ [event]) = event.snapshot (snapshotOf events) := by
  unfold snapshotOf
  rw [List.foldl_append]
  rfl

inductive Store.Called (s : Store) (d : Disk FileName) :
    StoreCall → StoreAnswer → Store → Disk FileName → Prop where
  | appended {type : RecordType} {payload : Bytes} {next : Sequence} {s' : Store}
      {d' : Disk FileName} (wrote : Store.Wrote s s' d d' ⟨type, flagNone, next, 0, payload⟩) :
      Called s d (.append type payload) (.appended next) s' d'
  | staged {type : RecordType} {payload : Bytes} {attempt : AttemptId} {s' : Store}
      {d' : Disk FileName}
      (wrote : Store.Wrote s s' d d' ⟨.mutationIntent, flagHasAttempt, attempt, attempt,
        intentBody type attempt payload⟩) :
      Called s d (.stage type payload) (.staged attempt) s' d'
  | committed {attempt : AttemptId} {appliedDigest : Digest256} {next : Sequence} {s' : Store}
      {d' : Disk FileName}
      (wrote : Store.Wrote s s' d d' ⟨.mutationCommit, flagHasAttempt, next, attempt,
        commitBody attempt appliedDigest⟩) :
      Called s d (.commit attempt appliedDigest) .finished s' d'
  | aborted {attempt : AttemptId} {reason : Text} {next : Sequence} {s' : Store}
      {d' : Disk FileName}
      (wrote : Store.Wrote s s' d d' ⟨.mutationAbort, flagHasAttempt, next, attempt,
        abortBody attempt reason⟩) :
      Called s d (.abort attempt reason) .finished s' d'
  | compacted {payload : Bytes} {s' : Store} {d' : Disk FileName}
      (executed : execute (s.writeSnapshot payload) d = ((.ok (), s'), d')) :
      Called s d (.writeSnapshot payload) .finished s' d'
  | adopted {storeId : Text} {d' : Disk FileName}
      (published : execute (Store.writeManifest { s with storeId }) d = (.ok (), d')) :
      Called s d (.adoptStoreIdentity storeId) .finished { s with storeId } d'
  | closed {next : Sequence} {t : Store} {d' : Disk FileName}
      (wrote : Store.Wrote s t d d' ⟨.cleanShutdown, flagNone, next, 0, []⟩) :
      Called s d .close .finished { t with walHandle := none, readOnly := true } d'
  | idle (silent : s.readOnly = true ∨ s.walHandle = none) :
      Called s d .close .finished { s with readOnly := true } d

theorem execute_answered {α : Type} {f : α → StoreAnswer} {operation : Files (Result α × Store)}
    (run : execute (answered f operation) d = ((.ok answer, s'), d')) :
    ∃ a, answer = f a ∧ execute operation d = ((.ok a, s'), d') := by
  unfold answered at run
  rw [execute_bind] at run
  cases ended : execute operation d with
  | mk outcome e =>
      obtain ⟨result, t⟩ := outcome
      rw [ended] at run
      cases result with
      | error failure => cases run
      | ok a =>
          cases run
          exact ⟨a, rfl, rfl⟩

theorem Store.called_of_execute (small : s.options.maxRecordBytes ≤ Limits.maxWalRecordBytes)
    (calling : execute (s.call call) d = ((.ok answer, s'), d')) :
    s.Called d call answer s' d' := by
  cases call with
  | append type payload =>
      obtain ⟨next, rfl, run⟩ := execute_answered calling
      rcases execute_append small run with ⟨-, -, failure, failed⟩ | ⟨_, succeeded, wrote⟩
      · cases failed
      · cases succeeded
        exact .appended wrote
  | stage type payload =>
      obtain ⟨attempt, rfl, run⟩ := execute_answered calling
      rcases execute_stage small run with ⟨-, -, failure, failed⟩ | ⟨_, succeeded, wrote⟩
      · cases failed
      · cases succeeded
        exact .staged wrote
  | commit attempt appliedDigest =>
      obtain ⟨_, rfl, run⟩ := execute_answered calling
      rcases execute_commit small run with ⟨-, -, failure, failed⟩ | ⟨_, -, wrote⟩
      · cases failed
      · exact .committed wrote
  | abort attempt reason =>
      obtain ⟨_, rfl, run⟩ := execute_answered calling
      rcases execute_abort small run with ⟨-, -, failure, failed⟩ | ⟨_, -, wrote⟩
      · cases failed
      · exact .aborted wrote
  | writeSnapshot payload =>
      obtain ⟨_, rfl, run⟩ := execute_answered calling
      exact .compacted run
  | adoptStoreIdentity storeId =>
      obtain ⟨_, rfl, run⟩ := execute_answered calling
      unfold Store.adoptStoreIdentity at run
      cases published : execute (Store.writeManifest { s with storeId }) d with
      | mk result e =>
          rw [execute_bind, published] at run
          cases run
          exact .adopted published
  | close =>
      obtain ⟨_, rfl, run⟩ := execute_answered calling
      unfold Store.close at run
      split at run
      next readOnly =>
        cases run
        have idle : s.Called d .close .finished { s with readOnly := true } d := .idle (.inl readOnly)
        rwa [← readOnly] at idle
      split at run
      next unopened =>
        cases run
        exact .idle (.inr unopened)
      cases appended : execute (s.appendFrame .cleanShutdown flagNone 0 []) d with
      | mk outcome e =>
          rw [execute_bind, appended] at run
          obtain ⟨result, t⟩ := outcome
          rcases execute_appendFrame small appended with
            ⟨-, -, failure, rfl⟩ | ⟨next, rfl, wrote⟩
          · cases run
          · cases run
            exact .closed wrote

theorem Attached.adopted {storeId : Text} (attached : Attached s d m held log)
    (published : execute (Store.writeManifest { s with storeId }) d = (.ok (), d')) :
    Attached { s with storeId } d' (Store.manifest { s with storeId }) held log := by
  have relabelled : Attached { s with storeId } d m held log :=
    ⟨attached.shows, attached.valid, attached.handle, attached.walBytes, attached.path,
      attached.sequence, attached.recorded⟩
  have weakest : (Store.writeManifest { s with storeId }).wp Disk.world (fun _ => True)
      (fun _ e => Attached { s with storeId } e _ held log) d :=
    Live.wp_writeManifest relabelled.sound_manifest (fun _ _ => trivial)
      fun e replaced => ⟨trivial, relabelled.replaced_manifest replaced⟩
  have done := Program.wp_run weakest
  rwa [show Program.run Disk.answer (Store.writeManifest { s with storeId }) d = _
    from published] at done

theorem Attached.compacted {payload : Bytes} (attached : Attached s d m held log)
    (executed : execute (s.writeSnapshot payload) d = ((.ok (), s'), d')) :
    s'.options = s.options ∧ Attached s' d' s.compacted.manifest (some payload) [] := by
  have small : payload.length ≤ Limits.maxSnapshotBytes := by
    by_contra large
    unfold Store.writeSnapshot at executed
    rw [if_pos (Nat.not_le.mp large)] at executed
    cases executed
  have weakest : (s.writeSnapshot payload).wp Disk.world (fun _ => True)
      (fun outcome e => outcome.2.options = s.options ∧
        Attached outcome.2 e s.compacted.manifest (some payload) []) d := by
    apply attached.shows.wp_writeSnapshot attached.path small
      ⟨fun _ _ => trivial, fun _ _ _ => trivial, fun _ _ => trivial, fun _ _ => trivial⟩
    intro handle e file shows
    refine ⟨rfl, shows, attached.valid, ?_, rfl, rfl, rfl, UInt64.le_refl _⟩
    intro other opened
    exact Option.some.inj opened ▸ file
  have done := Program.wp_run weakest
  rwa [show Program.run Disk.answer (s.writeSnapshot payload) d = _ from executed] at done

theorem Attached.called (attached : Attached s d m held log)
    (called : s.Called d call answer s' d') :
    s'.options = s.options ∧
      ∃ m' log', Attached s' d' m' (StoreEvent.snapshot held (.called call answer)) log' := by
  have appends {f : Frame} {t : Store} {e : Disk FileName} (wrote : Store.Wrote s t d e f) :
      t.options = s.options ∧ ∃ m' log', Attached t e m' held log' := by
    refine ⟨?_, m, _, attached.wrote wrote⟩
    rw [wrote.members]
  cases called with
  | appended wrote => exact appends wrote
  | staged wrote => exact appends wrote
  | committed wrote => exact appends wrote
  | aborted wrote => exact appends wrote
  | compacted executed =>
      obtain ⟨same, compacted⟩ := attached.compacted executed
      exact ⟨same, _, _, compacted⟩
  | adopted published => exact ⟨rfl, _, _, attached.adopted published⟩
  | @closed _ t _ wrote =>
      obtain ⟨same, m', log', attached⟩ := appends wrote
      exact ⟨same, m', log', attached.shows, attached.valid, nofun,
        attached.walBytes, attached.path, attached.sequence, attached.recorded⟩
  | idle silent =>
      exact ⟨rfl, m, log, attached.shows, attached.valid, attached.handle, attached.walBytes,
        attached.path, attached.sequence, attached.recorded⟩

theorem valid_of_open {boot : Bytes}
    (opening : execute (Store.open options boot) d = (.ok s, d')) : options.Valid := by
  unfold Store.open at opening
  split at opening
  · cases opening
  next version =>
    split at opening
    · cases opening
    next record =>
      rw [not_or] at record
      exact ⟨not_not.mp version, Nat.pos_of_ne_zero record.1, Nat.not_lt.mp record.2⟩

theorem StoreRun.attached (run : StoreRun options events s d) :
    options.Valid ∧ s.options = options ∧
      ∃ m log, Attached s d m (snapshotOf events) log := by
  induction run with
  | created opening =>
      have valid := valid_of_open opening
      have created := created_of_empty valid opening
      exact ⟨valid, created.same_options, _, _, created.live.attached⟩
  | called run calling ih =>
      obtain ⟨valid, same, m, log, attached⟩ := ih
      have called := Store.called_of_execute attached.valid.small calling
      obtain ⟨same', m', log', attached'⟩ := attached.called called
      rw [snapshotOf_concat]
      exact ⟨valid, same'.trans same, m', log', attached'⟩
  | reopened run opening ih =>
      obtain ⟨valid, -, m, log, attached⟩ := ih
      obtain ⟨m', header, reopened⟩ := reopened_of_open valid attached.shows opening
      rw [snapshotOf_concat]
      exact ⟨valid, reopened.same_options, m', _, reopened.live.attached⟩

end QoSFabric
