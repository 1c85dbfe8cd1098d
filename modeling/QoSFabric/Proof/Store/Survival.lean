import QoSFabric.Proof.Store.Frames
import QoSFabric.Proof.Store.Opening

/-!
# What survives a crash

The clients of a store journal entries, and a crash cuts the log anywhere or falls inside a
compaction. The next opening recovers the entries whose frames survive, behind the snapshot that the
manifest references.
-/

namespace QoSFabric

open FileSystem Interaction

/-! ## The entries of clients -/

def Entry.silent : Entry → Bool
  | .append type _ => type.silent
  | _ => false

namespace Journal

variable {j k : Journal} {attempt : AttemptId} {maxRecordBytes : Nat} {log : Bytes}

def clients (j : Journal) : Journal := j.filter fun x => !x.2.silent

/-- The entries whose frames stand whole in a log. -/
def survivors (maxRecordBytes : Nat) (log : Bytes) (j : Journal) : Journal :=
  j.filter fun x => x.2.frame x.1 ∈ (framesOf maxRecordBytes log).map Prod.fst

theorem clients_append (j k : Journal) : (j ++ k).clients = j.clients ++ k.clients :=
  List.filter_append ..

theorem staged_of_silent {e : Entry} (silent : e.silent = true) : e.staged = none := by
  cases e with
  | append type payload => rfl
  | stage type payload => cases silent
  | commit attempt appliedDigest => cases silent
  | abort attempt reason => cases silent

theorem resolves_of_silent {e : Entry} (silent : e.silent = true) : e.resolves = none := by
  cases e with
  | append type payload => rfl
  | stage type payload => cases silent
  | commit attempt appliedDigest => cases silent
  | abort attempt reason => cases silent

theorem stagedUnder_clients (j : Journal) (attempt : AttemptId) :
    j.clients.stagedUnder attempt = j.stagedUnder attempt := by
  induction j with
  | nil => rfl
  | cons x j ih =>
      unfold clients stagedUnder at ih ⊢
      cases silent : x.2.silent with
      | true =>
          have nothing : (if x.1 = attempt then x.2.staged else none) = none := by
            rw [staged_of_silent silent, ite_self]
          rw [List.filter_cons_of_neg (by rw [silent]; exact Bool.false_ne_true), ih,
            List.findSome?_cons, nothing]
      | false =>
          rw [List.filter_cons_of_pos (by rw [silent]; rfl), List.findSome?_cons,
            List.findSome?_cons, ih]

theorem resolved_clients (j : Journal) (attempt : AttemptId) :
    j.clients.resolved attempt = j.resolved attempt := by
  unfold resolved clients
  rw [List.any_filter]
  congr 1
  funext x
  cases silent : x.2.silent with
  | true => rw [resolves_of_silent silent]; rfl
  | false => rfl

theorem record_of_silent {x : Sequence × Entry} (silent : x.2.silent = true) :
    j.record x = none := by
  obtain ⟨sequence, e⟩ := x
  cases e with
  | append type payload => exact if_pos silent
  | stage type payload => rfl
  | commit attempt appliedDigest => cases silent
  | abort attempt reason => rfl

theorem record_clients (j : Journal) (x : Sequence × Entry) : j.clients.record x = j.record x := by
  obtain ⟨sequence, e⟩ := x
  cases e with
  | commit attempt appliedDigest => rw [record, record, stagedUnder_clients]
  | append type payload => rfl
  | stage type payload => rfl
  | abort attempt reason => rfl

theorem history_clients (j : Journal) : j.clients.history = j.history := by
  unfold history
  rw [clients, List.filterMap_filter]
  refine List.filterMap_congr fun x _ => ?_
  split
  · exact record_clients j x
  · next silent => exact (record_of_silent (by simpa using silent)).symm

theorem pending_clients (j : Journal) : j.clients.pending = j.pending := by
  unfold pending
  have resolved : j.clients.resolved = j.resolved := funext j.resolved_clients
  rw [resolved, clients, List.filterMap_filter]
  refine List.filterMap_congr fun x _ => ?_
  split
  · rfl
  · next silent =>
      rw [staged_of_silent (by simpa using silent), Option.map_none, ite_self]

theorem Lawful.of_append (lawful : Lawful (j ++ k)) : Lawful j := by
  induction k using List.reverseRecOn with
  | nil => exact List.append_nil j ▸ lawful
  | append_singleton k x ih =>
      rw [← List.append_assoc] at lawful
      exact ih lawful.last.1

theorem Lawful.history_front (lawful : Lawful (j ++ k)) : j.history <+: history (j ++ k) := by
  induction k using List.reverseRecOn with
  | nil => rw [List.append_nil]
  | append_singleton k x ih =>
      rw [← List.append_assoc] at lawful ⊢
      have before := lawful.of_append
      rw [before.history_snoc]
      exact (ih before).trans (List.prefix_append _ _)

theorem Lawful.rises (lawful : Lawful j) : (j.map Prod.fst).Pairwise (· < ·) := by
  induction lawful with
  | nil => exact .nil
  | snoc _ later _ ih =>
      rw [List.map_append, List.pairwise_append]
      refine ⟨ih, List.pairwise_singleton _ _, ?_⟩
      intro a mem b last
      obtain ⟨x, inside, rfl⟩ := List.mem_map.mp mem
      rw [List.map_singleton, List.mem_singleton] at last
      exact last ▸ later x inside

theorem record_sequence {x : Sequence × Entry} {r : LogRecord} (counts : j.record x = some r) :
    r.sequence = x.1 := by
  obtain ⟨sequence, e⟩ := x
  cases e with
  | append type payload =>
      have counts : (if type.silent then none else some ⟨type, sequence, payload⟩) = some r := counts
      split at counts
      · cases counts
      · cases counts
        rfl
  | stage type payload => cases counts
  | commit attempt appliedDigest =>
      obtain ⟨staged, -, rfl⟩ := Option.map_eq_some_iff.mp counts
      rfl
  | abort attempt reason => cases counts

theorem Lawful.history_rises (lawful : Lawful j) :
    (j.history.map LogRecord.sequence).Pairwise (· < ·) := by
  refine lawful.rises.sublist ?_
  unfold history
  have sequenced : ∀ x r, j.record x = some r → r.sequence = x.1 := fun _ _ => record_sequence
  generalize j.record = count at sequenced
  clear lawful
  induction j with
  | nil => exact List.Sublist.refl _
  | cons x j ih =>
      cases counts : count x with
      | none =>
          rw [List.filterMap_cons_none counts]
          exact ih.cons _
      | some r =>
          rw [List.filterMap_cons_some counts, List.map_cons, List.map_cons, sequenced x r counts]
          exact ih.cons_cons _

theorem Lawful.survivors_eq {covered : List Frame} {bound : Sequence} (lawful : Lawful (j ++ k))
    (before : ∀ f ∈ covered, f.sequence ≤ bound) (after : ∀ x ∈ j ++ k, bound < x.1)
    (kept : (framesOf maxRecordBytes log).map Prod.fst = covered ++ j.frames) :
    survivors maxRecordBytes log (j ++ k) = j := by
  have first : ∀ x ∈ j, decide (x.2.frame x.1 ∈ covered ++ j.frames) = true := by
    intro x mem
    rw [decide_eq_true_eq]
    exact List.mem_append_right _ (List.mem_map_of_mem mem)
  have rest : ∀ x ∈ k, ¬decide (x.2.frame x.1 ∈ covered ++ j.frames) = true := by
    intro x mem
    have whole : x ∈ j ++ k := List.mem_append_right _ mem
    rw [decide_eq_true_eq, List.mem_append]
    rintro (old | lost)
    · have le := before _ old
      rw [Entry.frame_sequence] at le
      exact absurd (after x whole) (UInt64.not_lt.mpr le)
    · obtain ⟨y, inside, same⟩ := List.mem_map.mp lost
      have sequence := congrArg Frame.sequence same
      rw [Entry.frame_sequence, Entry.frame_sequence] at sequence
      have rises := lawful.rises
      rw [List.map_append, List.pairwise_append] at rises
      have lt := rises.2.2 y.1 (List.mem_map_of_mem inside) x.1 (List.mem_map_of_mem mem)
      exact UInt64.ne_of_lt lt sequence
  unfold survivors
  rw [kept, List.filter_append, List.filter_eq_self.mpr first, List.filter_eq_nil_iff.mpr rest,
    List.append_nil]

theorem clients_survivors (j : Journal) :
    (survivors maxRecordBytes log j).clients = survivors maxRecordBytes log j.clients :=
  List.filter_comm ..

end Journal

/-! ## What a directory holds -/

section Directory

variable {options : StoreOptions} {s s' t : Store} {d d' e : Disk FileName} {m m' : Manifest}
  {held held' : Option Bytes} {log log' payload payload' boot : Bytes} {k : Journal}

theorem Shows.unique (shows : Shows d m held log) (shows' : Shows d m' held' log') :
    m' = m ∧ held' = held := by
  have same : m'.file = m.file := Option.some.inj (shows'.manifest.symm.trans shows.manifest)
  have decoded := decodeManifest_file shows.sound
  rw [← same, decodeManifest_file shows'.sound] at decoded
  obtain rfl := Except.ok.inj decoded
  refine ⟨rfl, ?_⟩
  cases none : held with
  | none =>
      cases some : held' with
      | none => rfl
      | some payload =>
          obtain ⟨name, -, -⟩ := shows'.named payload some
          rw [shows.unnamed none] at name
          exact absurd name.symm (Store.snapshotFileName_ne_nil _)
  | some payload =>
      obtain ⟨name, small, content⟩ := shows.named payload none
      cases some : held' with
      | none =>
          rw [shows'.unnamed some] at name
          exact absurd name.symm (Store.snapshotFileName_ne_nil _)
      | some payload' =>
          obtain ⟨-, small', content'⟩ := shows'.named payload' some
          have files := Option.some.inj (content'.symm.trans content)
          have read := decodeSnapshot_snapshotFile m'.snapshotSequence small
          rw [← files, decodeSnapshot_snapshotFile _ small'] at read
          rw [(Prod.mk.inj (Except.ok.inj read)).2]

theorem frames_front {covered kept rest : List Frame} {k : Journal}
    (whole : covered ++ k.frames = kept ++ rest) :
    ∃ covered' j lost, k = j ++ lost ∧ kept = covered' ++ j.frames ∧ (∀ f ∈ covered', f ∈ covered) ∧
      (rest = [] → lost = []) := by
  rcases List.append_eq_append_iff.mp whole.symm with ⟨more, eq, behind⟩ | ⟨more, rfl, eq⟩
  · refine ⟨kept, [], k, rfl, (List.append_nil _).symm, ?_, ?_⟩
    · intro f mem
      rw [eq]
      exact List.mem_append_left _ mem
    · rintro rfl
      exact List.map_eq_nil_iff.mp (List.append_eq_nil_iff.mp behind.symm).2
  · obtain ⟨j, lost, rfl, rfl, rfl⟩ := List.map_eq_append_iff.mp eq
    exact ⟨covered, j, lost, rfl, rfl, fun f mem => mem, List.map_eq_nil_iff.mp⟩

theorem Holding.front {small large : Nat} {covered covered' : List Frame} {j lost : Journal}
    (holding : Holding large m held covered payload (j ++ lost)) (before : ∀ f ∈ covered', f ∈ covered)
    (fits : ∀ f ∈ covered' ++ j.frames, f.Fits small) :
    Holding small m held covered' payload j where
  held := holding.held
  fits := fits
  before f mem := holding.before f (before f mem)
  after x mem := holding.after x (List.mem_append_left _ mem)
  lawful := holding.lawful.of_append
  recorded := holding.recorded

theorem Running.rests_truncate (running : Running s d payload k) {n : Nat}
    (within : n ≤ (walOf d).length) :
    Rests s.options.maxRecordBytes (d.truncate walFileName n) payload
      (k.survivors s.options.maxRecordBytes ((walOf d).take n)) := by
  obtain ⟨m, held, covered, live, holding, -⟩ := running
  have shown : walOf d = (walFormat s.options.maxRecordBytes).log (covered ++ k.frames) := by
    rw [walOf, live.shows.log, Option.getD_some]
  have cut := (walFormat s.options.maxRecordBytes).take_log n (covered ++ k.frames)
  have torn := (walFormat s.options.maxRecordBytes).tornPart_torn (n := n) holding.fits
  obtain ⟨lost, whole⟩ := (walFormat s.options.maxRecordBytes).survivors_isPrefix n
    (covered ++ k.frames)
  have shows := live.shows.cut (shown ▸ within)
  rw [shown]
  generalize (walFormat s.options.maxRecordBytes).survivors n (covered ++ k.frames) = kept at *
  generalize (walFormat s.options.maxRecordBytes).tornPart n (covered ++ k.frames) = behind at *
  have fits : ∀ f ∈ kept, f.Fits s.options.maxRecordBytes :=
    fun f mem => holding.fits f (whole ▸ List.mem_append_left _ mem)
  have frames : (framesOf s.options.maxRecordBytes
      (((walFormat s.options.maxRecordBytes).log (covered ++ k.frames)).take n)).map Prod.fst =
        kept := by
    rw [cut]
    refine (walFormat s.options.maxRecordBytes).frames_log fits torn.unframed ?_
    rw [List.length_append]
    exact Nat.le_add_right_of_le ((walFormat s.options.maxRecordBytes).length_le_log kept)
  obtain ⟨covered', j, rest, rfl, rfl, before, -⟩ := frames_front whole.symm
  have survive := holding.lawful.survivors_eq (fun f mem => holding.before f (before f mem))
    holding.after frames
  rw [survive]
  refine ⟨m, held, covered', behind, ?_, torn, holding.front before fits⟩
  rw [← cut]
  exact shows

theorem Running.survivors_self (running : Running s d payload k) :
    k.survivors s.options.maxRecordBytes (walOf d) = k := by
  obtain ⟨m, held, covered, live, holding, -⟩ := running
  have shown : walOf d = (walFormat s.options.maxRecordBytes).log (covered ++ k.frames) := by
    rw [walOf, live.shows.log, Option.getD_some]
  have frames := (walFormat s.options.maxRecordBytes).frames_log holding.fits (Framing.Format.Torn.unframed (.inl rfl))
    ((walFormat s.options.maxRecordBytes).length_le_log _)
  rw [List.append_nil, ← shown] at frames
  have lawful : Journal.Lawful (k ++ []) := (List.append_nil k).symm ▸ holding.lawful
  have survive := lawful.survivors_eq holding.before
    (fun x mem => holding.after x (List.append_nil k ▸ mem)) frames
  rwa [List.append_nil] at survive

theorem Rests.opened (valid : options.Valid) (rests : Rests options.maxRecordBytes e payload k)
    (opening : execute (Store.open options boot) e = (.ok t, d')) :
    t.options = options ∧ t.snapshotBytes = payload ∧ t.replayed = k.history ∧
      t.recovery.unfinishedIntents = k.pending.length ∧
      ∃ header : Journal, header.clients = [] ∧ Running t d' payload (k ++ header) := by
  have weakest : (Store.open options boot).wp Disk.world (fun _ => True)
      (fun result d' => ∀ t, result = .ok t → t.options = options ∧ t.snapshotBytes = payload ∧
        t.replayed = k.history ∧ t.recovery.unfinishedIntents = k.pending.length ∧
        ∃ header : Journal, header.clients = [] ∧ Running t d' payload (k ++ header)) e := by
    apply rests.wp_open valid
    refine ⟨fun _ _ => trivial, fun _ _ _ => trivial, ?_, ?_⟩
    · intro failure e _ t failed
      cases failed
    intro s e header running same bytes replayed unfinished minted t opened
    obtain rfl := Except.ok.inj opened
    refine ⟨same, bytes, replayed, unfinished, header, ?_, running⟩
    rcases minted with rfl | ⟨next, rfl⟩
    · rfl
    · rfl
  have done := Program.wp_run weakest
  rw [show Program.run Disk.answer (Store.open options boot) e = _ from opening] at done
  exact done t rfl

end Directory

/-! ## Runs and crashes -/

/-- What the clients of a store have been acknowledged: the snapshot they wrote last, the records it
stands for, and the entries behind it. -/
structure Ledger where
  past : List LogRecord
  snapshot : Bytes
  journal : Journal

namespace Ledger

def empty : Ledger := ⟨[], [], []⟩

/-- The records of a ledger, in order. -/
def records (r : Ledger) : List LogRecord := r.past ++ r.journal.history

def add (r : Ledger) (sequence : Sequence) (e : Entry) : Ledger :=
  { r with journal := r.journal ++ [(sequence, e)] }

def compacted (r : Ledger) (snapshot : Bytes) : Ledger := ⟨r.records, snapshot, []⟩

/-- What a cut of the log leaves. -/
def survivors (maxRecordBytes : Nat) (log : Bytes) (r : Ledger) : Ledger :=
  { r with journal := r.journal.survivors maxRecordBytes log }

/-- What a call that succeeds enters, with the last sequence behind it. Commits and aborts are of
attempts that are staged and unresolved, and no attempt is in flight when a snapshot is written. -/
inductive Enters (r : Ledger) (last : Sequence) : StoreCall → StoreAnswer → Ledger → Prop where
  | appended {type : RecordType} {payload : Bytes} {next : Sequence} (client : type.silent = false)
      (wellFormed : type.WellFormed payload) :
      Enters r last (.append type payload) (.appended next) (r.add next (.append type payload))
  | staged {type : RecordType} {payload : Bytes} {attempt : AttemptId} :
      Enters r last (.stage type payload) (.staged attempt) (r.add attempt (.stage type payload))
  | committed {attempt : AttemptId} {appliedDigest : Digest256}
      (pending : ∃ staged, (attempt, staged) ∈ r.journal.pending) :
      Enters r last (.commit attempt appliedDigest) .finished
        (r.add last (.commit attempt appliedDigest))
  | aborted {attempt : AttemptId} {reason : Text}
      (pending : ∃ staged, (attempt, staged) ∈ r.journal.pending) :
      Enters r last (.abort attempt reason) .finished (r.add last (.abort attempt reason))
  | compacted {snapshot : Bytes} (settled : r.journal.pending = []) :
      Enters r last (.writeSnapshot snapshot) .finished (r.compacted snapshot)

def Referenced (j : Journal) (d : Disk FileName) (r : Ledger) : Prop :=
  ∃ m held log, Shows d m held log ∧ held.getD [] = r.snapshot ∧
    ∀ x ∈ j, x ∈ r.journal ↔ m.snapshotSequence < x.1

/-- A crash cuts the log at an offset or falls inside a compaction: the directory it leaves, and what
of the ledger is in it. -/
inductive Crash (s : Store) (d : Disk FileName) (r : Ledger) : Disk FileName → Ledger → Prop where
  | cut {n : Nat} (within : n ≤ (walOf d).length) :
      Crash s d r (d.truncate walFileName n)
        (r.survivors s.options.maxRecordBytes ((walOf d).take n))
  | compacting {snapshot : Bytes} {e : Disk FileName} {r' : Ledger}
      (settled : r.journal.pending = [])
      (crashed : (s.writeSnapshot snapshot).Crashes Disk.world d e)
      (either : r' = r ∨ r' = r.compacted snapshot) (referenced : Referenced r.journal e r') :
      Crash s d r e r'

end Ledger

/-- A store is created in an empty directory, called, and opened again behind crashes. -/
inductive Session (options : StoreOptions) : Ledger → Store → Disk FileName → Prop where
  | created {boot : Bytes} {s : Store} {d : Disk FileName}
      (opening : execute (Store.open options boot) Disk.empty = (.ok s, d)) :
      Session options .empty s d
  | called {r r' : Ledger} {s s' : Store} {d d' : Disk FileName} {call : StoreCall}
      {answer : StoreAnswer} (session : Session options r s d)
      (calling : execute (s.call call) d = ((.ok answer, s'), d'))
      (enters : r.Enters s'.lastSequence call answer r') : Session options r' s' d'
  | recovered {r r' : Ledger} {boot : Bytes} {s s' : Store} {d e d' : Disk FileName}
      (session : Session options r s d) (crash : Ledger.Crash s d r e r')
      (opening : execute (Store.open options boot) e = (.ok s', d')) : Session options r' s' d'

/-- What an opened store has recovered: the snapshot of a ledger and the records behind it, each once,
and how many attempts are neither committed nor aborted. -/
structure Store.Recovers (t : Store) (r : Ledger) : Prop where
  snapshot : t.snapshotBytes = r.snapshot
  replayed : t.replayed = r.journal.history
  once : (t.replayed.map LogRecord.sequence).Pairwise (· < ·)
  unfinished : t.recovery.unfinishedIntents = r.journal.pending.length

/-! ## What a run keeps -/

theorem Store.Wrote.short_stage {s s' : Store} {d d' : Disk FileName} {type : RecordType}
    {payload : Bytes} {attempt : AttemptId}
    (wrote : Store.Wrote s s' d d' ((Entry.stage type payload).frame attempt)) :
    payload.length < 2 ^ 32 := by
  have fits := wrote.planned.fits.2
  rw [show ((Entry.stage type payload).frame attempt).body = intentBody type attempt payload from rfl,
    length_intentBody] at fits
  exact Nat.lt_of_le_of_lt ((Nat.le_add_left _ _).trans fits) (by decide)

structure Ledger.Kept (options : StoreOptions) (r : Ledger) (s : Store) (d : Disk FileName) :
    Prop where
  valid : options.Valid
  same : s.options = options
  running : ∃ k : Journal, Running s d r.snapshot k ∧ k.clients = r.journal

namespace Ledger.Kept

variable {options : StoreOptions} {r r' : Ledger} {s s' t : Store} {d d' e : Disk FileName}
  {call : StoreCall} {answer : StoreAnswer} {boot : Bytes}

theorem created (opening : execute (Store.open options boot) Disk.empty = (.ok s, d)) :
    Kept options .empty s d := by
  have valid := valid_of_open opening
  have weakest : (Store.open options boot).wp Disk.world (fun _ => True)
      (fun result d => ∀ s, result = .ok s → s.options = options ∧
        ∃ header : Journal, header.clients = [] ∧ Running s d [] header) Disk.empty := by
    apply vacant_empty.wp_open valid (fun _ _ => trivial)
    refine ⟨fun _ _ => trivial, fun _ _ _ => trivial, ?_, ?_⟩
    · intro failure e _ t failed
      cases failed
    intro s e header running same _ _ _ minted t opened
    obtain rfl := Except.ok.inj opened
    refine ⟨same, header, ?_, running⟩
    rcases minted with rfl | ⟨next, rfl⟩
    · rfl
    · rfl
  have done := Program.wp_run weakest
  rw [show Program.run Disk.answer (Store.open options boot) Disk.empty = _ from opening] at done
  obtain ⟨same, header, silent, running⟩ := done s rfl
  exact ⟨valid, same, header, running, silent⟩

theorem entered (kept : Kept options r s d) {sequence : Sequence} {e : Entry}
    (client : e.silent = false) (allowed : r.journal.Allowed e)
    (wrote : Store.Wrote s s' d d' (e.frame sequence)) :
    Kept options (r.add sequence e) s' d' := by
  obtain ⟨valid, same, k, running, clients⟩ := kept
  have pending : r.journal.pending = k.pending := clients ▸ k.pending_clients
  have admitted : k.Allowed e := by
    cases e with
    | append type payload => exact allowed
    | stage type payload => exact allowed
    | commit attempt appliedDigest =>
        unfold Journal.Allowed at allowed ⊢
        rwa [pending] at allowed
    | abort attempt reason =>
        unfold Journal.Allowed at allowed ⊢
        rwa [pending] at allowed
  refine ⟨valid, ?_, k ++ [(sequence, e)], running.wrote admitted wrote, ?_⟩
  · rw [wrote.members]
    exact same
  · rw [Journal.clients_append, clients]
    unfold Journal.clients
    rw [List.filter_cons_of_pos (by rw [client]; rfl)]
    rfl

theorem called (kept : Kept options r s d)
    (calling : execute (s.call call) d = ((.ok answer, s'), d'))
    (enters : r.Enters s'.lastSequence call answer r') : Kept options r' s' d' := by
  have small : s.options.maxRecordBytes ≤ Limits.maxWalRecordBytes := by
    rw [kept.same]
    exact kept.valid.small
  have done := Store.called_of_execute small calling
  cases enters with
  | @appended type payload next client wellFormed =>
      cases done with
      | appended wrote =>
          have wrote : Store.Wrote s s' d d' ((Entry.append type payload).frame next) := wrote
          exact kept.entered client wellFormed wrote
  | @staged type payload attempt =>
      cases done with
      | staged wrote =>
          have wrote : Store.Wrote s s' d d' ((Entry.stage type payload).frame attempt) := wrote
          exact kept.entered rfl wrote.short_stage wrote
  | @committed attempt appliedDigest pending =>
      cases done with
      | @committed _ _ next _ _ wrote =>
          have wrote : Store.Wrote s s' d d' ((Entry.commit attempt appliedDigest).frame next) :=
            wrote
          have last : s'.lastSequence = next := by
            rw [wrote.members]
            rfl
          exact last ▸ kept.entered rfl pending wrote
  | @aborted attempt reason pending =>
      cases done with
      | @aborted _ _ next _ _ wrote =>
          have wrote : Store.Wrote s s' d d' ((Entry.abort attempt reason).frame next) := wrote
          have last : s'.lastSequence = next := by
            rw [wrote.members]
            rfl
          exact last ▸ kept.entered rfl pending wrote
  | @compacted snapshot settled =>
      cases done with
      | compacted executed =>
          obtain ⟨valid, same, k, running, clients⟩ := kept
          have weakest : (s.writeSnapshot snapshot).wp Disk.world (fun _ => True)
              (fun outcome d' => outcome.1 = .ok () →
                outcome.2.options = options ∧ Running outcome.2 d' snapshot []) d := by
            apply running.wp_writeSnapshot (fun _ _ => trivial) (fun _ _ => trivial)
            · intro _ failure failed
              cases failed
            · intro handle d' running' _
              exact ⟨same, running'⟩
          have done := Program.wp_run weakest
          rw [show Program.run Disk.answer (s.writeSnapshot snapshot) d = _ from executed] at done
          obtain ⟨same', running'⟩ := done rfl
          exact ⟨valid, same', [], running', rfl⟩

theorem rests (kept : Kept options r s d) (crash : Crash s d r e r') :
    ∃ k : Journal, Rests options.maxRecordBytes e r'.snapshot k ∧ k.clients = r'.journal := by
  obtain ⟨valid, same, k, running, clients⟩ := kept
  have budget : s.options.maxRecordBytes = options.maxRecordBytes := by rw [same]
  cases crash with
  | cut within =>
      have rests := running.rests_truncate within
      rw [budget] at rests
      refine ⟨_, rests, ?_⟩
      rw [Journal.clients_survivors, clients, ← budget]
      rfl
  | @compacting snapshot _ _ settled crashed either referenced =>
      have weakest : (s.writeSnapshot snapshot).wp Disk.world
          (Snapshotting options.maxRecordBytes r.snapshot snapshot k) (fun _ _ => True) d := by
        apply running.wp_snapshotting
        · intro e snapshotting
          exact budget ▸ snapshotting
        · exact fun _ _ => trivial
        · exact fun _ _ _ => trivial
      have inside (x) (mem : x ∈ r.journal) : x ∈ k :=
        List.mem_of_mem_filter (clients ▸ mem)
      obtain ⟨m, held, log, shows, reference, covers⟩ := referenced
      -- an entry that one manifest covers and another does not is in neither ledger
      have none (both : ∀ x ∈ r.journal, x.1 ≤ m.snapshotSequence ∧ m.snapshotSequence < x.1) :
          r.journal = [] :=
        List.eq_nil_iff_forall_not_mem.mpr fun x mem =>
          UInt64.not_lt.mpr (both x mem).1 (both x mem).2
      cases Program.wp_crashes weakest crashed with
      | kept shows' old behind rests =>
          obtain ⟨rfl, rfl⟩ := shows.unique shows'
          rcases either with rfl | rfl
          · exact ⟨k, rests, clients⟩
          · have empty : r.journal = [] := none fun x mem =>
              ⟨UInt64.not_lt.mp fun later => List.not_mem_nil ((covers x mem).mpr later),
                behind x (inside x mem)⟩
            exact ⟨k, reference ▸ old ▸ rests, clients.trans empty⟩
      | replaced shows' covered rests =>
          obtain ⟨rfl, rfl⟩ := shows.unique shows'
          rcases either with rfl | rfl
          · have empty : r'.journal = [] := none fun x mem =>
              ⟨covered x (inside x mem), (covers x mem).mp mem⟩
            have same : snapshot = r'.snapshot := reference
            exact ⟨[], same ▸ rests, empty.symm⟩
          · exact ⟨[], rests, rfl⟩

theorem crash_of_crashes (kept : Kept options r s d) (settled : r.journal.pending = [])
    {snapshot : Bytes} (crashed : (s.writeSnapshot snapshot).Crashes Disk.world d e) :
    Crash s d r e r ∨ Crash s d r e (r.compacted snapshot) := by
  obtain ⟨valid, same, k, running, clients⟩ := kept
  have inside (x) (mem : x ∈ r.journal) : x ∈ k := List.mem_of_mem_filter (clients ▸ mem)
  have weakest : (s.writeSnapshot snapshot).wp Disk.world
      (Snapshotting s.options.maxRecordBytes r.snapshot snapshot k) (fun _ _ => True) d :=
    running.wp_snapshotting (fun _ snapshotting => snapshotting) (fun _ _ => trivial) fun _ _ _ => trivial
  cases Program.wp_crashes weakest crashed with
  | kept shows old behind _ =>
      refine .inl (.compacting settled crashed (.inl rfl) ⟨_, _, _, shows, old, ?_⟩)
      exact fun x mem => ⟨fun _ => behind x (inside x mem), fun _ => mem⟩
  | replaced shows covered _ =>
      refine .inr (.compacting settled crashed (.inr rfl) ⟨_, _, _, shows, rfl, ?_⟩)
      intro x mem
      constructor
      · exact fun absent => absurd absent List.not_mem_nil
      · exact fun later => absurd later (UInt64.not_lt.mpr (covered x (inside x mem)))

theorem opened (kept : Kept options r s d) (crash : Crash s d r e r')
    (opening : execute (Store.open options boot) e = (.ok t, d')) :
    Kept options r' t d' ∧ t.Recovers r' := by
  obtain ⟨k, rests, clients⟩ := kept.rests crash
  have lawful : k.Lawful := by
    obtain ⟨_, _, _, _, -, -, holding⟩ := rests
    exact holding.lawful
  obtain ⟨same, bytes, replayed, unfinished, header, silent, running⟩ :=
    rests.opened kept.valid opening
  refine ⟨⟨kept.valid, same, _, running, ?_⟩, bytes, ?_, ?_, ?_⟩
  · rw [Journal.clients_append, silent, List.append_nil, clients]
  · rw [replayed, ← clients, Journal.history_clients]
  · rw [replayed]
    exact lawful.history_rises
  · rw [unfinished, ← clients, Journal.pending_clients]

end Ledger.Kept

theorem Session.kept {options : StoreOptions} {r : Ledger} {s : Store} {d : Disk FileName}
    (session : Session options r s d) : r.Kept options s d := by
  induction session with
  | created opening => exact .created opening
  | called _ calling enters ih => exact ih.called calling enters
  | recovered _ crash opening ih => exact (ih.opened crash opening).1

/-- Every entry acknowledged stands in the log, or behind the snapshot that stands for it. Whatever a
crash leaves of them, an opening that succeeds recovers that, and a crash inside a compaction leaves
every record. -/
theorem crash_recovers_survivors {options : StoreOptions} {r : Ledger} {s : Store}
    {d : Disk FileName} (session : Session options r s d) :
    r.survivors options.maxRecordBytes (walOf d) = r ∧
      (∀ e r' boot t d', Ledger.Crash s d r e r' →
        execute (Store.open options boot) e = (.ok t, d') → t.Recovers r') ∧
      ∀ snapshot e, r.journal.pending = [] →
        (s.writeSnapshot snapshot).Crashes Disk.world d e →
          ∃ r', Ledger.Crash s d r e r' ∧ r'.records = r.records := by
  have kept := session.kept
  refine ⟨?_, ?_, ?_⟩
  · obtain ⟨-, same, k, running, clients⟩ := kept
    have whole := running.survivors_self
    unfold Ledger.survivors
    rw [← clients, ← Journal.clients_survivors, ← same, whole, clients]
  · intro e r' boot t d' crash opening
    exact (kept.opened crash opening).2
  · intro snapshot e settled crashed
    rcases kept.crash_of_crashes settled crashed with old | new
    · exact ⟨r, old, rfl⟩
    · refine ⟨_, new, ?_⟩
      unfold Ledger.records Ledger.compacted
      rw [show Journal.history [] = [] from rfl, List.append_nil]
      rfl

def appendsFirst : Bool :=
  match execute (Store.open .default (List.replicate 16 7)) Disk.empty with
  | (.ok s, d) =>
      match execute (s.call (.append .publishClass [1])) d with
      | ((.ok (.appended _), _), _) => true
      | _ => false
  | _ => false

theorem exists_appended : ∃ next s d,
    Session .default (Ledger.empty.add next (.append .publishClass [1])) s d := by
  have rehearsal : appendsFirst = true := by decide +kernel
  unfold appendsFirst at rehearsal
  split at rehearsal
  next s d opening =>
    split at rehearsal
    next next s' d' calling =>
      exact ⟨next, s', d', .called (.created opening) calling (.appended rfl trivial)⟩
    · cases rehearsal
  · cases rehearsal

theorem crash_recovers_survivors_appended : ∃ r s d, r.journal ≠ [] ∧
    r.survivors StoreOptions.default.maxRecordBytes (walOf d) = r ∧
      (∀ e r' boot t d', Ledger.Crash s d r e r' →
        execute (Store.open .default boot) e = (.ok t, d') → t.Recovers r') ∧
      ∀ snapshot e, r.journal.pending = [] →
        (s.writeSnapshot snapshot).Crashes Disk.world d e →
          ∃ r', Ledger.Crash s d r e r' ∧ r'.records = r.records := by
  obtain ⟨next, s, d, session⟩ := exists_appended
  exact ⟨_, s, d, List.cons_ne_nil _ _, crash_recovers_survivors session⟩

end QoSFabric
