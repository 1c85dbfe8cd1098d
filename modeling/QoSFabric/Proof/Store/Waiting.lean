import QoSFabric.Proof.Store.Recovery

namespace QoSFabric

namespace Entry

/-- The intent an entry leaves: the number it waits under, its type and its payload. -/
def intent (sequence : Sequence) : Entry → Option (AttemptId × RecordType × Bytes)
  | stage type payload => some (sequence, type, payload)
  | append .mutationIntent body =>
      (readIntent body).map fun staged => (staged.2.1, staged.1, staged.2.2)
  | _ => none

/-- The number an entry takes an intent from. -/
def takes : Entry → Option AttemptId
  | commit attempt _ | abort attempt _ => some attempt
  | append .mutationCommit body | append .mutationAbort body => readAttempt body
  | _ => none

/-- An intent whose length its frame can hold. -/
def Short (e : Entry) : Prop := ∀ type payload, e = .stage type payload → payload.length < 2 ^ 32

end Entry

namespace Journal

def wait (attempt : AttemptId) (waiting : List (RecordType × Bytes)) (x : Sequence × Entry) :
    List (RecordType × Bytes) :=
  if x.2.takes = some attempt then waiting.tail
  else waiting ++ ((x.2.intent x.1).toList.filter fun staged => staged.1 = attempt).map Prod.snd

/-- The intents that wait under a number at the end of a journal, in the order they were staged. -/
def waiting (j : Journal) (attempt : AttemptId) : List (RecordType × Bytes) :=
  j.foldl (wait attempt) []

end Journal

/-- The intents a replay keeps under a number. -/
def Replay.waiting (r : Replay) (attempt : AttemptId) : List (RecordType × Bytes) :=
  (r.staged.filter (·.1 == attempt)).map fun p => (p.2.type, p.2.payload)

variable {r : Replay} {attempt other : AttemptId} {sequence snapshotSequence : Sequence} {e : Entry}
  {f : Frame} {j : Journal} {type : RecordType} {payload : Bytes}

namespace Replay

theorem waiting_stage :
    (r.stage other type payload).waiting attempt =
      r.waiting attempt ++ if other = attempt then [(type, payload)] else [] := by
  unfold waiting stage
  rw [List.filter_append, List.map_append]
  congr 1
  by_cases same : other = attempt
  · simp [same]
  · simp [same]

theorem filter_eraseP {α : Type} {key : α → AttemptId} (items : List α) :
    (items.eraseP (key · == other)).filter (key · == attempt) =
      if other = attempt then (items.filter (key · == attempt)).tail
      else items.filter (key · == attempt) := by
  induction items with
  | nil => exact (ite_self _).symm
  | cons a items ih =>
      by_cases first : key a = other
      · rw [List.eraseP_cons_of_pos (by simpa using first)]
        by_cases same : other = attempt
        · rw [if_pos same, List.filter_cons_of_pos (by simpa using first.trans same)]
          rfl
        · rw [if_neg same, List.filter_cons_of_neg (by simpa [first] using same)]
      · rw [List.eraseP_cons_of_neg (by simpa using first)]
        by_cases own : key a = attempt
        · have ne : other ≠ attempt := fun same => first (own.trans same.symm)
          rw [List.filter_cons_of_pos (by simpa using own), ih, if_neg ne, if_neg ne,
            List.filter_cons_of_pos (by simpa using own)]
        · rw [List.filter_cons_of_neg (by simpa using own), ih,
            List.filter_cons_of_neg (by simpa using own)]

theorem waiting_erase {t : Replay} (erased : t.staged = r.staged.eraseP (·.1 == other)) :
    t.waiting attempt =
      if other = attempt then (r.waiting attempt).tail else r.waiting attempt := by
  unfold waiting
  rw [erased, filter_eraseP, ← List.map_tail]
  split <;> rfl

theorem eraseP_of_find?_none (none : r.staged.find? (·.1 == other) = none) :
    r.staged.eraseP (·.1 == other) = r.staged :=
  List.eraseP_of_forall_not (List.find?_eq_none.mp none)

theorem waiting_commit :
    (r.commit other sequence).waiting attempt =
      if other = attempt then (r.waiting attempt).tail else r.waiting attempt := by
  apply waiting_erase
  unfold commit
  split
  next none => exact (eraseP_of_find?_none none).symm
  next => rfl

theorem waiting_abort :
    (r.abort other).waiting attempt =
      if other = attempt then (r.waiting attempt).tail else r.waiting attempt := by
  apply waiting_erase
  unfold abort
  split
  next none => exact (eraseP_of_find?_none none).symm
  next => rfl

theorem replayed_commit :
    (r.commit other sequence).replayed = r.replayed ++
      ((r.waiting other).head?.map fun staged => ⟨staged.1, sequence, staged.2⟩).toList := by
  unfold waiting commit
  rw [List.head?_map, List.head?_filter]
  split
  next none =>
      rw [none]
      exact (List.append_nil _).symm
  next staged =>
      rw [staged]
      rfl

end Replay

namespace Journal

theorem wait_takes {waiting : List (RecordType × Bytes)} (takes : e.takes = some other)
    (intent : e.intent sequence = none) :
    wait attempt waiting (sequence, e) = if other = attempt then waiting.tail else waiting := by
  unfold wait
  rw [takes, intent]
  by_cases same : other = attempt
  · rw [if_pos (congrArg some same), if_pos same]
  · rw [if_neg (fun eq => same (Option.some.inj eq)), if_neg same]
    exact List.append_nil _

theorem wait_intends {waiting : List (RecordType × Bytes)} {staged : RecordType × Bytes}
    (takes : e.takes = none) (intent : e.intent sequence = some (other, staged)) :
    wait attempt waiting (sequence, e) =
      waiting ++ if other = attempt then [staged] else [] := by
  unfold wait
  rw [takes, intent, if_neg (Option.some_ne_none attempt).symm]
  by_cases same : other = attempt
  · simp [same]
  · simp [same]

theorem wait_idle {waiting : List (RecordType × Bytes)} (takes : e.takes = none)
    (intent : e.intent sequence = none) : wait attempt waiting (sequence, e) = waiting := by
  unfold wait
  rw [takes, intent, if_neg (Option.some_ne_none attempt).symm]
  exact List.append_nil _

end Journal

theorem waiting_applyBody (short : e.Short) :
    (applyBody r (e.frame sequence)).1.waiting attempt =
      Journal.wait attempt (r.waiting attempt) (sequence, e) := by
  cases e with
  | stage type payload =>
      simp only [applyBody, Entry.frame, readIntent_intentBody type sequence (short _ _ rfl)]
      rw [Replay.waiting_stage, Journal.wait_intends rfl rfl]
  | commit other digest =>
      simp only [applyBody, Entry.frame, commitBody, readAttempt_encode]
      rw [Replay.waiting_commit, Journal.wait_takes rfl rfl]
  | abort other reason =>
      simp only [applyBody, Entry.frame, abortBody, readAttempt_encode]
      rw [Replay.waiting_abort, Journal.wait_takes rfl rfl]
  | append type body =>
      cases type with
      | mutationIntent =>
          simp only [applyBody, Entry.frame]
          cases read : readIntent body with
          | none =>
              have intent : (Entry.append .mutationIntent body).intent sequence = none := by
                rw [Entry.intent, read]
                rfl
              exact (Journal.wait_idle rfl intent).symm
          | some staged =>
              obtain ⟨type, other, payload⟩ := staged
              have intent : (Entry.append .mutationIntent body).intent sequence =
                  some (other, type, payload) := by
                rw [Entry.intent, read]
                rfl
              dsimp only
              rw [Replay.waiting_stage, Journal.wait_intends rfl intent]
      | mutationCommit =>
          simp only [applyBody, Entry.frame]
          cases read : readAttempt body with
          | none =>
              have takes : (Entry.append .mutationCommit body).takes = none := read
              exact (Journal.wait_idle takes rfl).symm
          | some other =>
              have takes : (Entry.append .mutationCommit body).takes = some other := read
              dsimp only
              rw [Replay.waiting_commit, Journal.wait_takes takes rfl]
      | mutationAbort =>
          simp only [applyBody, Entry.frame]
          cases read : readAttempt body with
          | none =>
              have takes : (Entry.append .mutationAbort body).takes = none := read
              exact (Journal.wait_idle takes rfl).symm
          | some other =>
              have takes : (Entry.append .mutationAbort body).takes = some other := read
              dsimp only
              rw [Replay.waiting_abort, Journal.wait_takes takes rfl]
      | epochAdvance =>
          have same : (applyBody r ((Entry.append .epochAdvance body).frame sequence)).1.staged =
              r.staged := by
            by_cases short : body.length < 8
            · exact congrArg (fun p : Replay × Bool => p.1.staged) (if_pos short)
            · exact congrArg (fun p : Replay × Bool => p.1.staged) (if_neg short)
          rw [Journal.wait_idle rfl rfl, Replay.waiting, same]
          rfl
      | _ =>
          rw [Journal.wait_idle rfl rfl]
          rfl

theorem replayed_applyBody (r : Replay) (f : Frame) :
    ∃ pushed, (applyBody r f).1.replayed = r.replayed ++ pushed ∧
      ∀ x ∈ pushed, x.sequence = f.sequence := by
  have none : ∃ pushed : List LogRecord, r.replayed = r.replayed ++ pushed ∧
      ∀ x ∈ pushed, x.sequence = f.sequence := ⟨[], (List.append_nil _).symm, nofun⟩
  have one (type : RecordType) (payload : Bytes) : ∃ pushed : List LogRecord,
      r.replayed ++ [⟨type, f.sequence, payload⟩] = r.replayed ++ pushed ∧
        ∀ x ∈ pushed, x.sequence = f.sequence :=
    ⟨_, rfl, List.forall_mem_singleton.mpr rfl⟩
  unfold applyBody
  split
  · split <;> exact none
  · split
    · exact none
    · next attempt _ =>
        refine ⟨_, Replay.replayed_commit, ?_⟩
        intro x mem
        obtain ⟨staged, -, rfl⟩ := Option.map_eq_some_iff.mp (Option.mem_toList.mp mem)
        rfl
  · split
    · exact none
    · unfold Replay.abort
      split <;> exact none
  · split
    · exact none
    · exact one _ _
  · exact none
  · exact none
  · exact none
  · exact one _ _

namespace Journal

/-- What a replay makes of a journal past a snapshot. -/
def taken (snapshotSequence : Sequence) (r : Replay) (j : Journal) : Replay :=
  j.foldl (fun r x => (applyFrame snapshotSequence r (x.2.frame x.1)).1) r

variable {x : Sequence × Entry}

theorem taken_append {k : Journal} :
    taken snapshotSequence r (j ++ k) = taken snapshotSequence (taken snapshotSequence r j) k :=
  List.foldl_append

theorem applyFrame_entry (later : snapshotSequence < x.1) :
    (applyFrame snapshotSequence r (x.2.frame x.1)).1 =
      (applyBody ({ r with sawCleanShutdown := false }.noteSequence x.1) (x.2.frame x.1)).1 := by
  rw [applyFrame_later (by rwa [Entry.frame_sequence]), Entry.frame_sequence]

theorem waiting_taken (after : ∀ x ∈ j, snapshotSequence < x.1) (short : ∀ x ∈ j, x.2.Short) :
    (taken snapshotSequence r j).waiting attempt = j.foldl (wait attempt) (r.waiting attempt) := by
  induction j generalizing r with
  | nil => rfl
  | cons x j ih =>
      rw [List.forall_mem_cons] at after short
      rw [taken, List.foldl_cons, ← taken, ih after.2 short.2, applyFrame_entry after.1,
        waiting_applyBody short.1]
      rfl

theorem replayed_taken (after : ∀ x ∈ j, snapshotSequence < x.1) :
    ∃ pushed, (taken snapshotSequence r j).replayed = r.replayed ++ pushed ∧
      ∀ record ∈ pushed, ∃ x ∈ j, record.sequence = x.1 := by
  induction j generalizing r with
  | nil => exact ⟨[], (List.append_nil _).symm, nofun⟩
  | cons x j ih =>
      rw [List.forall_mem_cons] at after
      obtain ⟨first, grown, own⟩ := replayed_applyBody
        ({ r with sawCleanShutdown := false }.noteSequence x.1) (x.2.frame x.1)
      rw [← applyFrame_entry after.1] at grown
      obtain ⟨pushed, more, others⟩ :=
        @ih (applyFrame snapshotSequence r (x.2.frame x.1)).1 after.2
      refine ⟨first ++ pushed, ?_, ?_⟩
      · rw [taken, List.foldl_cons, ← taken, more, grown, List.append_assoc]
        rfl
      · intro record mem
        rcases List.mem_append.mp mem with mem | mem
        · exact ⟨x, List.mem_cons_self, (own record mem).trans (Entry.frame_sequence x.1 x.2)⟩
        · obtain ⟨y, inside, same⟩ := others record mem
          exact ⟨y, List.mem_cons_of_mem _ inside, same⟩

theorem mem_taken_commit {front rest : Journal} {digest : Digest256}
    (after : ∀ x ∈ front ++ (sequence, .commit attempt digest) :: rest, snapshotSequence < x.1)
    (short : ∀ x ∈ front, x.2.Short)
    (apart : ∀ x ∈ front ++ rest, x.1 ≠ sequence) (fresh : r.replayed = [] ∧ r.staged = []) :
    ⟨type, sequence, payload⟩ ∈ (taken snapshotSequence r
        (front ++ (sequence, .commit attempt digest) :: rest)).replayed ↔
      (front.waiting attempt).head? = some (type, payload) := by
  rw [List.forall_mem_append, List.forall_mem_cons] at after
  rw [List.forall_mem_append] at apart
  obtain ⟨before, since, behind⟩ := after
  rw [taken_append, taken, List.foldl_cons, ← taken]
  have queue := @waiting_taken r attempt _ _ before short
  obtain ⟨earlier, first, old⟩ := @replayed_taken r _ _ before
  rw [show r.waiting attempt = [] by rw [Replay.waiting, fresh.2]; rfl] at queue
  rw [fresh.1, List.nil_append] at first
  generalize taken snapshotSequence r front = t at queue first ⊢
  have committed : (applyFrame snapshotSequence t
      ((Entry.commit attempt digest).frame sequence)).1.replayed = earlier ++
        ((front.waiting attempt).head?.map fun staged => ⟨staged.1, sequence, staged.2⟩).toList := by
    have taken : t.waiting attempt = front.waiting attempt := queue
    have applied := @applyFrame_entry t snapshotSequence (sequence, .commit attempt digest) since
    dsimp only at applied
    rw [applied, ← first, ← taken]
    simp only [applyBody, Entry.frame, commitBody, readAttempt_encode]
    exact Replay.replayed_commit
  obtain ⟨later, last, young⟩ := @replayed_taken
    (applyFrame snapshotSequence t ((Entry.commit attempt digest).frame sequence)).1 _ _ behind
  rw [last, committed, List.mem_append, List.mem_append, Option.mem_toList, Option.map_eq_some_iff]
  constructor
  · rintro ((mem | ⟨⟨_, _⟩, head, eq⟩) | mem)
    · obtain ⟨x, inside, same⟩ := old _ mem
      exact absurd same.symm (apart.1 x inside)
    · cases eq
      exact head
    · obtain ⟨x, inside, same⟩ := young _ mem
      exact absurd same.symm (apart.2 x inside)
  · intro head
    exact .inl (.inr ⟨_, head, rfl⟩)

theorem waiting_snoc {x : Sequence × Entry} :
    waiting (j ++ [x]) attempt = wait attempt (j.waiting attempt) x := by
  unfold waiting
  rw [List.foldl_append]
  rfl

theorem mem_waiting {staged : RecordType × Bytes} (untaken : ∀ x ∈ j, x.2.takes ≠ some attempt) :
    staged ∈ j.waiting attempt ↔ ∃ x ∈ j, x.2.intent x.1 = some (attempt, staged) := by
  induction j using List.reverseRecOn with
  | nil => exact iff_of_false List.not_mem_nil nofun
  | append_singleton j x ih =>
      rw [List.forall_mem_append, List.forall_mem_singleton] at untaken
      rw [waiting_snoc, wait, if_neg untaken.2, List.mem_append, ih untaken.1, List.mem_map]
      constructor
      · rintro (⟨y, mem, intent⟩ | ⟨⟨number, value⟩, mem, rfl⟩)
        · exact ⟨y, List.mem_append_left _ mem, intent⟩
        · obtain ⟨intent, own⟩ := List.mem_filter.mp mem
          obtain rfl : number = attempt := of_decide_eq_true own
          exact ⟨x, List.mem_append_right _ (List.mem_singleton_self x), Option.mem_toList.mp intent⟩
      · rintro ⟨y, mem, intent⟩
        rcases List.mem_append.mp mem with mem | mem
        · exact .inl ⟨y, mem, intent⟩
        · obtain rfl := List.mem_singleton.mp mem
          exact .inr ⟨_, List.mem_filter.mpr ⟨Option.mem_toList.mpr intent, decide_eq_true rfl⟩, rfl⟩

theorem head_waiting_iff {past : Journal} (rising : (past ++ j).Pairwise fun x y => x.1 < y.1)
    (staged : (attempt, .stage type payload) ∈ past ++ j)
    (untaken : ∀ x ∈ j, x.2.takes ≠ some attempt)
    (own : ∀ x ∈ j, ∀ staged, x.2.intent x.1 = some (attempt, staged) → x.1 = attempt) :
    (j.waiting attempt).head? = some (type, payload) ↔ (attempt, .stage type payload) ∈ j := by
  have only {x : Sequence × Entry} {value : RecordType × Bytes} (mem : x ∈ j)
      (intent : x.2.intent x.1 = some (attempt, value)) : x = (attempt, .stage type payload) := by
    have numbers : ((past ++ j).map Prod.fst).Nodup :=
      List.pairwise_map.mpr (rising.imp UInt64.ne_of_lt)
    exact List.inj_on_of_nodup_map numbers (List.mem_append_right past mem) staged
      (own x mem value intent)
  constructor
  · intro head
    obtain ⟨x, mem, intent⟩ := (mem_waiting untaken).mp (List.mem_of_head? head)
    exact only mem intent ▸ mem
  · intro mem
    have waits : (type, payload) ∈ j.waiting attempt := (mem_waiting untaken).mpr ⟨_, mem, rfl⟩
    cases queue : j.waiting attempt with
    | nil =>
        rw [queue] at waits
        cases waits
    | cons value rest =>
        have first : value ∈ j.waiting attempt := queue ▸ List.mem_cons_self
        obtain ⟨x, mem, intent⟩ := (mem_waiting untaken).mp first
        obtain rfl := only mem intent
        exact congrArg some (Prod.mk.inj (Option.some.inj intent)).2.symm

end Journal

end QoSFabric
