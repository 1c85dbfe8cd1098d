import QoSFabric.Proof.Store.Frame
import QoSFabric.Model.Replay

namespace QoSFabric

inductive Entry where
  | append (type : RecordType) (payload : Bytes)
  | stage (type : RecordType) (payload : Bytes)
  | commit (attempt : AttemptId) (appliedDigest : Digest256)
  | abort (attempt : AttemptId) (reason : Text)
  deriving DecidableEq

abbrev Journal := List (Sequence × Entry)

def RecordType.silent : RecordType → Bool
  | .storeHeader | .cleanShutdown => true
  | _ => false

def RecordType.WellFormed (payload : Bytes) : RecordType → Prop
  | .unknown | .mutationIntent | .mutationCommit | .mutationAbort => False
  | .epochAdvance => 8 ≤ payload.length
  | .storeHeader => 32 ≤ payload.length
  | _ => True

namespace Entry

def frame (sequence : Sequence) : Entry → Frame
  | append type payload => ⟨type, flagNone, sequence, 0, payload⟩
  | stage type payload =>
      ⟨.mutationIntent, flagHasAttempt, sequence, sequence, intentBody type sequence payload⟩
  | commit attempt appliedDigest =>
      ⟨.mutationCommit, flagHasAttempt, sequence, attempt, commitBody attempt appliedDigest⟩
  | abort attempt reason =>
      ⟨.mutationAbort, flagHasAttempt, sequence, attempt, abortBody attempt reason⟩

def staged : Entry → Option (RecordType × Bytes)
  | stage type payload => some (type, payload)
  | _ => none

def resolves : Entry → Option AttemptId
  | commit attempt _ | abort attempt _ => some attempt
  | _ => none

@[simp] theorem frame_sequence (sequence : Sequence) (e : Entry) :
    (e.frame sequence).sequence = sequence := by
  cases e <;> rfl

end Entry

namespace Journal

def frames (j : Journal) : List Frame := j.map fun x => x.2.frame x.1

@[simp] theorem frames_nil : frames [] = [] := rfl

@[simp] theorem frames_append (j k : Journal) : frames (j ++ k) = frames j ++ frames k :=
  List.map_append

def stagedUnder (j : Journal) (attempt : AttemptId) : Option (RecordType × Bytes) :=
  j.findSome? fun x => if x.1 = attempt then x.2.staged else none

def resolved (j : Journal) (attempt : AttemptId) : Bool :=
  j.any fun x => x.2.resolves == some attempt

/-- The record an entry of a journal counts as. -/
def record (j : Journal) : Sequence × Entry → Option LogRecord
  | (sequence, .append type payload) =>
      if type.silent then none else some ⟨type, sequence, payload⟩
  | (sequence, .commit attempt _) =>
      (j.stagedUnder attempt).map fun staged => ⟨staged.1, sequence, staged.2⟩
  | _ => none

def history (j : Journal) : List LogRecord := j.filterMap (record j)

/-- The attempts staged and neither committed nor aborted. -/
def pending (j : Journal) : List (AttemptId × RecordType × Bytes) :=
  j.filterMap fun x => if j.resolved x.1 then none else x.2.staged.map (x.1, ·)

def Allowed (j : Journal) : Entry → Prop
  | .append type payload => type.WellFormed payload
  | .stage _ payload => payload.length < 2 ^ 32
  | .commit attempt _ | .abort attempt _ => ∃ staged, (attempt, staged) ∈ j.pending

inductive Lawful : Journal → Prop where
  | nil : Lawful []
  | snoc {j : Journal} {sequence : Sequence} {e : Entry} (lawful : Lawful j)
      (later : ∀ x ∈ j, x.1 < sequence) (allowed : Allowed j e) : Lawful (j ++ [(sequence, e)])

section Snoc

variable {j : Journal} {sequence : Sequence} {e : Entry}

theorem Lawful.last (lawful : Lawful (j ++ [(sequence, e)])) :
    Lawful j ∧ (∀ x ∈ j, x.1 < sequence) ∧ Allowed j e := by
  generalize eq : j ++ [(sequence, e)] = whole at lawful
  cases lawful with
  | nil => simp at eq
  | snoc lawful later allowed =>
      obtain ⟨rfl, last⟩ := List.append_inj' eq rfl
      cases last
      exact ⟨lawful, later, allowed⟩

theorem mem_pending {attempt : AttemptId} {staged : RecordType × Bytes} :
    (attempt, staged) ∈ j.pending ↔
      j.resolved attempt = false ∧ ∃ e, (attempt, e) ∈ j ∧ e.staged = some staged := by
  rw [pending, List.mem_filterMap]
  constructor
  · rintro ⟨⟨a, e⟩, mem, h⟩
    dsimp only at h
    split at h
    · cases h
    · next open_ =>
        obtain ⟨value, staged, eq⟩ := Option.map_eq_some_iff.mp h
        obtain ⟨rfl, rfl⟩ := Prod.mk.inj eq
        exact ⟨Bool.not_eq_true _ ▸ open_, e, mem, staged⟩
  · rintro ⟨open_, e, mem, staged⟩
    refine ⟨(attempt, e), mem, ?_⟩
    rw [if_neg (by rw [open_]; exact Bool.false_ne_true), staged]
    rfl

theorem Lawful.unique (lawful : Lawful j) {e' : Entry} (h : (sequence, e) ∈ j)
    (h' : (sequence, e') ∈ j) : e = e' := by
  induction lawful with
  | nil => cases h
  | snoc _ later _ ih =>
      rw [List.mem_append, List.mem_singleton] at h h'
      rcases h with h | h <;> rcases h' with h' | h'
      · exact ih h h'
      · have lt : sequence < _ := later _ h
        exact absurd (congrArg Prod.fst h') (UInt64.ne_of_lt lt)
      · have lt : sequence < _ := later _ h'
        exact absurd (congrArg Prod.fst h) (UInt64.ne_of_lt lt)
      · exact (Prod.mk.inj (h.trans h'.symm)).2

theorem resolved_snoc (attempt : AttemptId) :
    resolved (j ++ [(sequence, e)]) attempt =
      (j.resolved attempt || e.resolves == some attempt) := by
  simp [resolved]

theorem Lawful.staged_of_resolved (lawful : Lawful j) {attempt : AttemptId}
    (h : j.resolved attempt = true) : ∃ type payload, (attempt, .stage type payload) ∈ j := by
  induction lawful with
  | nil => cases h
  | @snoc j sequence e _ _ allowed ih =>
      rw [resolved_snoc, Bool.or_eq_true, beq_iff_eq] at h
      rcases h with h | h
      · obtain ⟨type, payload, mem⟩ := ih h
        exact ⟨type, payload, List.mem_append_left _ mem⟩
      · have pending : ∃ staged, (attempt, staged) ∈ j.pending := by
          cases e with
          | append type payload => cases h
          | stage type payload => cases h
          | commit a appliedDigest =>
              cases h
              exact allowed
          | abort a reason =>
              cases h
              exact allowed
        obtain ⟨staged, mem⟩ := pending
        obtain ⟨-, e', mem, eq⟩ := mem_pending.mp mem
        cases e' with
        | stage type payload => exact ⟨type, payload, List.mem_append_left _ mem⟩
        | append type payload => cases eq
        | commit a appliedDigest => cases eq
        | abort a reason => cases eq

theorem Lawful.stagedUnder_of_mem (lawful : Lawful j) {attempt : AttemptId}
    {staged : RecordType × Bytes} (mem : (attempt, e) ∈ j) (eq : e.staged = some staged) :
    j.stagedUnder attempt = some staged := by
  rw [stagedUnder]
  cases found : j.findSome? fun x => if x.1 = attempt then x.2.staged else none with
  | none =>
      have absent := List.findSome?_eq_none_iff.mp found _ mem
      rw [if_pos rfl, eq] at absent
      cases absent
  | some other =>
      obtain ⟨⟨a, e'⟩, mem', h⟩ := List.exists_of_findSome?_eq_some found
      dsimp only at h
      split at h
      · next same =>
          subst same
          rw [lawful.unique mem' mem, eq] at h
          exact h.symm
      · cases h

theorem stagedUnder_append {k : Journal} {attempt : AttemptId} {staged : RecordType × Bytes}
    (h : j.stagedUnder attempt = some staged) : (j ++ k).stagedUnder attempt = some staged := by
  rw [stagedUnder] at h ⊢
  rw [List.findSome?_append, h]
  rfl

theorem resolves_of_staged {staged : RecordType × Bytes} (h : e.staged = some staged) :
    e.resolves = none := by
  cases e with
  | stage type payload => rfl
  | append type payload => cases h
  | commit attempt appliedDigest => cases h
  | abort attempt reason => cases h

theorem pending_snoc (fresh : j.resolved sequence = false) :
    pending (j ++ [(sequence, e)]) =
      (j.pending.filter fun p => e.resolves != some p.1) ++
        (e.staged.map (sequence, ·)).toList := by
  have before : (j.filterMap fun x => if resolved (j ++ [(sequence, e)]) x.1 then none
      else x.2.staged.map (x.1, ·)) = j.pending.filter fun p => e.resolves != some p.1 := by
    rw [pending, List.filter_filterMap]
    refine List.filterMap_congr fun x _ => ?_
    rw [resolved_snoc]
    cases j.resolved x.1 with
    | true => rfl
    | false =>
        cases x.2.staged with
        | none => cases e.resolves == some x.1 <;> rfl
        | some staged =>
            cases same : e.resolves == some x.1 with
            | true => simp [Option.filter, bne, same]
            | false => simp [Option.filter, bne, same]
  have last : ([(sequence, e)].filterMap fun x => if resolved (j ++ [(sequence, e)]) x.1 then none
      else x.2.staged.map (x.1, ·)) = (e.staged.map (sequence, ·)).toList := by
    cases staged : e.staged with
    | none =>
        rw [List.filterMap_cons_none]
        · rfl
        · dsimp only
          rw [staged]
          split <;> rfl
    | some value =>
        have open_ : resolved (j ++ [(sequence, e)]) sequence = false := by
          rw [resolved_snoc, fresh, resolves_of_staged staged]
          rfl
        simp [open_, staged]
  rw [pending, List.filterMap_append, before, last]

theorem Lawful.not_resolved (lawful : Lawful j) (later : ∀ x ∈ j, x.1 < sequence) :
    j.resolved sequence = false := by
  rw [Bool.eq_false_iff]
  intro h
  obtain ⟨type, payload, mem⟩ := lawful.staged_of_resolved h
  exact absurd rfl (UInt64.ne_of_lt (later _ mem))

theorem Lawful.staged_of_commit (lawful : Lawful j) {attempt : AttemptId}
    {appliedDigest : Digest256} (mem : (sequence, .commit attempt appliedDigest) ∈ j) :
    ∃ staged, j.stagedUnder attempt = some staged := by
  induction lawful with
  | nil => cases mem
  | @snoc j last e lawful later allowed ih =>
      rw [List.mem_append, List.mem_singleton] at mem
      rcases mem with mem | mem
      · obtain ⟨staged, h⟩ := ih mem
        exact ⟨staged, stagedUnder_append h⟩
      · cases mem
        obtain ⟨staged, pending⟩ := allowed
        obtain ⟨-, e, mem, eq⟩ := mem_pending.mp pending
        exact ⟨staged, stagedUnder_append (lawful.stagedUnder_of_mem mem eq)⟩

theorem Lawful.record_append (lawful : Lawful j) {k : Journal} {x : Sequence × Entry}
    (mem : x ∈ j) : record (j ++ k) x = record j x := by
  obtain ⟨sequence, e⟩ := x
  cases e with
  | append type payload => rfl
  | stage type payload => rfl
  | abort attempt reason => rfl
  | commit attempt appliedDigest =>
      obtain ⟨staged, h⟩ := lawful.staged_of_commit mem
      rw [record, record, h, stagedUnder_append h]

theorem Lawful.history_snoc (sequence : Sequence) (e : Entry) (lawful : Lawful j) :
    history (j ++ [(sequence, e)]) =
      j.history ++ (record (j ++ [(sequence, e)]) (sequence, e)).toList := by
  rw [history, List.filterMap_append, history]
  congr 1
  exact List.filterMap_congr fun x mem => lawful.record_append mem

end Snoc

end Journal

end QoSFabric
