import QoSFabric.Proof.Registry.Refusal
import QoSFabric.Proof.Store.Intents

/-!
# Leaked intents

An operation stages an intent and commits it. Where the commit is refused the members are taken back
and the intent is not: it stays in flight for as long as the store is open. So the count of intents in
flight between operations is zero exactly as long as no commit has been refused.
-/

namespace QoSFabric

open FileSystem Interaction Registry

variable {State : Type} (files : State → (q : Request FileName) → Reply q × State)

def CommitRefused (r : Registry) (m : Mutation) (s : State) : Prop :=
  ∃ attempt r₁ s₁ e, (r.stageWithRetry m.type m.payload).run files s = ((.ok attempt, r₁), s₁) ∧
    ((r₁.store.commit attempt m.digest).run files s₁).1.1 = .error e

inductive Records (r : Registry) (kind : EntityKind) (value : kind.Carrier) : Work → Prop where
  | publication {payload : Bytes}
      (admitted : admission kind (r.tables kind) value (kind.contentDigest value) = .accepted)
      (recorded : (kind.encode (kind.asserted r.currentEpoch (kind.contentDigest value) .none value)
        (.empty : ByteWriter Limits.maxCanonicalRecordBytes)).data = some payload) :
      Records r kind value (.publication kind
        (kind.asserted r.currentEpoch (kind.contentDigest value) .none value) payload)
  | equivocation {incumbent : Digest256} {payload : Bytes}
      (admitted : admission kind (r.tables kind) value (kind.contentDigest value) =
        .equivocated incumbent)
      (recorded : (conflictRecord (r.equivocationMarker kind value incumbent
        (kind.contentDigest value))).data = some payload) :
      Records r kind value (.equivocation (r.equivocationMarker kind value incumbent
        (kind.contentDigest value)) payload)

/-- What a call journals, and the members and the files it does that on: those it is issued on, or
those that the compaction of a full window leaves. -/
inductive Attempts (clock : UInt64) (r : Registry) (s : State) :
    Call → Work → Registry → State → Prop where
  | directly {call : Call} {work : Work} {r₁ : Registry} (undertakes : Undertakes clock r call work r₁) :
      Attempts clock r s call work r₁ s
  | compacting {call : Call} {kind : EntityKind} {value : kind.Carrier} {work : Work} {r₁ : Registry}
      {s₁ : State} (asserts : r.asserts call = some ⟨kind, value⟩) (clears : r.clears call = .ok ())
      (valid : kind.validate value = .ok ()) (positive : kind.generation value ≠ 0)
      (full : r.windowFull kind (kind.entityId value) = true)
      (compacted : r.compactLocked.run files s = ((.ok (), r₁), s₁))
      (records : Records r₁ kind value work) : Attempts clock r s call work r₁ s₁

/-- A call at a moment of a registry and its files. -/
structure Moment (State : Type) where
  registry : Registry
  files : State
  clock : UInt64
  call : Call

/-- The call has the commit of its mutation refused. -/
def Moment.RefusesCommit (moment : Moment State) : Prop :=
  ∃ work r₁ s₁, Attempts files moment.clock moment.registry moment.files moment.call work r₁ s₁ ∧
    CommitRefused files r₁ work.mutation s₁

/-- An opened registry, and the calls that have been made on it. -/
inductive Serves : List (Moment State) → Registry → State → Prop where
  | opened {options : RegistryOptions} {clock : UInt64} {boot : Bytes} {s s' : State} {r : Registry}
      (run : (Registry.open options clock boot).run files s = (.ok r, s')) : Serves [] r s'
  | called {moments : List (Moment State)} {r r' : Registry} {s s' : State} {clock : UInt64}
      {call : Call} {answer : Answer} (serves : Serves moments r s)
      (run : (r.call clock call).run files s = ((answer, r'), s')) :
      Serves (moments ++ [⟨r, s, clock, call⟩]) r' s'
  | closed {moments : List (Moment State)} {r r' : Registry} {s s' : State} {result : Result Unit}
      (serves : Serves moments r s) (run : r.close.run files s = ((result, r'), s')) :
      Serves moments r' s'

variable {files} {r r' : Registry} {s s' : State} {clock : UInt64} {call : Call} {kind : EntityKind}
  {value : kind.Carrier} {m : Mutation} {work : Work}

def Registry.KeepsCount {α : Type} (r : Registry) (outcome : α × Registry) : Prop :=
  outcome.2.store.stagedCount = r.store.stagedCount

theorem Registry.always_compactLocked (r : Registry) : r.compactLocked.Always r.KeepsCount := by
  unfold compactLocked
  dsimp only
  split
  · exact rfl
  · apply (Store.always_writeSnapshot ..).bind
    exact fun _ kept => kept

theorem Registry.always_advanceEpochLocked (r : Registry) (reason : Text) :
    (r.advanceEpochLocked reason).Always r.KeepsCount := by
  unfold advanceEpochLocked
  split
  · exact rfl
  split
  · exact rfl
  · apply (Store.always_appendFrame ..).bind
    rintro ⟨_ | _, store⟩ kept
    · exact kept
    · exact kept

theorem Registry.always_stageWithRetry (r : Registry) (type : RecordType) (payload : Bytes) :
    (r.stageWithRetry type payload).Always fun outcome =>
      r.store.Stages (outcome.1, outcome.2.store) := by
  unfold stageWithRetry
  apply (Store.always_stage ..).bind
  rintro ⟨_ | attempt, store⟩ staged
  · dsimp only
    split
    · have same : store.stagedCount = r.store.stagedCount := staged
      apply (always_compactLocked _).bind
      rintro ⟨_ | _, r'⟩ kept
      · exact Eq.trans kept same
      · have kept : r'.store.stagedCount = r.store.stagedCount := Eq.trans kept same
        apply (Store.always_stage ..).bind
        rintro ⟨_ | attempt, store'⟩ staged'
        · exact Eq.trans staged' kept
        · obtain ⟨few, more⟩ := staged'
          rw [kept] at few more
          exact ⟨few, more⟩
    · exact staged
  · exact staged

theorem staged_pos {count : UInt32} (few : count < Limits.maxJournalIntentsInFlight) :
    count + 1 > 0 := by
  have few : count.toNat < 256 := UInt32.lt_iff_toNat_lt.mp few
  have grown : (count + 1).toNat = count.toNat + 1 := by
    rw [UInt32.toNat_add]
    exact Nat.mod_eq_of_lt (show count.toNat + 1 < 4294967296 by omega)
  rw [gt_iff_lt, UInt32.lt_iff_toNat_lt, grown]
  exact Nat.succ_pos _

theorem CommitRefused.leaks (steady : m.Steady) (refused : CommitRefused files r m s) :
    ∃ e r', ((r.journalled m).run files s).1 = (.error e, r') ∧
      r.store.stagedCount < Limits.maxJournalIntentsInFlight ∧
      r'.store.stagedCount = r.store.stagedCount + 1 := by
  obtain ⟨attempt, r₁, s₁, e, staged, failed⟩ := refused
  have stages := (r.always_stageWithRetry m.type m.payload).run files s
  rw [staged] at stages
  obtain ⟨few, more⟩ := stages
  have commits := (Store.always_commit r₁.store attempt m.digest).run files s₁
  unfold journalled
  rw [Program.run_bind, staged]
  dsimp only
  rw [Program.run_bind, steady.apply]
  cases committed : (r₁.store.commit attempt m.digest).run files s₁ with
  | mk outcome s₂ =>
      obtain ⟨result, store⟩ := outcome
      rw [committed] at failed commits
      obtain rfl : result = .error e := failed
      refine ⟨e, _, rfl, few, ?_⟩
      rw [steady.rollback]
      exact Eq.trans commits more

theorem journalled_kept (steady : m.Steady) (taken : ¬CommitRefused files r m s) :
    r.KeepsCount ((r.journalled m).run files s).1 := by
  have stages := (r.always_stageWithRetry m.type m.payload).run files s
  unfold journalled
  rw [Program.run_bind]
  cases staged : (r.stageWithRetry m.type m.payload).run files s with
  | mk outcome s₁ =>
      obtain ⟨result, r₁⟩ := outcome
      rw [staged] at stages
      cases result with
      | error e => exact stages
      | ok attempt =>
          obtain ⟨few, more⟩ := stages
          have commits := (Store.always_commit r₁.store attempt m.digest).run files s₁
          dsimp only
          rw [Program.run_bind, steady.apply]
          cases committed : (r₁.store.commit attempt m.digest).run files s₁ with
          | mk outcome s₂ =>
              obtain ⟨result, store⟩ := outcome
              rw [committed] at commits
              cases result with
              | error e => exact absurd ⟨attempt, r₁, s₁, e, staged, by rw [committed]⟩ taken
              | ok =>
                  have retired : store.stagedCount = r₁.store.retire.stagedCount := commits
                  show store.stagedCount = r.store.stagedCount
                  rw [retired]
                  unfold Store.retire
                  rw [show r₁.store.stagedCount = r.store.stagedCount + 1 from more]
                  rw [if_pos (staged_pos few), UInt32.add_sub_cancel]

theorem kept_bind {α β : Type} {p : Files (α × Registry)} {f : α × Registry → Files (β × Registry)}
    (kept : r.KeepsCount (p.run files s).1)
    (rest : ∀ outcome, (f outcome).Always outcome.2.KeepsCount) :
    r.KeepsCount ((p >>= f).run files s).1 := by
  rw [Program.run_bind]
  exact Eq.trans ((rest _).run files _) kept

theorem Records.courses (records : Records r kind value work) :
    ∃ finish : Result AttemptId → Registry → Result PublicationResult × Registry,
      (∀ e r, (finish (.error e) r).2 = r) ∧ r.publishAdmitted kind value =
        r.journalled work.mutation >>= fun outcome => pure (finish outcome.1 outcome.2) := by
  unfold publishAdmitted
  rw [← EntityKind.contentDigest]
  dsimp only
  cases records with
  | @publication payload admitted recorded =>
      rw [admitted]
      dsimp only
      unfold recordPublication
      rw [recorded]
      refine ⟨fun result r => (result.map fun attempt => ⟨kind.generation (kind.asserted r.currentEpoch
        (kind.contentDigest value) .none value), attempt, kind.digest (kind.asserted r.currentEpoch
        (kind.contentDigest value) .none value)⟩, r), fun _ _ => rfl, ?_⟩
      refine congrArg (r.journalled _ >>= ·) (funext fun outcome => ?_)
      rcases outcome with ⟨_ | attempt, r'⟩
      · rfl
      · dsimp only
        rw [EntityKind.generation_asserted, EntityKind.digest_asserted,
          EntityKind.generation_asserted, EntityKind.digest_asserted]
        rfl
  | @equivocation incumbent payload admitted recorded =>
      rw [admitted]
      dsimp only
      unfold recordConflict
      rw [recorded]
      refine ⟨fun result r => (result.bind fun _ => .error equivocationError, r), fun _ _ => rfl, ?_⟩
      refine congrArg (r.journalled _ >>= ·) (funext fun outcome => ?_)
      rcases outcome with ⟨_ | attempt, r'⟩ <;> rfl

theorem publishAdmitted_kept
    (taken : ∀ work, Records r kind value work → ¬CommitRefused files r work.mutation s) :
    r.KeepsCount ((r.publishAdmitted kind value).run files s).1 := by
  unfold publishAdmitted
  rw [← EntityKind.contentDigest]
  dsimp only
  cases admitted : admission kind (r.tables kind) value (kind.contentDigest value) with
  | refused e => exact rfl
  | held latest => exact rfl
  | equivocated incumbent =>
      dsimp only
      unfold recordConflict
      cases recorded : (conflictRecord (r.equivocationMarker kind value incumbent
        (kind.contentDigest value))).data with
      | none => exact rfl
      | some payload =>
          have taken := taken _ (.equivocation admitted recorded)
          have kept := journalled_kept (Work.steady _) taken
          apply kept_bind kept
          rintro ⟨_ | attempt, r'⟩ <;> exact rfl
  | accepted =>
      dsimp only
      unfold recordPublication
      cases recorded : (kind.encode (kind.asserted r.currentEpoch (kind.contentDigest value) .none value)
        (.empty : ByteWriter Limits.maxCanonicalRecordBytes)).data with
      | none => exact rfl
      | some payload =>
          have taken := taken _ (.publication admitted recorded)
          have kept := journalled_kept (Work.steady _) taken
          apply kept_bind kept
          rintro ⟨_ | attempt, r'⟩ <;> exact rfl

def Untroubled (files : State → (q : Request FileName) → Reply q × State) (clock : UInt64)
    (r : Registry) (s : State) (call : Call) : Prop :=
  ∀ work r₁ s₁, Attempts files clock r s call work r₁ s₁ → ¬CommitRefused files r₁ work.mutation s₁

theorem publishEntity_kept (untroubled : Untroubled files clock r s call)
    (asserts : r.asserts call = some ⟨kind, value⟩) (clears : r.clears call = .ok ()) :
    r.KeepsCount ((r.publishEntity kind value).run files s).1 := by
  unfold publishEntity
  cases valid : kind.validate value with
  | error e => exact rfl
  | ok =>
      dsimp only
      split
      · exact rfl
      next positive =>
        cases full : r.windowFull kind (kind.entityId value) with
        | true =>
            rw [if_pos rfl, Program.run_bind]
            have kept := r.always_compactLocked.run files s
            cases compacted : r.compactLocked.run files s with
            | mk outcome s₁ =>
                obtain ⟨result, r₁⟩ := outcome
                rw [compacted] at kept
                cases result with
                | error e => exact kept
                | ok =>
                    have published := publishAdmitted_kept fun work records =>
                      untroubled work r₁ s₁
                        (.compacting asserts clears valid positive full compacted records)
                    exact Eq.trans published kept
        | false =>
            rw [if_neg Bool.false_ne_true]
            apply publishAdmitted_kept
            intro work records
            apply untroubled work r s
            cases records with
            | publication admitted recorded =>
                exact .directly (.publication asserts clears valid positive full admitted recorded)
            | equivocation admitted recorded =>
                exact .directly (.equivocation asserts clears valid positive full admitted recorded)

theorem stagedCount_tick (r : Registry) (clock : UInt64) :
    (r.tick clock).store.stagedCount = r.store.stagedCount := by
  rw [r.store_tick]

theorem call_kept (untroubled : Untroubled files clock r s call) :
    r.KeepsCount ((r.call clock call).run files s).1 := by
  have ticked : (r.tick clock).store = r.store := r.store_tick clock
  have published {value : (kind : EntityKind) × kind.Carrier} (asserts : r.asserts call = some value) :
      r.KeepsCount ((r.call clock call).run files s).1 := by
    cases clears : r.clears call with
    | error e =>
        rw [call_of_not_clears asserts clears]
        exact rfl
    | ok =>
        rw [call_of_clears asserts clears]
        apply kept_bind (publishEntity_kept untroubled asserts clears)
        exact fun _ => rfl
  have journalled {work : Work} (undertakes : Undertakes clock r call work (r.tick clock)) :
      r.KeepsCount (((r.tick clock).journalled work.mutation).run files s).1 := by
    have kept := journalled_kept work.steady (untroubled work _ s (.directly undertakes))
    unfold KeepsCount at kept ⊢
    rw [kept, ticked]
  cases call with
  | publishClass value origin => exact published rfl
  | publishPolicy value origin => exact published rfl
  | publishPath value origin => exact published rfl
  | publishCapability value => exact published rfl
  | publishReservation value => exact published rfl
  | registerPublisher publisher incarnation boot ttlMs origin =>
      apply kept_bind (p := r.registerPublisher clock publisher incarnation boot ttlMs origin)
      · unfold registerPublisher
        dsimp only
        cases granted : (r.tick clock).grant publisher incarnation boot ttlMs with
        | error e => exact congrArg Store.stagedCount ticked
        | ok lease =>
            dsimp only
            cases recorded : (leaseRecord lease origin).data with
            | none => exact congrArg Store.stagedCount ticked
            | some payload =>
                apply kept_bind (journalled (.registration granted recorded))
                rintro ⟨_ | attempt, r'⟩ <;> exact rfl
      · exact fun _ => rfl
  | revokePublisher publisher incarnation =>
      apply kept_bind (p := r.revokePublisher clock publisher incarnation)
      · unfold revokePublisher
        dsimp only
        split
        · exact congrArg Store.stagedCount ticked
        next named =>
          cases held : ((r.tick clock).leases.lookup publisher).filter
              (·.incarnation == incarnation) with
          | none => exact congrArg Store.stagedCount ticked
          | some removed =>
              dsimp only
              cases recorded : (revocationRecord publisher incarnation).data with
              | none => exact congrArg Store.stagedCount ticked
              | some payload =>
                  rw [Bool.not_eq_true] at named
                  apply kept_bind (journalled (.revocation named held recorded))
                  rintro ⟨_ | attempt, r'⟩ <;> exact rfl
      · exact fun _ => rfl
  | expireLeases => exact congrArg Store.stagedCount ticked
  | advanceEpoch reason =>
      apply kept_bind (p := r.advanceEpochLocked reason) (r.always_advanceEpochLocked reason |>.run files s)
      exact fun _ => rfl
  | evaluate request =>
      apply kept_bind (p := r.evaluate clock request)
      · unfold Registry.evaluate
        dsimp only
        cases decided : (r.tick clock).decide request with
        | error e => exact congrArg Store.stagedCount ticked
        | ok decision =>
            dsimp only
            unfold recordDecision
            cases recorded : (encodeDecision decision
              (.empty : ByteWriter Limits.maxCanonicalRecordBytes)).data with
            | none => exact congrArg Store.stagedCount ticked
            | some payload =>
                apply kept_bind
                · apply kept_bind (journalled (.decision decided recorded))
                  rintro ⟨_ | attempt, r'⟩ <;> exact rfl
                · rintro ⟨_ | _, r'⟩ <;> exact rfl
      · exact fun _ => rfl
  | compact =>
      apply kept_bind (p := r.compactLocked) (r.always_compactLocked.run files s)
      exact fun _ => rfl
  | setNowMillis value => exact rfl

theorem call_leaks {r₁ : Registry} {s₁ : State} (attempts : Attempts files clock r s call work r₁ s₁)
    (refused : CommitRefused files r₁ work.mutation s₁) :
    r.store.stagedCount < Limits.maxJournalIntentsInFlight ∧
      ((r.call clock call).run files s).1.2.store.stagedCount = r.store.stagedCount + 1 := by
  obtain ⟨e, r₂, journalled, few, more⟩ := refused.leaks work.steady
  cases attempts with
  | directly undertakes =>
      obtain ⟨finish, kept, course⟩ := undertakes.courses
      have count : r₁.store.stagedCount = r.store.stagedCount := by
        cases undertakes with
        | publication | equivocation => rfl
        | registration | revocation | decision => exact stagedCount_tick r clock
      rw [course, Program.run_bind, journalled]
      dsimp only [Program.pure_eq_done, Program.run_done]
      rw [kept, ← count]
      exact ⟨few, more⟩
  | @compacting _ kind value _ _ asserts clears valid positive full compacted records =>
      obtain ⟨finish, kept, course⟩ := records.courses
      have count := r.always_compactLocked.run files s
      rw [compacted] at count
      have count : r₁.store.stagedCount = r.store.stagedCount := count
      rw [call_of_clears asserts clears]
      unfold publishEntity
      rw [valid]
      dsimp only
      rw [if_neg positive, if_pos full, Program.run_bind, Program.run_bind, compacted]
      dsimp only
      rw [course, Program.run_bind, journalled]
      dsimp only [Program.pure_eq_done, Program.run_done]
      rw [kept, ← count]
      exact ⟨few, more⟩

def OpensWith (count : UInt32) : Result Registry → Prop
  | .error _ => True
  | .ok r => r.store.stagedCount = count

theorem always_restore (options : RegistryOptions) (store : Store) (clock : UInt64) :
    (Registry.restore options store clock).Always (OpensWith store.stagedCount) := by
  unfold Registry.restore
  cases load : (fresh options store clock).loadSnapshotState store.snapshotBytes with
  | error e => trivial
  | ok loaded =>
      dsimp only
      cases rebuilt : loaded.rebuildFromLog store.replayed with
      | error e => trivial
      | ok x =>
          have same : x.store = store := (unread_of_recovered load rebuilt).store
          dsimp only
          split
          · exact congrArg Store.stagedCount same
          · apply (always_advanceEpochLocked ..).bind
            rintro ⟨_ | epoch, x'⟩ kept
            · trivial
            · exact Eq.trans kept (congrArg Store.stagedCount same)

theorem always_openRegistry (options : RegistryOptions) (clock : UInt64) (boot : Bytes) :
    (Registry.open options clock boot).Always (OpensWith 0) := by
  unfold Registry.open
  split
  · trivial
  · apply (Store.always_open ..).bind
    rintro (_ | store) sets
    · trivial
    · have none : store.stagedCount = 0 := sets
      rw [← none]
      exact always_restore options store clock

/-- Between operations nothing is in flight exactly as long as no commit has been refused. -/
theorem intents_leak_iff {moments : List (Moment State)} (serves : Serves files moments r s) :
    r.store.stagedCount = 0 ↔ ∀ moment ∈ moments, ¬moment.RefusesCommit files := by
  induction serves with
  | @opened options clock boot s s' r run =>
      have opens := (always_openRegistry options clock boot).run files s
      rw [run] at opens
      exact iff_of_true opens fun _ mem => absurd mem List.not_mem_nil
  | @called moments r r' s s' clock call answer serves run ih =>
      rw [List.forall_mem_append, List.forall_mem_singleton, ← ih]
      by_cases refuses : Moment.RefusesCommit files ⟨r, s, clock, call⟩
      · obtain ⟨work, r₁, s₁, attempts, refused⟩ := refuses
        obtain ⟨few, more⟩ := call_leaks attempts refused
        rw [run] at more
        refine iff_of_false ?_ fun none => none.2 ⟨work, r₁, s₁, attempts, refused⟩
        intro none
        rw [show r'.store.stagedCount = r.store.stagedCount + 1 from more] at none
        exact absurd (staged_pos few) (none ▸ UInt32.lt_irrefl _)
      · have untroubled : Untroubled files clock r s call :=
          fun work r₁ s₁ attempts refused => refuses ⟨work, r₁, s₁, attempts, refused⟩
        have kept := call_kept untroubled
        rw [run] at kept
        rw [show r'.store.stagedCount = r.store.stagedCount from kept]
        exact (and_iff_left refuses).symm
  | @closed moments r r' s s' result serves run ih =>
      have kept := (Store.always_close r.store).run files s
      have same : r'.store.stagedCount = r.store.stagedCount := by
        unfold Registry.close at run
        rw [Program.run_bind] at run
        obtain rfl : _ = r' := congrArg (·.1.2) run
        exact kept
      rw [same, ih]

def tightLog : RegistryOptions := { RegistryOptions.default with maxWalBytes := 450 }

def enrol (incarnation : PublisherIncarnation) : Call :=
  .registerPublisher (text "p1") incarnation ⟨List.replicate 16 1, BootId.size_ones⟩ 10 []

theorem tightLog_leaks :
    (match execute (Registry.open tightLog 0 (List.replicate 16 7)) Disk.empty with
      | (.ok r, d) =>
          let first := execute (r.call 0 (enrol 1)) d
          (execute (first.1.2.call 0 (enrol 2)) first.2).1.2.store.stagedCount == 1
      | (.error _, _) => false) = true := by
  decide +kernel

theorem exists_leak : ∃ moments r d, Serves Disk.answer moments r d ∧ moments.length = 2 ∧
    r.store.stagedCount = 1 := by
  have leaks := tightLog_leaks
  cases opened : execute (Registry.open tightLog 0 (List.replicate 16 7)) Disk.empty with
  | mk result d =>
      rw [opened] at leaks
      cases result with
      | error e => cases leaks
      | ok r =>
          dsimp only at leaks
          obtain ⟨⟨⟨_, r₁⟩, d₁⟩, first⟩ : ∃ ends, execute (r.call 0 (enrol 1)) d = ends := ⟨_, rfl⟩
          rw [first] at leaks
          obtain ⟨⟨⟨_, r₂⟩, d₂⟩, second⟩ : ∃ ends, execute (r₁.call 0 (enrol 2)) d₁ = ends :=
            ⟨_, rfl⟩
          rw [second] at leaks
          exact ⟨_, r₂, d₂, .called (.called (.opened opened) first) second, rfl,
            beq_iff_eq.mp leaks⟩

theorem intents_leak_iff_tightLog : ∃ moments r d, Serves Disk.answer moments r d ∧
    moments.length = 2 ∧ r.store.stagedCount = 1 ∧
      (r.store.stagedCount = 0 ↔ ∀ moment ∈ moments, ¬moment.RefusesCommit Disk.answer) := by
  obtain ⟨moments, r, d, serves, length, count⟩ := exists_leak
  exact ⟨moments, r, d, serves, length, count, intents_leak_iff serves⟩

/-- A registration that has been refused keeps an intent in flight. -/
theorem registration_leaks : ¬∀ moments r d, Serves Disk.answer moments r d →
    r.store.stagedCount = 0 := by
  intro unleaked
  obtain ⟨moments, r, d, serves, -, count⟩ := exists_leak
  rw [unleaked moments r d serves] at count
  exact absurd count (by decide)

end QoSFabric
