import QoSFabric.Proof.Registry.Refusal

/-!
# Closed registries

A store that has been closed appends nothing, so a registry that has been closed journals nothing.
Nothing keeps it from compacting: a snapshot is written by a store that is closed as by one that is
open, and behind a compaction asked for there are two that an operation starts by itself.
-/

namespace QoSFabric

open FileSystem Interaction Registry

variable {r r' r₁ : Registry} {clock : UInt64} {kind : EntityKind} {call : Call} {s : Store}

/-- A call that compacts, if the snapshot is within its budget: as it is asked to, to make room in
the window of an identifier, or because too many intents are in flight. -/
inductive Registry.Retires (clock : UInt64) (r : Registry) : Call → Prop where
  | compact {bytes : Bytes} (encoded : r.prune.encodeSnapshotState = .ok bytes) :
      Retires clock r .compact
  | full {call : Call} {kind : EntityKind} {value : kind.Carrier} {bytes : Bytes}
      (asserts : r.asserts call = some ⟨kind, value⟩) (clears : r.clears call = .ok ())
      (valid : kind.validate value = .ok ()) (positive : kind.generation value ≠ 0)
      (full : r.windowFull kind (kind.entityId value) = true)
      (encoded : r.prune.encodeSnapshotState = .ok bytes) : Retires clock r call
  | crowded {call : Call} {work : Work} {r₁ : Registry} {bytes : Bytes}
      (undertakes : Undertakes clock r call work r₁)
      (crowded : r.store.stagedCount ≥ Limits.maxJournalIntentsInFlight)
      (encoded : r₁.prune.encodeSnapshotState = .ok bytes) : Retires clock r call

theorem appendFrame_closed (closed : s.readOnly = true) (type : RecordType) (flags : UInt8)
    (attempt : AttemptId) (payload : Bytes) :
    s.appendFrame type flags attempt payload =
      .done (.error (makeError .shuttingDown "store is closed"), s) := by
  unfold Store.appendFrame
  rw [closed]
  rfl

theorem stage_closed (closed : s.readOnly = true) (type : RecordType) (payload : Bytes) :
    ∃ e, s.stage type payload = .done (.error e, s) ∧
      (e.code = .capacityExhausted → s.stagedCount ≥ Limits.maxJournalIntentsInFlight) := by
  unfold Store.stage
  split
  · next crowded => exact ⟨_, rfl, fun _ => crowded⟩
  · dsimp only
    split
    · exact ⟨_, rfl, nofun⟩
    · rw [appendFrame_closed closed]
      exact ⟨_, rfl, nofun⟩

theorem readOnly_of_close {State : Type} {W : Program.World (Request FileName) Reply State}
    {t : Store} {e e' : State} (closing : s.close.Ends W e (.ok (), t) e') : t.readOnly = true := by
  unfold Store.close at closing
  split at closing
  · next closed =>
      cases closing
      exact closed
  · split at closing
    · cases closing
      rfl
    · obtain ⟨⟨result, u⟩, m, -, rest⟩ := Program.ends_bind.mp closing
      cases result with
      | error failure => cases rest
      | ok =>
          cases rest
          rfl

def Quiet {α : Type} (r : Registry) (p : Files (α × Registry)) : Prop :=
  ∃ a r', p = .done (a, r') ∧ r'.store = r.store

theorem Quiet.done {α : Type} (a : α) (same : r'.store = r.store) :
    Quiet r (pure (a, r') : Files (α × Registry)) :=
  ⟨a, r', rfl, same⟩

theorem Quiet.bind {α β : Type} {p : Files (α × Registry)} {f : α × Registry → Files (β × Registry)}
    (quiet : Quiet r p) (rest : ∀ a r', r'.store = r.store → Quiet r (f (a, r'))) :
    Quiet r (p >>= f) := by
  obtain ⟨a, r', rfl, same⟩ := quiet
  exact rest a r' same

theorem Quiet.answers {α : Type} {p : Files (α × Registry)} (quiet : Quiet r p) (f : α → Answer) :
    Quiet r (p >>= fun outcome => pure (f outcome.1, outcome.2)) :=
  quiet.bind fun _ _ same => .done _ same

theorem compactLocked_unencoded (unencoded : ∀ bytes, r.prune.encodeSnapshotState ≠ .ok bytes) :
    ∃ e, r.compactLocked = .done (.error e, r.prune) := by
  unfold compactLocked
  cases encoded : r.prune.encodeSnapshotState with
  | error e => exact ⟨e, by simp [encoded]⟩
  | ok bytes => exact absurd encoded (unencoded bytes)

theorem journalled_closed (closed : r.store.readOnly = true)
    (spared : r.store.stagedCount ≥ Limits.maxJournalIntentsInFlight →
      ∀ bytes, r.prune.encodeSnapshotState ≠ .ok bytes) (m : Mutation) :
    ∃ e r', r.journalled m = .done (.error e, r') ∧ r'.store = r.store := by
  obtain ⟨e, staged, crowds⟩ := stage_closed closed m.type m.payload
  unfold journalled stageWithRetry
  rw [staged]
  simp only [Program.done_bind]
  split
  · next exhausted =>
      obtain ⟨failure, compacts⟩ := compactLocked_unencoded (spared (crowds exhausted))
      rw [show ({ r with store := r.store } : Registry) = r from rfl, compacts]
      exact ⟨failure, _, rfl, rfl⟩
  · exact ⟨e, _, rfl, rfl⟩

theorem Undertakes.store {work : Work} (undertakes : Undertakes clock r call work r₁) :
    r₁.store = r.store := by
  cases undertakes with
  | publication | equivocation => rfl
  | registration | revocation | decision => exact r.store_tick clock

theorem Undertakes.quiet {work : Work} (undertakes : Undertakes clock r call work r₁)
    (closed : r.store.readOnly = true) (spared : ¬r.Retires clock call) :
    Quiet r (r.call clock call) := by
  have same := undertakes.store
  obtain ⟨finish, failed, course⟩ := undertakes.courses
  obtain ⟨e, r', refused, kept⟩ := journalled_closed (r := r₁) (same ▸ closed)
    (fun crowded bytes encoded => spared (.crowded undertakes (same ▸ crowded) encoded)) work.mutation
  rw [course, refused]
  refine ⟨_, _, rfl, ?_⟩
  rw [failed]
  exact kept.trans same

theorem quiet_publishEntity {value : kind.Carrier} (closed : r.store.readOnly = true)
    (asserts : r.asserts call = some ⟨kind, value⟩) (clears : r.clears call = .ok ())
    (spared : ¬r.Retires clock call) : Quiet r (r.call clock call) := by
  by_cases undertaken : ∃ work r₁, Undertakes clock r call work r₁
  · obtain ⟨work, r₁, undertakes⟩ := undertaken
    exact undertakes.quiet closed spared
  rw [call_of_clears asserts clears]
  refine Quiet.answers ?_ _
  unfold publishEntity
  cases valid : kind.validate value with
  | error e => exact .done _ rfl
  | ok =>
      dsimp only
      split
      · exact .done _ rfl
      next positive =>
        cases full : r.windowFull kind (kind.entityId value) with
        | true =>
            obtain ⟨e, compacts⟩ := compactLocked_unencoded fun bytes encoded =>
              spared (.full asserts clears valid positive full encoded)
            rw [if_pos rfl, compacts]
            exact .done _ rfl
        | false =>
            rw [if_neg Bool.false_ne_true]
            unfold publishAdmitted
            rw [← EntityKind.contentDigest]
            dsimp only
            cases admitted : admission kind (r.tables kind) value (kind.contentDigest value) with
            | refused e => exact .done _ rfl
            | held latest => exact .done _ rfl
            | equivocated incumbent =>
                dsimp only
                unfold recordConflict
                cases recorded : (conflictRecord (r.equivocationMarker kind value incumbent
                    (kind.contentDigest value))).data with
                | none => exact .done _ rfl
                | some payload =>
                    exact absurd ⟨_, _, .equivocation asserts clears valid positive full admitted
                      recorded⟩ undertaken
            | accepted =>
                dsimp only
                unfold recordPublication
                cases recorded : (kind.encode (kind.asserted r.currentEpoch (kind.contentDigest value)
                    .none value) (.empty : ByteWriter Limits.maxCanonicalRecordBytes)).data with
                | none => exact .done _ rfl
                | some payload =>
                    exact absurd ⟨_, _, .publication asserts clears valid positive full admitted
                      recorded⟩ undertaken

theorem call_quiet (closed : r.store.readOnly = true) (spared : ¬r.Retires clock call) :
    Quiet r (r.call clock call) := by
  by_cases undertaken : ∃ work r₁, Undertakes clock r call work r₁
  · obtain ⟨work, r₁, undertakes⟩ := undertaken
    exact undertakes.quiet closed spared
  have ticked := r.store_tick clock
  have publishes {kind : EntityKind} {value : kind.Carrier}
      (asserts : r.asserts call = some ⟨kind, value⟩) (clears : r.clears call = .ok ()) :
      Quiet r (r.call clock call) := quiet_publishEntity closed asserts clears spared
  cases call with
  | publishClass | publishPolicy | publishPath => exact publishes rfl rfl
  | publishCapability value =>
      cases clears : r.clears (.publishCapability value) with
      | ok => exact publishes rfl clears
      | error e =>
          rw [call_of_not_clears rfl clears]
          exact .done _ rfl
  | publishReservation value =>
      cases clears : r.clears (.publishReservation value) with
      | ok => exact publishes rfl clears
      | error e =>
          rw [call_of_not_clears rfl clears]
          exact .done _ rfl
  | registerPublisher publisher incarnation boot ttlMs origin =>
      refine Quiet.answers (p := r.registerPublisher clock publisher incarnation boot ttlMs origin) ?_ _
      unfold registerPublisher
      dsimp only
      cases granted : (r.tick clock).grant publisher incarnation boot ttlMs with
      | error e => exact .done _ ticked
      | ok lease =>
          dsimp only
          cases recorded : (leaseRecord lease origin).data with
          | none => exact .done _ ticked
          | some payload => exact absurd ⟨_, _, .registration granted recorded⟩ undertaken
  | revokePublisher publisher incarnation =>
      refine Quiet.answers (p := r.revokePublisher clock publisher incarnation) ?_ _
      unfold revokePublisher
      dsimp only
      cases named : (!isValid publisher || incarnation == 0) with
      | true => exact .done _ ticked
      | false =>
          rw [if_neg Bool.false_ne_true]
          cases held : ((r.tick clock).leases.lookup publisher).filter
              (·.incarnation == incarnation) with
          | none => exact .done _ ticked
          | some removed =>
              dsimp only
              cases recorded : (revocationRecord publisher incarnation).data with
              | none => exact .done _ ticked
              | some payload => exact absurd ⟨_, _, .revocation named held recorded⟩ undertaken
  | expireLeases => exact .done _ ticked
  | advanceEpoch reason =>
      refine Quiet.answers (p := r.advanceEpochLocked reason) ?_ _
      unfold advanceEpochLocked
      split
      · exact .done _ rfl
      · split
        · exact .done _ rfl
        · unfold Store.append
          rw [appendFrame_closed closed]
          exact .done _ rfl
  | evaluate request =>
      refine Quiet.answers (p := r.evaluate clock request) ?_ _
      unfold Registry.evaluate
      dsimp only
      cases decided : (r.tick clock).decide request with
      | error e => exact .done _ ticked
      | ok decision =>
          dsimp only
          unfold recordDecision
          cases recorded : (encodeDecision decision
              (.empty : ByteWriter Limits.maxCanonicalRecordBytes)).data with
          | none => exact .done _ ticked
          | some payload => exact absurd ⟨_, _, .decision decided recorded⟩ undertaken
  | compact =>
      obtain ⟨e, compacts⟩ := compactLocked_unencoded fun bytes encoded =>
        spared (.compact encoded)
      refine Quiet.answers (p := r.compactLocked) ?_ _
      rw [compacts]
      exact .done _ rfl
  | setNowMillis value => exact .done _ rfl

theorem close_quiet (closed : r.store.readOnly = true) : Quiet r r.close := by
  unfold Registry.close Store.close
  rw [if_pos closed]
  exact .done _ rfl

section Runs

variable {State : Type} {W : Program.World (Request FileName) Reply State}
  {meets : UInt64 → Registry → Call → Prop} {e e' : State}

/-- Operations on a registry one after another, closing among them, each call of which meets a
condition. -/
inductive Continues (W : Program.World (Request FileName) Reply State)
    (meets : UInt64 → Registry → Call → Prop) : Registry → State → Registry → State → Prop where
  | here {r : Registry} {e : State} : Continues W meets r e r e
  | called {r r' r'' : Registry} {e e' e'' : State} {clock : UInt64} {call : Call} {answer : Answer}
      (before : Continues W meets r e r' e') (met : meets clock r' call)
      (run : (r'.call clock call).Ends W e' (answer, r'') e'') : Continues W meets r e r'' e''
  | closed {r r' r'' : Registry} {e e' e'' : State} {result : Result Unit}
      (before : Continues W meets r e r' e') (run : r'.close.Ends W e' (result, r'') e'') :
      Continues W meets r e r'' e''

theorem Quiet.ends {α : Type} {p : Files (α × Registry)} {a : α} (quiet : Quiet r p)
    (run : p.Ends W e (a, r') e') : r'.store = r.store ∧ e' = e := by
  obtain ⟨b, t, rfl, same⟩ := quiet
  cases run
  exact ⟨same, rfl⟩

/-- Whatever is done to a registry once it has been closed, short of what compacts, leaves the files
as they were. -/
theorem closed_registry_idle {r r' r'' : Registry} {e e' e'' : State}
    (closing : r.close.Ends W e (.ok (), r') e')
    (continues : Continues W (fun clock r call => ¬r.Retires clock call) r' e' r'' e'') :
    e'' = e' := by
  have closed : r'.store.readOnly = true := by
    unfold Registry.close at closing
    obtain ⟨⟨result, s⟩, m, ended, rest⟩ := Program.ends_bind.mp closing
    cases rest
    exact readOnly_of_close ended
  suffices r''.store.readOnly = true ∧ e'' = e' from this.2
  clear closing
  induction continues with
  | here => exact ⟨closed, rfl⟩
  | called before spared run ih =>
      obtain ⟨closed', rfl⟩ := ih
      obtain ⟨same, unchanged⟩ := (call_quiet closed' spared).ends run
      exact ⟨same ▸ closed', unchanged⟩
  | closed before run ih =>
      obtain ⟨closed', rfl⟩ := ih
      obtain ⟨same, unchanged⟩ := (close_quiet closed').ends run
      exact ⟨same ▸ closed', unchanged⟩

end Runs

def compactsClosed : Bool :=
  match execute (Registry.open .default 5 (List.replicate 16 7)) Disk.empty with
  | (.ok r, d) =>
      match execute r.close d with
      | ((.ok (), r'), d') => r.currentEpoch == 1 &&
          (execute (r'.call 6 .compact) d').2.content walFileName != d'.content walFileName
      | _ => false
  | _ => false

theorem exists_closed : ∃ r d r' d', Run .any
      [.opened .default 5 (List.replicate 16 7) (.ok 1)] (.up r d) ∧
    r.close.Ends Disk.world d (.ok (), r') d' ∧
    (execute (r'.call 6 .compact) d').2.content walFileName ≠ d'.content walFileName := by
  have rehearsal : compactsClosed = true := by decide +kernel
  unfold compactsClosed at rehearsal
  split at rehearsal
  next r d opening =>
    split at rehearsal
    next r' d' closing =>
      rw [Bool.and_eq_true, beq_iff_eq, bne_iff_ne] at rehearsal
      have admitted : Openings.any .default Disk.empty := trivial
      have step := Step.opened admitted (ends_of_execute opening)
      rw [rehearsal.1] at step
      exact ⟨r, d, r', d', .next .start step trivial, ends_of_execute closing, rehearsal.2⟩
    · cases rehearsal
  · cases rehearsal

/-- A registry that has been closed compacts when it is asked to. -/
theorem closed_registry_compacts : ¬∀ openings events r d r' d' r'' d'',
    Run openings events (.up r d) → r.close.Ends Disk.world d (.ok (), r') d' →
    Continues Disk.world (fun _ _ _ => True) r' d' r'' d'' → d'' = d' := by
  intro silent
  obtain ⟨r, d, r', d', run, closing, retired⟩ := exists_closed
  have compacted : Continues Disk.world (fun _ _ _ => True) r' d'
      (execute (r'.call 6 .compact) d').1.2 (execute (r'.call 6 .compact) d').2 :=
    .called .here trivial (ends_of_execute (a := (execute (r'.call 6 .compact) d').1) rfl)
  rw [silent _ _ r d r' d' _ _ run closing compacted] at retired
  exact retired rfl

theorem closed_registry_idle_advance : ∃ r d r' d', Run .any
      [.opened .default 5 (List.replicate 16 7) (.ok 1)] (.up r d) ∧
    r.close.Ends Disk.world d (.ok (), r') d' ∧
    (execute (r'.call 6 (.advanceEpoch [])) d').2 = d' := by
  obtain ⟨r, d, r', d', run, closing, -⟩ := exists_closed
  refine ⟨r, d, r', d', run, closing, closed_registry_idle closing (.called .here ?_
    (ends_of_execute (a := (execute (r'.call 6 (.advanceEpoch [])) d').1) rfl))⟩
  intro retires
  cases retires with
  | full asserts => cases asserts
  | crowded undertakes =>
      cases undertakes with
      | publication asserts => cases asserts
      | equivocation asserts => cases asserts

end QoSFabric
