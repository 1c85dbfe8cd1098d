import QoSFabric.Proof.Registry.Effect
import QoSFabric.Proof.Registry.Recovery
import QoSFabric.Proof.Store.Reading

namespace QoSFabric

open FileSystem Interaction

/-- What a directory keeps while no registry works on it. -/
def Keeps (d : Disk FileName) (D : Durable) : Prop :=
  (∃ (budget : Nat) (j : Journal), budget ≤ Limits.maxWalRecordBytes ∧ Rests budget d D.payload j ∧
    j.history = D.history) ∨ Vacant d ∧ D = .empty

def Drives (s : Store) (d : Disk FileName) (D : Durable) : Prop :=
  ∃ j : Journal, Running s d D.payload j ∧ j.history = D.history

variable {s : Store} {d : Disk FileName} {D : Durable} {r : Registry} {crash : Disk FileName → Prop}

theorem Running.keeps {payload : Bytes} {j k : Journal} {e : Disk FileName}
    (running : Running s d payload j) (rests : Rests s.options.maxRecordBytes e D.payload k)
    (history : k.history = D.history) : Keeps e D :=
  .inl ⟨_, k, running.small, rests, history⟩

theorem Drives.keeps (drives : Drives s d D) : Keeps d D := by
  obtain ⟨j, running, history⟩ := drives
  exact running.keeps running.rests history

/-! ## One more entry in the history -/

namespace Journal

variable {j : Journal} {sequence : Sequence} {type : RecordType} {payload : Bytes}

theorem Lawful.history_stage (lawful : Lawful j) :
    history (j ++ [(sequence, .stage type payload)]) = j.history := by
  rw [lawful.history_snoc]
  exact List.append_nil _

theorem Lawful.history_append (lawful : Lawful j) :
    history (j ++ [(sequence, .append type payload)]) =
      j.history ++ (if type.silent then none else some ⟨type, sequence, payload⟩).toList := by
  rw [lawful.history_snoc]
  rfl

theorem Lawful.history_commit (lawful : Lawful j) {attempt : AttemptId}
    {appliedDigest : Digest256} (pending : (attempt, type, payload) ∈ j.pending) :
    history (j ++ [(sequence, .commit attempt appliedDigest)]) =
      j.history ++ [⟨type, sequence, payload⟩] := by
  obtain ⟨-, e, mem, staged⟩ := mem_pending.mp pending
  rw [lawful.history_snoc, record, stagedUnder_append (lawful.stagedUnder_of_mem mem staged)]
  rfl

theorem Lawful.later_of_snoc {e : Entry} (lawful : Lawful (j ++ [(sequence, e)])) :
    ∀ x ∈ j, x.1 < sequence := by
  generalize grown : j ++ [(sequence, e)] = k at lawful
  cases lawful with
  | nil => simp at grown
  | snoc _ later _ =>
      obtain ⟨rfl, last⟩ := List.append_inj' grown rfl
      cases last
      exact later

theorem Lawful.pending_stage (lawful : Lawful (j ++ [(sequence, .stage type payload)]))
    (before : Lawful j) :
    (sequence, type, payload) ∈ pending (j ++ [(sequence, .stage type payload)]) := by
  apply mem_pending.mpr
  refine ⟨?_, .stage type payload, List.mem_append_right _ (List.mem_singleton_self _), rfl⟩
  rw [resolved_snoc, before.not_resolved lawful.later_of_snoc]
  rfl

end Journal

theorem Running.lawful {payload : Bytes} {j : Journal} (running : Running s d payload j) :
    j.Lawful := by
  obtain ⟨m, snapshot, covered, -, holding, -⟩ := running
  exact holding.lawful

/-! ## Programs of the store -/

def Awaits (s : Store) (d : Disk FileName) (D : Durable) (attempt : AttemptId) (type : RecordType)
    (payload : Bytes) : Prop :=
  ∃ j : Journal, Running s d D.payload j ∧ j.history = D.history ∧
    (attempt, type, payload) ∈ j.pending

section Store

variable {type : RecordType} {body : Bytes} {attempt : AttemptId}

theorem Awaits.drives (awaits : Awaits s d D attempt type body) : Drives s d D := by
  obtain ⟨j, running, history, -⟩ := awaits
  exact ⟨j, running, history⟩

theorem Drives.wp_stage {post : Result AttemptId × Store → Disk FileName → Prop}
    (drives : Drives s d D) (kept : ∀ e, Keeps e D → crash e)
    (failed : ∀ failure, post (.error failure, s) d)
    (staged : ∀ a s' e, Awaits s' e D a type body → post (.ok a, s') e) :
    (s.stage type body).wp Disk.world crash post d := by
  obtain ⟨j, running, history⟩ := drives
  have lawful := running.lawful
  apply running.wp_stage
  constructor
  · intro e rests
    exact kept e (running.keeps rests history)
  · intro e next a names _ rests
    exact kept e (running.keeps rests (lawful.history_stage.trans history))
  · exact failed
  · intro e s' next a names wrote running'
    cases names
    exact staged _ s' e ⟨_, running', lawful.history_stage.trans history,
      running'.lawful.pending_stage lawful⟩

theorem Awaits.wp_commit {appliedDigest : Digest256}
    {post : Result Unit × Store → Disk FileName → Prop}
    (awaits : Awaits s d D attempt type body) (kept : ∀ e, Keeps e D → crash e)
    (grown : ∀ e next, Keeps e (D.snoc ⟨type, next, body⟩) → crash e)
    (failed : ∀ failure, post (.error failure, s) d)
    (done : ∀ next s' e, Drives s' e (D.snoc ⟨type, next, body⟩) → post (.ok (), s') e) :
    (s.commit attempt appliedDigest).wp Disk.world crash post d := by
  obtain ⟨j, running, history, pending⟩ := awaits
  have lawful := running.lawful
  have snoc (next : Sequence) : Journal.history (j ++ [(next, .commit attempt appliedDigest)]) =
      (D.snoc ⟨type, next, body⟩).history := by
    rw [lawful.history_commit pending, history]
    rfl
  apply running.wp_commit ⟨_, pending⟩
  constructor
  · intro e rests
    exact kept e (running.keeps rests history)
  · intro e next _ _ _ rests
    exact grown e next (running.keeps rests (snoc next))
  · exact failed
  · intro e s' next _ _ _ running'
    exact done next s' e ⟨_, running', snoc next⟩

theorem Drives.wp_append {post : Result Sequence × Store → Disk FileName → Prop}
    (drives : Drives s d D) (wellFormed : type.WellFormed body)
    (loud : type.silent = false) (kept : ∀ e, Keeps e D → crash e)
    (grown : ∀ e next, Keeps e (D.snoc ⟨type, next, body⟩) → crash e)
    (failed : ∀ failure, post (.error failure, s) d)
    (done : ∀ next s' e, Drives s' e (D.snoc ⟨type, next, body⟩) → post (.ok next, s') e) :
    (s.append type body).wp Disk.world crash post d := by
  obtain ⟨j, running, history⟩ := drives
  have lawful := running.lawful
  have snoc (next : Sequence) : Journal.history (j ++ [(next, .append type body)]) =
      (D.snoc ⟨type, next, body⟩).history := by
    rw [lawful.history_append, loud, history]
    rfl
  apply running.wp_append wellFormed
  constructor
  · intro e rests
    exact kept e (running.keeps rests history)
  · intro e next _ _ _ rests
    exact grown e next (running.keeps rests (snoc next))
  · exact failed
  · intro e s' next _ names _ running'
    cases names
    exact done next s' e ⟨_, running', snoc next⟩

theorem Drives.wp_close {post : Result Unit × Store → Disk FileName → Prop}
    (drives : Drives s d D) (kept : ∀ e, Keeps e D → crash e)
    (closed : ∀ result s' e, Keeps e D → post (result, s') e) :
    s.close.wp Disk.world crash post d := by
  have idle := kept d drives.keeps
  have still := fun result s' => closed result s' d drives.keeps
  obtain ⟨j, running, history⟩ := drives
  have shut (next : Sequence) :
      Journal.history (j ++ [(next, .append .cleanShutdown [])]) = D.history := by
    rw [running.lawful.history_append, history]
    exact List.append_nil _
  unfold Store.close
  split
  · exact ⟨idle, still _ _⟩
  split
  · exact ⟨idle, still _ _⟩
  rw [Program.wp_bind]
  have wellFormed : RecordType.cleanShutdown.WellFormed [] := trivial
  apply running.wp_append wellFormed
  constructor
  · intro e rests
    exact kept e (running.keeps rests history)
  · intro e next _ _ _ rests
    exact kept e (running.keeps rests (shut next))
  · intro failure
    exact ⟨idle, still _ _⟩
  · intro e s' next _ names _ running'
    cases names
    have keeps : Keeps e D := running'.keeps running'.rests (shut next)
    exact ⟨kept e keeps, closed _ _ e keeps⟩

theorem Drives.wp_writeSnapshot {payload : Bytes}
    {post : Result Unit × Store → Disk FileName → Prop} (drives : Drives s d D)
    (kept : ∀ e, Keeps e D → crash e)
    (replaced : ∀ e, Keeps e ⟨payload, []⟩ → crash e)
    (failed : ∀ failure, post (.error failure, s) d)
    (done : ∀ s' e, Drives s' e ⟨payload, []⟩ → post (.ok (), s') e) :
    (s.writeSnapshot payload).wp Disk.world crash post d := by
  obtain ⟨j, running, history⟩ := drives
  apply running.wp_writeSnapshot
  · intro e rests
    exact kept e (running.keeps rests history)
  · intro e rests
    exact replaced e (running.keeps rests rfl)
  · intro _
    exact failed
  · intro handle e running'
    exact done _ e ⟨[], running', rfl⟩

end Store

/-! ## Programs of the registry -/

section Journalled

open Registry

theorem Registry.withStore_self (r : Registry) : r.withStore r.store = r := rfl

theorem Registry.withStore_withStore (r : Registry) (store store' : Store) :
    (r.withStore store).withStore store' = r.withStore store' := rfl

theorem Registry.store_prune (r : Registry) : r.prune.store = r.store := rfl

theorem Drives.wp_compactLocked {post : Result Unit × Registry → Disk FileName → Prop}
    (drives : Drives r.store d D) (kept : ∀ e, Keeps e D → crash e)
    (replaced : ∀ bytes e, r.prune.encodeSnapshotState = .ok bytes → Keeps e ⟨bytes, []⟩ →
      crash e)
    (failed : ∀ failure store, Drives store d D →
      post (.error failure, r.prune.withStore store) d)
    (done : ∀ bytes store e, r.prune.encodeSnapshotState = .ok bytes →
      Drives store e ⟨bytes, []⟩ → post (.ok (), r.prune.withStore store) e) :
    r.compactLocked.wp Disk.world crash post d := by
  unfold compactLocked
  dsimp only
  cases encoded : r.prune.encodeSnapshotState with
  | error failure =>
      rw [← r.prune.withStore_self]
      exact ⟨kept d drives.keeps, failed failure _ drives⟩
  | ok bytes =>
      dsimp only
      rw [Program.wp_bind, store_prune]
      apply Drives.wp_writeSnapshot (D := D) drives kept
      · intro e keeps
        exact replaced bytes e encoded keeps
      · intro failure
        exact ⟨kept d drives.keeps, failed failure _ drives⟩
      · intro store e drives'
        exact ⟨replaced bytes e encoded drives'.keeps, done bytes store e encoded drives'⟩

theorem Drives.wp_restage {type : RecordType} {payload : Bytes}
    {post : Result AttemptId × Registry → Disk FileName → Prop}
    (drives : Drives r.store d D) (kept : ∀ e, Keeps e D → crash e)
    (failed : ∀ failure, post (.error failure, r) d)
    (staged : ∀ attempt store e, Awaits store e D attempt type payload →
      post (.ok attempt, r.withStore store) e) :
    (do
      let (staged, store) ← r.store.stage type payload
      pure (staged, { r with store }) : Files (Result AttemptId × Registry)).wp
        Disk.world crash post d := by
  rw [Program.wp_bind]
  apply drives.wp_stage kept
  · intro failure
    exact ⟨kept d drives.keeps, failed failure⟩
  · intro attempt store e awaits
    exact ⟨kept e awaits.drives.keeps, staged attempt store e awaits⟩

theorem Drives.wp_stageWithRetry {type : RecordType} {payload : Bytes}
    {post : Result AttemptId × Registry → Disk FileName → Prop}
    (drives : Drives r.store d D)
    (kept : ∀ r' D' e, Readied r D r' D' → Keeps e D' → crash e)
    (failed : ∀ failure r' D' e, Readied r D r' D' → Drives r'.store e D' →
      post (.error failure, r') e)
    (staged : ∀ attempt r' D' e, Readied r D r' D' →
      Awaits r'.store e D' attempt type payload → post (.ok attempt, r') e) :
    (r.stageWithRetry type payload).wp Disk.world crash post d := by
  have same : Readied r D r D := .same r.store
  have idle := kept _ _ d same drives.keeps
  unfold stageWithRetry
  rw [Program.wp_bind]
  apply drives.wp_stage (fun e => kept _ _ e same)
  · intro failure
    dsimp only
    split
    · rw [Program.wp_bind]
      apply Drives.wp_compactLocked (r := r) drives (fun e => kept _ _ e same)
      · intro bytes e encoded keeps
        exact kept _ _ e (.compacted r.store same encoded) keeps
      · intro failure store drives'
        exact ⟨idle, failed _ _ _ d (.pruned store same) drives'⟩
      · intro bytes store e encoded drives'
        have compacted : Readied r D (r.prune.withStore store) ⟨bytes, []⟩ :=
          .compacted store same encoded
        have safe := fun e => kept _ _ e compacted
        apply Drives.wp_restage drives' safe
        · intro failure
          exact failed _ _ _ e compacted drives'
        · intro attempt s' e' awaits
          rw [withStore_withStore]
          exact staged attempt _ _ e' (.compacted s' same encoded) awaits
    · exact ⟨idle, failed _ _ _ d same drives⟩
  · intro attempt s' e awaits
    have here : Readied r D (r.withStore s') D := .same s'
    have safe := kept _ _ e here awaits.drives.keeps
    exact ⟨safe, staged attempt _ _ e here awaits⟩

structure Registry.Mutation.Steady (m : Mutation) : Prop where
  apply : ∀ attempt r, (m.apply attempt r).store = r.store
  rollback : ∀ before r, (m.rollback before r).store = r.store

end Journalled

/-! ## Programs against relations -/

def Performs {α : Type} (p : Files (α × Registry)) (d : Disk FileName)
    (relation : α → Registry → Durable → Prop) : Prop :=
  p.wp Disk.world (fun e => ∃ a r D, relation a r D ∧ Keeps e D)
    (fun a e => ∃ D, relation a.1 a.2 D ∧ Drives a.2.store e D) d

namespace Performs

variable {α β : Type} {p : Files (α × Registry)} {relation : α → Registry → Durable → Prop}
  {relation' : β → Registry → Durable → Prop}

theorem pure {a : α} (drives : Drives r.store d D) (related : relation a r D) :
    Performs (pure (a, r)) d relation :=
  ⟨⟨a, r, D, related, drives.keeps⟩, D, related, drives⟩

theorem bind {f : α × Registry → Files (β × Registry)} (performs : Performs p d relation)
    (cut : ∀ a r D, relation a r D → ∃ b r', relation' b r' D)
    (rest : ∀ a r D e, relation a r D → Drives r.store e D →
      Performs (f (a, r)) e relation') :
    Performs (p >>= f) d relation' := by
  unfold Performs
  rw [Program.wp_bind]
  apply Program.wp_mono performs
  · rintro e ⟨a, r, D, related, keeps⟩
    obtain ⟨b, r', related'⟩ := cut a r D related
    exact ⟨b, r', D, related', keeps⟩
  · rintro ⟨a, r⟩ e ⟨D, related, drives⟩
    exact rest a r D e related drives

theorem result {f : α × Registry → Files (β × Registry)} {g : α → Registry → β × Registry}
    (performs : Performs p d relation) (maps : ∀ a r, f (a, r) = .done (g a r))
    (steady : ∀ a r, (g a r).2.store = r.store)
    (related : ∀ a r D, relation a r D → relation' (g a r).1 (g a r).2 D) :
    Performs (p >>= f) d relation' := by
  apply performs.bind
  · intro a r D h
    exact ⟨_, _, related a r D h⟩
  · intro a r D e h drives
    rw [maps]
    rw [← steady a r] at drives
    exact Performs.pure drives (related a r D h)

end Performs

section Calls

open Registry

theorem Drives.performs_journalled {m : Mutation} (steady : m.Steady)
    (drives : Drives r.store d D) :
    Performs (r.journalled m) d (Journalling m r D) := by
  have idle (r' : Registry) (D' : Durable) (e : Disk FileName) (ready : Readied r D r' D')
      (keeps : Keeps e D') :
      ∃ result r' D', Journalling m r D result r' D' ∧ Keeps e D' :=
    ⟨_, _, _, .refused (makeError .internal "") ready, keeps⟩
  unfold Performs journalled
  rw [Program.wp_bind]
  apply drives.wp_stageWithRetry idle
  · intro failure r' D' e ready drives'
    exact ⟨idle _ _ e ready drives'.keeps, D', .refused failure ready, drives'⟩
  · intro attempt r' D' e ready awaits
    dsimp only
    rw [Program.wp_bind, steady.apply]
    apply awaits.wp_commit (fun e => idle _ _ e ready)
    · intro e' next keeps
      exact ⟨_, _, _, .done attempt next r'.store ready, keeps⟩
    · intro failure
      refine ⟨idle _ _ e ready awaits.drives.keeps, D', .undone failure attempt r'.store ready, ?_⟩
      dsimp only
      rw [steady.rollback]
      exact awaits.drives
    · intro next s' e' drives'
      have done := Journalling.done (m := m) attempt next s' ready
      exact ⟨⟨_, _, _, done, drives'.keeps⟩, _, done, drives'⟩

inductive Compacting (r : Registry) (D : Durable) : Result Unit → Registry → Durable → Prop where
  | done {r' : Registry} {D' : Durable} (compacted : Compacted r r' D') :
      Compacting r D (.ok ()) r' D'
  | failed (e : Error) (store : Store) : Compacting r D (.error e) (r.prune.withStore store) D

theorem Drives.performs_compactLocked (drives : Drives r.store d D) :
    Performs r.compactLocked d (Compacting r D) := by
  apply drives.wp_compactLocked
  · intro e keeps
    exact ⟨_, _, _, .failed (makeError .internal "") r.store, keeps⟩
  · intro bytes e encoded keeps
    exact ⟨_, _, _, .done (.done r.store encoded), keeps⟩
  · intro failure store drives'
    exact ⟨D, .failed failure store, drives'⟩
  · intro bytes store e encoded drives'
    exact ⟨⟨bytes, []⟩, .done (.done store encoded), drives'⟩

theorem Compacting.readied {result : Result Unit} {r' : Registry} {D' : Durable}
    (compacting : Compacting r D result r' D') : Readied r D r' D' := by
  cases compacting with
  | done compacted =>
      cases compacted with
      | done store encoded => exact .compacted store (.same r.store) encoded
  | failed e store => exact .pruned store (.same r.store)

theorem Roomy.readied {kind : EntityKind} {identifier : Text} {r' : Registry} {D' : Durable}
    (room : Roomy kind identifier r D r' D') : Readied r D r' D' := by
  cases room with
  | «open» _ => exact .same r.store
  | compacted _ compacted => exact (Compacting.done compacted).readied

theorem EntityKind.generation_asserted (kind : EntityKind) (epoch : FabricEpoch)
    (digest : Digest256) (provenance : Provenance) (value : kind.Carrier) :
    kind.generation (kind.asserted epoch digest provenance value) = kind.generation value := by
  cases kind <;> rfl

theorem EntityKind.digest_asserted (kind : EntityKind) (epoch : FabricEpoch)
    (digest : Digest256) (provenance : Provenance) (value : kind.Carrier) :
    kind.digest (kind.asserted epoch digest provenance value) = digest := by
  cases kind <;> rfl

theorem steady_conflictMutation (marker : ConflictMarker) (payload : Bytes) :
    (conflictMutation marker payload).Steady := ⟨fun _ _ => rfl, fun _ _ => rfl⟩

theorem steady_publicationMutation (kind : EntityKind) (value : kind.Carrier) (payload : Bytes) :
    (publicationMutation kind value payload).Steady := ⟨fun _ _ => rfl, fun _ _ => rfl⟩

variable {kind : EntityKind} {value : kind.Carrier} {r₁ : Registry} {D₁ : Durable}

theorem Drives.performs_publishAdmitted (drives : Drives r₁.store d D₁)
    (valid : kind.validate value = .ok ()) (positive : kind.generation value ≠ 0)
    (room : Roomy kind (kind.entityId value) r D r₁ D₁) :
    Performs (r₁.publishAdmitted kind value) d (Publishing kind value r D) := by
  unfold publishAdmitted
  rw [← EntityKind.contentDigest]
  dsimp only
  cases admitted : admission kind (r₁.tables kind) value (kind.contentDigest value) with
  | refused failure => exact .pure drives (.refused failure room.readied)
  | held latest => exact .pure drives (.held valid room admitted)
  | equivocated incumbent =>
      dsimp only
      unfold recordConflict
      split
      · exact .pure drives (.refused _ room.readied)
      · next payload recorded =>
          apply (drives.performs_journalled (steady_conflictMutation _ payload)).result
            (g := fun result r => (result.bind fun _ => .error equivocationError, r))
          · intro result r'
            cases result <;> rfl
          · intro _ _
            rfl
          · intro result r' D' journalled
            exact .equivocated valid room admitted recorded journalled
  | accepted =>
      dsimp only
      unfold recordPublication
      split
      · exact .pure drives (.refused _ room.readied)
      · next payload recorded =>
          apply (drives.performs_journalled (steady_publicationMutation _ _ payload)).result
            (g := fun result r =>
              (result.map fun attempt => ⟨kind.generation value, attempt, kind.contentDigest value⟩, r))
          · intro result r'
            cases result with
            | error e => rfl
            | ok attempt =>
                dsimp only
                rw [EntityKind.generation_asserted, EntityKind.digest_asserted]
                rfl
          · intro _ _
            rfl
          · intro result r' D' journalled
            exact .accepted valid positive room admitted recorded journalled

theorem Drives.performs_publishEntity (drives : Drives r.store d D) :
    Performs (r.publishEntity kind value) d (Publishing kind value r D) := by
  have same : Readied r D r D := .same r.store
  unfold publishEntity
  split
  · exact .pure drives (.refused _ same)
  · next valid =>
      split
      · exact .pure drives (.refused _ same)
      · next positive =>
          split
          · next full =>
              apply drives.performs_compactLocked.bind
              · intro result r' D' compacting
                exact ⟨_, r', .refused (makeError .internal "") compacting.readied⟩
              · intro result r' D' e compacting drives'
                cases compacting with
                | failed failure store =>
                    exact .pure drives' (.refused _ (Compacting.failed failure store).readied)
                | done compacted =>
                    exact drives'.performs_publishAdmitted valid positive (.compacted full compacted)
          · next room =>
              exact drives.performs_publishAdmitted valid positive
                (.open (Bool.not_eq_true _ ▸ room))

theorem Drives.performs_publishCapability {value : ResourceCapability} (clock : UInt64)
    (drives : Drives r.store d D) :
    Performs (r.publishCapability value) d fun result =>
      Effect clock r D (.publishCapability value) (.published result) := by
  unfold publishCapability
  split
  · exact .pure drives (.refusedCapability _)
  · split
    · exact .pure drives (.refusedCapability _)
    · next authorized =>
        apply Program.wp_mono drives.performs_publishEntity
        · rintro e ⟨result, r', D', publishing, keeps⟩
          exact ⟨result, r', D', .publishCapability authorized publishing, keeps⟩
        · rintro ⟨result, r'⟩ e ⟨D', publishing, drives'⟩
          exact ⟨D', .publishCapability authorized publishing, drives'⟩

theorem Drives.performs_publishReservation {value : Reservation} (clock : UInt64)
    (drives : Drives r.store d D) :
    Performs (r.publishReservation value) d fun result =>
      Effect clock r D (.publishReservation value) (.published result) := by
  unfold publishReservation
  split
  · exact .pure drives (.refusedReservation _)
  · split
    · exact .pure drives (.refusedReservation _)
    · next authorized =>
        apply Program.wp_mono drives.performs_publishEntity
        · rintro e ⟨result, r', D', publishing, keeps⟩
          exact ⟨result, r', D', .publishReservation authorized publishing, keeps⟩
        · rintro ⟨result, r'⟩ e ⟨D', publishing, drives'⟩
          exact ⟨D', .publishReservation authorized publishing, drives'⟩

theorem Registry.store_tick (r : Registry) (clock : UInt64) : (r.tick clock).store = r.store := by
  unfold tick
  split <;> rfl

theorem steady_registrationMutation (lease : PublisherLease) (payload : Bytes) :
    (registrationMutation lease payload).Steady := ⟨fun _ _ => rfl, fun _ _ => rfl⟩

theorem steady_revocationMutation (publisher : Text) (removed : PublisherLease) (payload : Bytes) :
    (revocationMutation publisher removed payload).Steady := ⟨fun _ _ => rfl, fun _ _ => rfl⟩

theorem Drives.performs_registerPublisher {clock : UInt64} {publisher : Text}
    {incarnation : PublisherIncarnation} {boot : BootId} {ttlMs : UInt64} {origin : Text}
    (drives : Drives r.store d D) :
    Performs (r.registerPublisher clock publisher incarnation boot ttlMs origin) d
      fun result => Effect clock r D
        (.registerPublisher publisher incarnation boot ttlMs origin) (.granted result) := by
  rw [← r.store_tick clock] at drives
  unfold registerPublisher
  dsimp only
  split
  · exact .pure drives (.refusedPublisher _)
  · next lease granted =>
      split
      · exact .pure drives (.refusedPublisher _)
      · next payload recorded =>
          apply (drives.performs_journalled (steady_registrationMutation lease payload)).result
            (g := fun result r => (result.map fun attempt => { lease with lease := attempt }, r))
          · intro result r'
            cases result <;> rfl
          · intro _ _
            rfl
          · intro result r' D' journalled
            exact .registerPublisher granted recorded journalled

theorem Drives.performs_revokePublisher {clock : UInt64} {publisher : Text}
    {incarnation : PublisherIncarnation} (drives : Drives r.store d D) :
    Performs (r.revokePublisher clock publisher incarnation) d
      fun result => Effect clock r D (.revokePublisher publisher incarnation) (.finished result) := by
  have leases : (r.tick clock).leases = r.leases := by
    unfold tick
    split <;> rfl
  rw [← r.store_tick clock] at drives
  unfold revokePublisher
  dsimp only
  split
  · exact .pure drives (.refusedRevocation _)
  split
  · exact .pure drives (.refusedRevocation _)
  next removed held =>
    have held : r.leases.lookup publisher = some removed := by
      rw [leases, Option.filter_eq_some_iff] at held
      exact held.1
    split
    · exact .pure drives (.refusedRevocation _)
    · next payload recorded =>
        apply (drives.performs_journalled
          (steady_revocationMutation publisher removed payload)).result
          (g := fun result r => (result.map fun _ => (), r))
        · intro result r'
          cases result <;> rfl
        · intro _ _
          rfl
        · intro result r' D' journalled
          exact .revokePublisher held journalled

theorem steady_decisionMutation (decision : ContractDecision) (payload : Bytes) :
    (decisionMutation decision payload).Steady := ⟨fun _ _ => rfl, fun _ _ => rfl⟩

theorem Drives.performs_recordDecision {decision : ContractDecision}
    (drives : Drives r.store d D) :
    Performs (r.recordDecision decision) d (Recording decision r D) := by
  unfold recordDecision
  split
  · exact .pure drives (.refused _)
  · next payload recorded =>
      apply (drives.performs_journalled (steady_decisionMutation decision payload)).result
        (g := fun result r => match result with
          | .error e => (.error e, r)
          | .ok _ => (.ok (), r.pruneDecisions))
      · intro result r'
        cases result <;> rfl
      · intro result r'
        cases result <;> rfl
      · intro result r' D' journalled
        cases result with
        | error e => exact .failed recorded journalled
        | ok attempt => exact .done recorded journalled

theorem Drives.performs_evaluate {clock : UInt64} {request : ContractRequest}
    (drives : Drives r.store d D) :
    Performs (r.evaluate clock request) d
      fun result => Effect clock r D (.evaluate request) (.decided result) := by
  rw [← r.store_tick clock] at drives
  unfold Registry.evaluate
  dsimp only
  split
  · exact .pure drives (.undecided _)
  · next decision decided =>
      apply drives.performs_recordDecision.result
        (g := fun result r => (result.map fun _ => decision, r))
      · intro result r'
        cases result <;> rfl
      · intro _ _
        rfl
      · intro result r' D' recording
        exact .evaluate decided recording

theorem length_epochRecord {epoch : FabricEpoch} {reason : Text} {payload : Bytes}
    (recorded : (epochRecord epoch reason).data = some payload) : 8 ≤ payload.length := by
  unfold epochRecord ByteWriter.str at recorded
  split at recorded
  · cases recorded
  simp only [ByteWriter.u64, ByteWriter.u32, ByteWriter.raw_raw, ByteWriter.data_raw_empty]
    at recorded
  split at recorded
  · cases recorded
    simp only [List.length_append, LittleEndian.length_encode]
    omega
  · cases recorded

theorem Drives.performs_advanceEpochLocked {reason : Text} (drives : Drives r.store d D) :
    Performs (r.advanceEpochLocked reason) d (Advancing reason r D) := by
  unfold advanceEpochLocked
  split
  · exact .pure drives (.refused _ r.store)
  · next next increment =>
      split
      · exact .pure drives (.refused _ r.store)
      · next payload recorded =>
          have wellFormed : RecordType.epochAdvance.WellFormed payload :=
            length_epochRecord recorded
          have kept (e : Disk FileName) (keeps : Keeps e D) :
              ∃ result r' D', Advancing reason r D result r' D' ∧ Keeps e D' :=
            ⟨_, _, _, .refused (makeError .internal "") r.store, keeps⟩
          unfold Performs
          rw [Program.wp_bind]
          apply drives.wp_append wellFormed rfl kept
          · intro e sequence keeps
            exact ⟨_, _, _, .done sequence r.store increment recorded, keeps⟩
          · intro failure
            exact ⟨kept d drives.keeps, D, .refused failure r.store, drives⟩
          · intro sequence store e drives'
            have done := Advancing.done sequence store increment recorded (r := r) (D := D)
            exact ⟨⟨_, _, _, done, drives'.keeps⟩, _, done, drives'⟩

theorem Drives.performs_call (drives : Drives r.store d D) (clock : UInt64) (call : Call) :
    Performs (r.call clock call) d (Effect clock r D call) := by
  have same : Readied r D r D := .same r.store
  cases call with
  | publishClass value origin =>
      apply drives.performs_publishEntity.result (g := fun result r => (.published result, r))
      · exact fun _ _ => rfl
      · exact fun _ _ => rfl
      · exact fun _ _ _ publishing => .publishClass publishing
  | publishPolicy value origin =>
      apply drives.performs_publishEntity.result (g := fun result r => (.published result, r))
      · exact fun _ _ => rfl
      · exact fun _ _ => rfl
      · exact fun _ _ _ publishing => .publishPolicy publishing
  | publishPath value origin =>
      apply drives.performs_publishEntity.result (g := fun result r => (.published result, r))
      · exact fun _ _ => rfl
      · exact fun _ _ => rfl
      · exact fun _ _ _ publishing => .publishPath publishing
  | publishCapability value =>
      apply (drives.performs_publishCapability clock).result
        (g := fun result r => (.published result, r))
      · exact fun _ _ => rfl
      · exact fun _ _ => rfl
      · exact fun _ _ _ effect => effect
  | publishReservation value =>
      apply (drives.performs_publishReservation clock).result
        (g := fun result r => (.published result, r))
      · exact fun _ _ => rfl
      · exact fun _ _ => rfl
      · exact fun _ _ _ effect => effect
  | registerPublisher publisher incarnation boot ttlMs origin =>
      apply drives.performs_registerPublisher.result (g := fun result r => (.granted result, r))
      · exact fun _ _ => rfl
      · exact fun _ _ => rfl
      · exact fun _ _ _ effect => effect
  | revokePublisher publisher incarnation =>
      apply drives.performs_revokePublisher.result (g := fun result r => (.finished result, r))
      · exact fun _ _ => rfl
      · exact fun _ _ => rfl
      · exact fun _ _ _ effect => effect
  | expireLeases =>
      have store : (r.expireLeases clock).store = r.store := r.store_tick clock
      rw [← store] at drives
      exact .pure drives .expireLeases
  | advanceEpoch reason =>
      apply drives.performs_advanceEpochLocked.result (g := fun result r => (.advanced result, r))
      · exact fun _ _ => rfl
      · exact fun _ _ => rfl
      · exact fun _ _ _ advancing => .advanceEpoch advancing
  | evaluate request =>
      apply drives.performs_evaluate.result (g := fun result r => (.decided result, r))
      · exact fun _ _ => rfl
      · exact fun _ _ => rfl
      · exact fun _ _ _ effect => effect
  | compact =>
      apply drives.performs_compactLocked.result (g := fun result r => (.finished result, r))
      · exact fun _ _ => rfl
      · exact fun _ _ => rfl
      · intro result r' D' compacting
        cases compacting with
        | done compacted => exact .compacted compacted
        | failed e store => exact .uncompacted e store
  | setNowMillis value => exact .pure drives .setNowMillis

end Calls

/-! ## Opening and closing -/

theorem history_header {boot : Bytes} {j header : Journal} (lawful : j.Lawful)
    (minted : header = [] ∨ ∃ next, header = [(next, headerEntry boot)]) :
    Journal.history (j ++ header) = j.history := by
  cases minted with
  | inl none =>
      rw [none, List.append_nil]
  | inr one =>
      obtain ⟨next, rfl⟩ := one
      rw [headerEntry, lawful.history_append]
      exact List.append_nil _

section Opening

variable {options : RegistryOptions} {clock : UInt64} {boot : Bytes} {D₀ : Durable}

def Finds (options : StoreOptions) (d : Disk FileName) (D : Durable) : Prop :=
  (∃ j : Journal, Found options.maxRecordBytes d D.payload j ∧ j.history = D.history) ∨
    Vacant d ∧ D = .empty

structure Leaves (options : StoreOptions) (d : Disk FileName) (D D₀ : Durable) : Prop where
  front : D₀.Front D
  all : options.Reads d → D₀ = D

theorem Leaves.self (options : StoreOptions) (d : Disk FileName) (D : Durable) :
    Leaves options d D D := ⟨.refl D, fun _ => rfl⟩

theorem Journal.Lawful.leaves {options : StoreOptions} {k lost : Journal} (lawful : (k ++ lost).Lawful)
    (all : options.Reads d → lost = []) (history : (k ++ lost).history = D.history) :
    Leaves options d D ⟨D.payload, k.history⟩ where
  front := ⟨rfl, history ▸ lawful.history_front⟩
  all reads := by
    rw [all reads, List.append_nil] at history
    rw [history]

def Opened (options : StoreOptions) (d : Disk FileName) (D : Durable) :
    Result Store → Disk FileName → Prop
  | .ok s, e => ∃ D₀, Leaves options d D D₀ ∧ Finds options d D₀ ∧ s.snapshotBytes = D₀.payload ∧
      s.replayed = D₀.history ∧ Drives s e D₀
  | .error _, e => ∃ D₀, Leaves options d D D₀ ∧ Keeps e D₀

theorem Keeps.wp_open {options : StoreOptions} (keeps : Keeps d D) :
    (Store.open options boot).wp Disk.world (fun e => ∃ D₀, Leaves options d D D₀ ∧ Keeps e D₀)
      (Opened options d D) d := by
  have idle {e : Disk FileName} (keeps : Keeps e D) : ∃ D₀, Leaves options d D D₀ ∧ Keeps e D₀ :=
    ⟨D, .self options d D, keeps⟩
  by_cases valid : options.Valid
  case neg =>
    unfold Store.open
    split
    · exact ⟨idle keeps, idle keeps⟩
    next version =>
    rw [if_pos]
    · exact ⟨idle keeps, idle keeps⟩
    · by_contra inside
      apply valid
      have positive : options.maxRecordBytes ≠ 0 := fun zero => inside (.inl zero)
      have small : ¬options.maxRecordBytes > Limits.maxWalRecordBytes :=
        fun large => inside (.inr large)
      exact ⟨not_not.mp version, by omega, by omega⟩
  have reopens {D₀ : Durable} {j : Journal} (leaves : Leaves options d D D₀)
      (finds : Finds options d D₀) (lawful : j.Lawful) (history : j.history = D₀.history) :
      Reopens options boot D₀.payload j (fun e => ∃ D₀, Leaves options d D D₀ ∧ Keeps e D₀)
        (Opened options d D) := by
    constructor
    · intro e rests
      exact ⟨D₀, leaves, .inl ⟨_, j, valid.small, rests, history⟩⟩
    · intro e next rests
      exact ⟨D₀, leaves, .inl ⟨_, _, valid.small, rests,
        (history_header lawful (.inr ⟨next, rfl⟩)).trans history⟩⟩
    · intro failure e kept
      exact kept
    · intro s e header running _ payload replayed _ minted
      exact ⟨D₀, leaves, finds, payload, replayed.trans history, _, running,
        (history_header lawful minted).trans history⟩
  cases keeps with
  | inl resting =>
      obtain ⟨budget, j, small, rests, history⟩ := resting
      have lawful := rests.lawful
      apply rests.wp_openUnder valid small
      · intro e rests
        exact idle (.inl ⟨budget, j, small, rests, history⟩)
      · rintro k lost rfl all found
        exact @reopens ⟨D.payload, k.history⟩ k (lawful.leaves all history) (.inl ⟨k, found, rfl⟩)
          found.lawful rfl
  | inr nothing =>
      obtain ⟨vacant, rfl⟩ := nothing
      exact vacant.wp_open valid (fun e vacant => idle (.inr ⟨vacant, rfl⟩))
        (reopens (.self options d .empty) (.inr ⟨vacant, rfl⟩) .nil rfl)

theorem Drives.wp_restore (accepted : options.Accepted) (drives : Drives s d D)
    (payload : s.snapshotBytes = D.payload) (history : s.replayed = D.history) :
    (Registry.restore options s clock).wp Disk.world
      (fun e => ∃ D', (D' = D ∨ ∃ r, Restored options clock D r D') ∧ Keeps e D')
      (fun result e => match result with
        | .ok r => ∃ D', Restored options clock D r D' ∧ Drives r.store e D'
        | .error _ => Keeps e D) d := by
  have kept (e : Disk FileName) (keeps : Keeps e D) :
      ∃ D', (D' = D ∨ ∃ r, Restored options clock D r D') ∧ Keeps e D' :=
    ⟨D, .inl rfl, keeps⟩
  have safe := kept d drives.keeps
  unfold Registry.restore
  rw [payload, history]
  split
  · exact ⟨safe, drives.keeps⟩
  next loaded load =>
    split
    · exact ⟨safe, drives.keeps⟩
    next r rebuilt =>
      have recovers : Recovers options s clock D r := ⟨loaded, load, rebuilt⟩
      have store : r.store = s := (Registry.unread_of_recovered load rebuilt).store
      rw [← store] at drives
      split
      · next observes =>
          exact ⟨safe, D, .observed accepted (by simpa using observes) recovers, drives⟩
      · next claims =>
          have claims : options.claimAuthority = true := by simpa using claims
          rw [Program.wp_bind]
          apply Program.wp_mono drives.performs_advanceEpochLocked
          · rintro e ⟨result, r', D', advancing, keeps⟩
            cases advancing with
            | refused failure store => exact kept e keeps
            | done sequence store increment recorded =>
                exact ⟨_, .inr ⟨_, .claimed accepted claims recovers
                  (.done sequence store increment recorded)⟩, keeps⟩
          · rintro ⟨result, r'⟩ e ⟨D', advancing, drives'⟩
            cases advancing with
            | refused failure store => exact ⟨kept e drives'.keeps, drives'.keeps⟩
            | done sequence store increment recorded =>
                have restored := Restored.claimed accepted claims recovers
                  (.done sequence store increment recorded)
                exact ⟨⟨_, .inr ⟨_, restored⟩, drives'.keeps⟩, _, restored, drives'⟩

theorem Keeps.wp_openRegistry (keeps : Keeps d D) :
    (Registry.open options clock boot).wp Disk.world
      (fun e => ∃ D₀ D', Leaves options.store d D D₀ ∧
        (D' = D₀ ∨ ∃ r, Restored options clock D₀ r D') ∧ Keeps e D')
      (fun result e => match result with
        | .ok r => ∃ D₀ D', Leaves options.store d D D₀ ∧ Finds options.store d D₀ ∧
            Restored options clock D₀ r D' ∧ Drives r.store e D'
        | .error _ => ∃ D₀, Leaves options.store d D D₀ ∧ Keeps e D₀) d := by
  unfold Registry.open
  split
  · have idle := Leaves.self options.store d D
    exact ⟨⟨D, D, idle, .inl rfl, keeps⟩, D, idle, keeps⟩
  next inside =>
  have accepted : options.Accepted := by
    rw [not_or] at inside
    exact ⟨Nat.pos_of_ne_zero inside.1, Nat.le_of_not_lt inside.2⟩
  rw [Program.wp_bind]
  apply Program.wp_mono keeps.wp_open
  · rintro e ⟨D₀, leaves, keeps⟩
    exact ⟨D₀, D₀, leaves, .inl rfl, keeps⟩
  · intro result e done
    cases result with
    | error failure =>
        obtain ⟨D₀, leaves, keeps⟩ := done
        exact ⟨⟨D₀, D₀, leaves, .inl rfl, keeps⟩, D₀, leaves, keeps⟩
    | ok s =>
        obtain ⟨D₀, leaves, finds, payload, history, drives⟩ := done
        apply Program.wp_mono (drives.wp_restore accepted payload history)
        · rintro e ⟨D', outcome, keeps⟩
          exact ⟨D₀, D', leaves, outcome, keeps⟩
        · intro result e done
          cases result with
          | error failure => exact ⟨D₀, leaves, done⟩
          | ok r =>
              obtain ⟨D', restored, drives⟩ := done
              exact ⟨D₀, D', leaves, finds, restored, drives⟩

theorem Drives.wp_closeRegistry (drives : Drives r.store d D) :
    r.close.wp Disk.world (Keeps · D) (fun _ e => Keeps e D) d := by
  unfold Registry.close
  rw [Program.wp_bind]
  apply drives.wp_close (fun _ keeps => keeps)
  intro result s' e keeps
  exact ⟨keeps, keeps⟩

end Opening

/-! ## Runs -/

def Site.Refines (D : Durable) : Site → Prop
  | .down d => Keeps d D
  | .up r d => Drives r.store d D

def Site.members : Site → Option Registry
  | .down _ => none
  | .up r _ => some r

inductive Sees (openings : Openings) : Site → Event → Durable → Durable → Prop where
  | up {r : Registry} {d : Disk FileName} {event : Event} {D : Durable} :
      Sees openings (.up r d) event D D
  | down {d : Disk FileName} {event : Event} {options : RegistryOptions} {D D₀ : Durable}
      (admitted : openings options d) (leaves : Leaves options.store d D D₀)
      (finds : ∀ options clock boot epoch, event = .opened options clock boot (.ok epoch) →
        Finds options.store d D₀) : Sees openings (.down d) event D D₀

/-- The openings that find no record above their budget. -/
def Openings.reading : Openings := fun options d => options.store.Reads d

theorem Sees.eq {site : Site} {event : Event} {D₀ : Durable}
    (sees : Sees .reading site event D D₀) : D₀ = D := by
  cases sees with
  | up => rfl
  | down admitted leaves _ => exact leaves.all admitted

theorem Sees.front {openings : Openings} {site : Site} {event : Event} {D₀ : Durable}
    (sees : Sees openings site event D D₀) : D₀.Front D := by
  cases sees with
  | up => exact .refl D
  | down _ leaves _ => exact leaves.front

theorem Step.turn {openings : Openings} {site site' : Site} {event : Event}
    (step : Step openings site event site') (refines : site.Refines D) :
    ∃ D₀ D', Sees openings site event D D₀ ∧ Turn site.members D₀ event site'.members D' ∧
      site'.Refines D' := by
  cases step with
  | opened admitted run =>
      have keeps : Keeps _ D := refines
      obtain ⟨D₀, D', leaves, finds, restored, drives⟩ := Program.wp_ends keeps.wp_openRegistry run
      refine ⟨D₀, D', .down admitted leaves ?_, .opened restored, drives⟩
      rintro options clock boot epoch event
      cases event
      exact finds
  | refused admitted run =>
      have keeps : Keeps _ D := refines
      obtain ⟨D₀, leaves, kept⟩ := Program.wp_ends keeps.wp_openRegistry run
      exact ⟨D₀, D₀, .down admitted leaves nofun, .refused, kept⟩
  | cutOpening admitted run =>
      have keeps : Keeps _ D := refines
      obtain ⟨D₀, D', leaves, outcome, keeps'⟩ := Program.wp_crashes keeps.wp_openRegistry run
      refine ⟨D₀, D', .down admitted leaves nofun, ?_, keeps'⟩
      cases outcome with
      | inl same =>
          subst same
          exact .untouched
      | inr restored =>
          obtain ⟨r, restored⟩ := restored
          exact .cutOpening restored
  | called run =>
      have drives : Drives _ _ D := refines
      obtain ⟨D', effect, drives'⟩ := Program.wp_ends (drives.performs_call _ _) run
      exact ⟨D, D', .up, .called effect, drives'⟩
  | cutCall run =>
      have drives : Drives _ _ D := refines
      obtain ⟨answer, r', D', effect, keeps'⟩ := Program.wp_crashes (drives.performs_call _ _) run
      exact ⟨D, D', .up, .cutCall effect, keeps'⟩
  | closed run =>
      have drives : Drives _ _ D := refines
      have kept := Program.wp_ends drives.wp_closeRegistry run
      exact ⟨D, D, .up, .closed, kept⟩
  | cutClosing run =>
      have drives : Drives _ _ D := refines
      have kept := Program.wp_crashes drives.wp_closeRegistry run
      exact ⟨D, D, .up, .untouched, kept⟩

theorem Step.effect {openings : Openings} {site : Site} {clock : UInt64} {call : Call}
    {answer : Answer} (step : Step openings (.up r d) (.called clock call answer) site)
    (drives : Drives r.store d D) :
    ∃ r' d' D', site = .up r' d' ∧ Effect clock r D call answer r' D' ∧ Drives r'.store d' D' := by
  cases step with
  | called run =>
      obtain ⟨D', effect, drives'⟩ := Program.wp_ends (drives.performs_call _ _) run
      exact ⟨_, _, D', rfl, effect, drives'⟩

/-- What is durable is passed from one event to the next. Nothing is asked of a directory but what an
opening finds in it: an operation succeeds, or fails and leaves nothing of its own behind. -/
inductive TurnsWhere (openings : Openings) (meets : Site → Event → Prop) :
    List Event → Site → Durable → Prop where
  | start : TurnsWhere openings meets [] (.down Disk.empty) .empty
  | next {events : List Event} {event : Event} {site site' : Site} {D D₀ D' : Durable}
      (turns : TurnsWhere openings meets events site D) (sees : Sees openings site event D D₀)
      (met : meets site event) (turn : Turn site.members D₀ event site'.members D') :
      TurnsWhere openings meets (events ++ [event]) site' D'

abbrev Turns (openings : Openings) : List Event → Site → Durable → Prop :=
  TurnsWhere openings fun _ _ => True

theorem RunWhere.turns {openings : Openings} {meets : Site → Event → Prop} {events : List Event}
    {site : Site} (run : RunWhere openings meets events site) :
    ∃ D, site.Refines D ∧ TurnsWhere openings meets events site D := by
  induction run with
  | start => exact ⟨.empty, .inr ⟨vacant_empty, rfl⟩, .start⟩
  | next _ step met ih =>
      obtain ⟨D, refines, turns⟩ := ih
      obtain ⟨D₀, D', sees, turn, refines'⟩ := step.turn refines
      exact ⟨D', refines', turns.next sees met turn⟩

theorem RunWhere.drives {openings : Openings} {meets : Site → Event → Prop} {events : List Event}
    (run : RunWhere openings meets events (.up r d)) : ∃ D, Drives r.store d D := by
  obtain ⟨D, refines, -⟩ := run.turns
  exact ⟨D, refines⟩

def Openings.largest : Openings := fun options _ =>
  options.maxRecordBytes = Limits.maxWalRecordBytes

theorem Keeps.reads {options : StoreOptions} (keeps : Keeps d D)
    (largest : options.maxRecordBytes = Limits.maxWalRecordBytes) : options.Reads d := by
  cases keeps with
  | inl resting =>
      obtain ⟨budget, j, small, rests, -⟩ := resting
      obtain ⟨_, _, _, _, -, -, holding, reads⟩ := rests.reads_iff options small
      exact reads.mpr fun f mem => largest ▸ (holding.fits f mem).mono small
  | inr nothing =>
      have empty : walOf d = [] := by
        cases nothing.1 with
        | bare alone =>
            have absent : d.file walFileName = none := by
              by_contra named
              exact absurd (alone _ named) (by decide)
            rw [walOf, Disk.content, absent]
            rfl
        | unlogged _ absent =>
            rw [walOf, Disk.content, absent]
            rfl
      rw [StoreOptions.Reads, empty]
      intro f mem
      have mem : f ∈ ([] : List Frame) := mem
      exact absurd mem List.not_mem_nil

theorem Step.mono {openings other : Openings} {site site' : Site} {event : Event}
    (step : Step openings site event site')
    (admits : ∀ options d, site = .down d → openings options d → other options d) :
    Step other site event site' := by
  cases step with
  | opened admitted run => exact .opened (admits _ _ rfl admitted) run
  | refused admitted run => exact .refused (admits _ _ rfl admitted) run
  | cutOpening admitted run => exact .cutOpening (admits _ _ rfl admitted) run
  | called run => exact .called run
  | cutCall run => exact .cutCall run
  | closed run => exact .closed run
  | cutClosing run => exact .cutClosing run

theorem Step.reading {meets : Site → Event → Prop} {events : List Event} {event : Event}
    {site site' : Site} (step : Step .largest site event site')
    (run : RunWhere .largest meets events site) : Step .reading site event site' := by
  obtain ⟨D, refines, -⟩ := run.turns
  refine step.mono ?_
  rintro options d rfl largest
  have keeps : Keeps d D := refines
  exact keeps.reads largest

theorem RunWhere.reading {meets : Site → Event → Prop} {events : List Event} {site : Site}
    (run : RunWhere .largest meets events site) : RunWhere .reading meets events site := by
  induction run with
  | start => exact .start
  | next run step met ih => exact ih.next (step.reading run) met

end QoSFabric
