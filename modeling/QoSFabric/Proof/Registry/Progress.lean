import QoSFabric.Proof.Registry.Refinement
import QoSFabric.Proof.Registry.Size
import QoSFabric.Proof.Store.Capacity

namespace QoSFabric

open FileSystem Interaction

variable {s : Store} {d : Disk FileName} {room : Nat}

theorem Drives.ready {D : Durable} (drives : Drives s d D) : s.Ready := by
  obtain ⟨j, ⟨m, snapshot, covered, live, -⟩, -⟩ := drives
  obtain ⟨handle, -, opened⟩ := live.handle
  exact ⟨live.writable, handle, opened⟩

structure Affords (room : Nat) (r : Registry) (d : Disk FileName) : Prop where
  drives : ∃ D, Drives r.store d D
  record : r.store.options.maxRecordBytes = Limits.maxWalRecordBytes
  staged : r.store.stagedCount = 0
  log : r.store.walBytes.toNat + room ≤ r.store.options.maxWalBytes.toNat
  sequence : r.store.lastSequence.toNat + room < 2 ^ 64

def Store.Spacious (room : Nat) (s : Store) : Prop :=
  s.options.maxRecordBytes = Limits.maxWalRecordBytes ∧ s.stagedCount = 0 ∧
    s.walBytes.toNat + room ≤ s.options.maxWalBytes.toNat ∧
    s.lastSequence.toNat + room < 2 ^ 64

instance : DecidablePred (Store.Spacious room) := fun s =>
  inferInstanceAs (Decidable (s.options.maxRecordBytes = _ ∧ s.stagedCount = 0 ∧
    _ ≤ s.options.maxWalBytes.toNat ∧ _ < 2 ^ 64))

variable {r : Registry} {kind : EntityKind}

theorem Affords.congr {r' : Registry} (affords : Affords room r d)
    (store : r'.store = r.store) : Affords room r' d where
  drives := store ▸ affords.drives
  record := store ▸ affords.record
  staged := store ▸ affords.staged
  log := store ▸ affords.log
  sequence := store ▸ affords.sequence

theorem ends_of_execute {α : Type} {p : Files α} {a : α} {d d' : Disk FileName}
    (executed : execute p d = (a, d')) : p.Ends Disk.world d a d' := by
  have ends : p.Ends Disk.world d (execute p d).1 (execute p d).2 := Program.ends_run p d
  rw [executed] at ends
  exact ends

theorem Registry.execute_journalled {m : Registry.Mutation} {attempt : AttemptId}
    {s₁ s₂ : Store} {d₁ d₂ : Disk FileName} (steady : m.Steady)
    (staged : execute (r.store.stage m.type m.payload) d = ((.ok attempt, s₁), d₁))
    (committed : execute (s₁.commit attempt m.digest) d₁ = ((.ok (), s₂), d₂)) :
    execute (r.journalled m) d =
      ((.ok attempt, (m.apply attempt (r.withStore s₁)).withStore s₂), d₂) := by
  have committed : execute ((m.apply attempt (r.withStore s₁)).store.commit attempt m.digest) d₁ =
      ((.ok (), s₂), d₂) := by
    rw [steady.apply]
    exact committed
  unfold withStore at committed
  unfold journalled stageWithRetry
  rw [execute_bind, execute_bind, staged]
  dsimp only
  rw [execute_pure]
  dsimp only
  rw [execute_bind, committed]
  rfl

theorem Affords.frames {length : Nat} (affords : Affords (120 + length + room) r d)
    (type : RecordType) {payload : Bytes} (digest : Digest256) (size : payload.length ≤ length)
    (small : 39 + length ≤ Limits.maxWalRecordBytes) :
    ∃ attempt s₁ d₁ s₂ d₂, execute (r.store.stage type payload) d = ((.ok attempt, s₁), d₁) ∧
      execute (s₁.commit attempt digest) d₁ = ((.ok (), s₂), d₂) ∧
      s₂.Spacious room := by
  obtain ⟨⟨D, drives⟩, fixed, none, log, sequence⟩ := affords
  have large : 65 ≤ Limits.maxWalRecordBytes := by decide
  have header : frameHeaderBytes = 8 := rfl
  have fields : recordHeaderBytes = 25 := rfl
  have ready := drives.ready
  have intent : r.store.Takes (14 + payload.length) :=
    ⟨by omega, by omega, by omega, by omega⟩
  obtain ⟨d₁, staged⟩ := Store.execute_stage_of_takes type ready none intent d
  have bytes := intent.walBytes_grown
  have next := intent.sequence_grown
  generalize grown : ({ r.store.grown (14 + payload.length) with stagedCount := 1 } : Store) = s₁
    at staged
  have ready₁ : s₁.Ready := grown ▸ ready
  have options₁ : s₁.options = r.store.options := by
    rw [← grown]
    rfl
  have bytes₁ : s₁.walBytes = (r.store.grown (14 + payload.length)).walBytes := by
    rw [← grown]
  have next₁ : s₁.lastSequence = (r.store.grown (14 + payload.length)).lastSequence := by
    rw [← grown]
  have count₁ : s₁.stagedCount = 1 := by
    rw [← grown]
  have commit : s₁.Takes 40 := by
    constructor
    · rw [next₁]
      omega
    · rw [options₁]
      omega
    · rw [options₁]
      omega
    · rw [options₁, bytes₁]
      omega
  obtain ⟨d₂, committed⟩ := Store.execute_commit_of_takes
    (r.store.lastSequence + 1) digest ready₁ commit d₁
  refine ⟨r.store.lastSequence + 1, s₁, d₁, (s₁.grown 40).retire, d₂, staged, committed, ?_, ?_, ?_,
    ?_⟩
  · show s₁.options.maxRecordBytes = Limits.maxWalRecordBytes
    rw [options₁]
    exact fixed
  · show (if s₁.stagedCount > 0 then s₁.stagedCount - 1 else s₁.stagedCount) = 0
    rw [count₁]
    rfl
  · have total := commit.walBytes_grown
    show (s₁.grown 40).walBytes.toNat + room ≤ s₁.options.maxWalBytes.toNat
    rw [total, options₁, bytes₁]
    omega
  · have last := commit.sequence_grown
    show (s₁.grown 40).lastSequence.toNat + room < 2 ^ 64
    rw [last, next₁]
    omega

theorem Affords.journalled {m : Registry.Mutation} {length : Nat} (steady : m.Steady)
    (affords : Affords (120 + length + room) r d) (size : m.payload.length ≤ length)
    (small : 39 + length ≤ Limits.maxWalRecordBytes) :
    ∃ attempt between store d', execute (r.journalled m) d =
        ((.ok attempt, (m.apply attempt (r.withStore between)).withStore store), d') ∧
      Affords room ((m.apply attempt (r.withStore between)).withStore store) d' := by
  obtain ⟨attempt, s₁, d₁, s₂, d₂, staged, committed, record, none, log, sequence⟩ :=
    affords.frames m.type m.digest size small
  obtain ⟨D, drives⟩ := affords.drives
  have executed := Registry.execute_journalled steady staged committed
  have performs := drives.performs_journalled steady
  obtain ⟨D', -, drives'⟩ := Program.wp_ends performs (ends_of_execute executed)
  exact ⟨attempt, s₁, s₂, d₂, executed, ⟨D', drives'⟩, record, none, log, sequence⟩

theorem Affords.evaluate {clock : UInt64} {request : ContractRequest} {decision : ContractDecision}
    {length : Nat} (affords : Affords (120 + length + room) r d)
    (decided : (r.tick clock).decide request = .ok decision)
    (within : (encodeDecision decision
      (.empty : ByteWriter Limits.maxCanonicalRecordBytes)).Within length)
    (small : 39 + length ≤ Limits.maxWalRecordBytes) :
    ∃ between store d', let r' := (((r.tick clock).withStore between).holdDecision decision
        |>.withStore store).pruneDecisions
      (r.call clock (.evaluate request)).Ends Disk.world d (.decided (.ok decision), r') d' ∧
        Affords room r' d' := by
  obtain ⟨payload, recorded, size⟩ := within
  have ticked := affords.congr (r.store_tick clock)
  obtain ⟨attempt, between, store, d', executed, affords'⟩ :=
    ticked.journalled (steady_decisionMutation decision payload) size small
  refine ⟨between, store, d', ends_of_execute ?_, affords'.congr rfl⟩
  unfold Registry.call Registry.evaluate Registry.recordDecision
  dsimp only
  rw [decided]
  dsimp only
  rw [recorded]
  dsimp only
  rw [execute_bind, execute_bind, execute_bind, executed]
  rfl

/-- What a publication is checked for: the definition is valid and the next one of its identifier,
and neither its window nor its record is too large. -/
structure Registry.Publishable (r : Registry) (kind : EntityKind) (value : kind.Carrier)
    (length : Nat) : Prop where
  valid : kind.validate value = .ok ()
  positive : kind.generation value ≠ 0
  window : r.windowFull kind (kind.entityId value) = false
  admitted : admission kind (r.tables kind) value
    (kind.computeDigest (kind.asserted 0 .zero .none value)) = .accepted
  within : (kind.encode (kind.asserted r.currentEpoch
    (kind.computeDigest (kind.asserted 0 .zero .none value)) .none value)
      (.empty : ByteWriter Limits.maxCanonicalRecordBytes)).Within length

theorem Registry.publishable_iff {value : kind.Carrier} {length : Nat} :
    r.Publishable kind value length ↔
      (kind.validate value).isOk = true ∧ kind.generation value ≠ 0 ∧
        r.windowFull kind (kind.entityId value) = false ∧
        Registry.admission kind (r.tables kind) value
          (kind.computeDigest (kind.asserted 0 .zero .none value)) = .accepted ∧
        (kind.encode (kind.asserted r.currentEpoch
          (kind.computeDigest (kind.asserted 0 .zero .none value)) .none value)
            (.empty : ByteWriter Limits.maxCanonicalRecordBytes)).data.any
              (fun payload => payload.length ≤ length) = true := by
  constructor
  · rintro ⟨valid, positive, window, admitted, payload, encoded, size⟩
    rw [valid, encoded]
    exact ⟨rfl, positive, window, admitted, decide_eq_true size⟩
  · rintro ⟨valid, positive, window, admitted, within⟩
    obtain ⟨payload, encoded, size⟩ := (Option.any_eq_true _ _).mp within
    cases checked : kind.validate value with
    | ok => exact ⟨checked, positive, window, admitted, payload, encoded, of_decide_eq_true size⟩
    | error e =>
        rw [checked] at valid
        cases valid

instance {value : kind.Carrier} {length : Nat} : Decidable (r.Publishable kind value length) :=
  decidable_of_iff _ Registry.publishable_iff.symm

theorem Affords.publishes {value : kind.Carrier} {length : Nat}
    (affords : Affords (120 + length + room) r d) (publishable : r.Publishable kind value length)
    (small : 39 + length ≤ Limits.maxWalRecordBytes) :
    ∃ result between stored store d',
      execute (r.publishEntity kind value) d =
          ((.ok result, ((r.withStore between).push kind stored).withStore store), d') ∧
        Affords room (((r.withStore between).push kind stored).withStore store) d' := by
  obtain ⟨valid, positive, window, admitted, payload, encoded, size⟩ := publishable
  generalize recorded : kind.asserted r.currentEpoch
    (kind.computeDigest (kind.asserted 0 .zero .none value)) .none value = record at encoded
  obtain ⟨attempt, between, store, d', executed, affords'⟩ :=
    affords.journalled (steady_publicationMutation kind record payload) size small
  refine ⟨⟨kind.generation record, attempt, kind.digest record⟩, between, _, store, d', ?_, affords'⟩
  unfold Registry.publishEntity Registry.publishAdmitted Registry.recordPublication
  rw [valid]
  dsimp only
  rw [if_neg positive, window, if_neg Bool.false_ne_true, admitted]
  dsimp only
  rw [recorded, encoded]
  dsimp only
  rw [execute_bind, executed]
  rfl

theorem Store.tryIncrement_zero {next : UInt64} (increment : tryIncrement 0 = some next) :
    next = 1 := by
  rw [tryIncrement_eq_some] at increment
  exact UInt64.toNat_inj.mp increment

theorem first_opening {openings : Openings} {options : RegistryOptions} {clock : UInt64}
    {boot : Bytes} (admitted : openings options Disk.empty)
    (executed : execute (Registry.open options clock boot) Disk.empty = (.ok r, d))
    (claims : options.claimAuthority = true) :
    ∃ store D, r = { Registry.fresh options store clock with durableEpoch := 1, currentEpoch := 1 } ∧
      Step openings (.down Disk.empty) (.opened options clock boot (.ok r.currentEpoch)) (.up r d) ∧
      Drives r.store d D := by
  have step : Step openings (.down Disk.empty) (.opened options clock boot (.ok r.currentEpoch))
      (.up r d) := .opened admitted (ends_of_execute executed)
  have refines : (Site.down Disk.empty).Refines .empty := .inr ⟨vacant_empty, rfl⟩
  obtain ⟨D₀, D, sees, turn, drives⟩ := step.turn refines
  obtain rfl : D₀ = .empty := sees.front.eq_of_nil
  obtain ⟨_, _, _, event, restored⟩ := Turn.restored turn
  cases event
  cases restored with
  | observed _ observes =>
      rw [claims] at observes
      cases observes
  | claimed _ _ recovers advancing =>
      obtain ⟨loaded, load, rebuilt⟩ := recovers
      cases load
      cases rebuilt
      cases advancing with
      | done sequence store increment recorded =>
          obtain rfl := Store.tryIncrement_zero increment
          exact ⟨store, _, rfl, step, drives⟩

theorem eq_empty_of_finds {options : StoreOptions} {D : Durable} (finds : Finds options Disk.empty D) :
    D = .empty := by
  cases finds with
  | inl resting =>
      obtain ⟨j, ⟨m, snapshot, covered, torn, shows, -, -⟩, -⟩ := resting
      have manifest := shows.manifest
      simp [Disk.content, Disk.file, Disk.empty] at manifest
  | inr nothing => exact nothing.2

inductive Action where
  | open (options : RegistryOptions) (clock : UInt64) (boot : Bytes)
  | call (clock : UInt64) (call : Call)
  | close
  | crash

def Site.enact : Site → Action → Option (Event × Site)
  | .down d, .open options clock boot =>
      match execute (Registry.open options clock boot) d with
      | (.ok r, d) => some (.opened options clock boot (.ok r.currentEpoch), .up r d)
      | (.error e, d) => some (.opened options clock boot (.error e), .down d)
  | .up r d, .call clock call =>
      let ((answer, r), d) := execute (r.call clock call) d
      some (.called clock call answer, .up r d)
  | .up r d, .close => some (.closed, .down (execute r.close d).2)
  | .up _ d, .crash => some (.crashed 0 none, .down d)
  | _, _ => none

def Site.rehearse : List Action → Site → Option (List Event × Site)
  | [], site => some ([], site)
  | action :: actions, site =>
      match site.enact action with
      | none => none
      | some (event, site) => (site.rehearse actions).map fun rest => (event :: rest.1, rest.2)

def Action.Within (openings : Openings) : Action → Prop
  | .open options _ _ => ∀ d, openings options d
  | _ => True

variable {openings : Openings}

theorem step_of_enact {site site' : Site} {action : Action} {event : Event}
    (within : action.Within openings) (enacted : site.enact action = some (event, site')) :
    Step openings site event site' := by
  unfold Site.enact at enacted
  split at enacted
  · next d options clock boot =>
      split at enacted
      · next r d' executed =>
          cases enacted
          exact .opened (within d) (ends_of_execute executed)
      · next e d' executed =>
          cases enacted
          exact .refused (within d) (ends_of_execute executed)
  · next r d clock call =>
      cases enacted
      exact .called (ends_of_execute rfl)
  · next r d =>
      cases enacted
      exact .closed (ends_of_execute (a := (execute r.close d).1) rfl)
  · cases enacted
    exact .cutClosing .here
  · cases enacted

theorem Run.affords (room : Nat) {events : List Event} (run : Run openings events (.up r d))
    (spacious : r.store.Spacious room) : Affords room r d := by
  obtain ⟨record, staged, log, sequence⟩ := spacious
  exact ⟨run.drives, record, staged, log, sequence⟩

theorem length_of_rehearse {actions : List Action} {events : List Event} {site site' : Site}
    (rehearsed : site.rehearse actions = some (events, site')) : events.length = actions.length := by
  induction actions generalizing site events with
  | nil =>
      cases rehearsed
      rfl
  | cons action actions ih =>
      unfold Site.rehearse at rehearsed
      split at rehearsed
      · cases rehearsed
      · obtain ⟨⟨rest, last⟩, following, eq⟩ := Option.map_eq_some_iff.mp rehearsed
        cases eq
        exact congrArg Nat.succ (ih following)

/-- Steps from a site on. -/
inductive Onward (openings : Openings) (start : Site) : List Event → Site → Prop where
  | here : Onward openings start [] start
  | next {events : List Event} {event : Event} {site site' : Site}
      (onward : Onward openings start events site) (step : Step openings site event site') :
      Onward openings start (events ++ [event]) site'

theorem Onward.run {before after : List Event} {site site' : Site} (run : Run openings before site)
    (onward : Onward openings site after site') : Run openings (before ++ after) site' := by
  induction onward with
  | here =>
      rw [List.append_nil]
      exact run
  | next _ step ih =>
      rw [← List.append_assoc]
      exact ih.next step trivial

theorem Onward.rehearsed {actions : List Action} {before after : List Event}
    {start site site' : Site} (onward : Onward openings start before site)
    (within : ∀ action ∈ actions, action.Within openings)
    (rehearsed : site.rehearse actions = some (after, site')) :
    Onward openings start (before ++ after) site' := by
  induction actions generalizing before after site with
  | nil =>
      cases rehearsed
      rw [List.append_nil]
      exact onward
  | cons action actions ih =>
      obtain ⟨first, within⟩ := List.forall_mem_cons.mp within
      unfold Site.rehearse at rehearsed
      split at rehearsed
      · cases rehearsed
      · next event next enacted =>
          obtain ⟨⟨rest, last⟩, following, eq⟩ := Option.map_eq_some_iff.mp rehearsed
          cases eq
          have continued := ih (onward.next (step_of_enact first enacted)) within following
          rw [List.append_assoc] at continued
          exact continued

/-- The openings with any options at all. -/
def Openings.any : Openings := fun _ _ => True

theorem Action.within_any (action : Action) : action.Within .any := by
  cases action with
  | «open» => exact fun _ => trivial
  | _ => trivial

theorem run_of_rehearse {actions : List Action} {events : List Event} {site : Site}
    (rehearsed : (Site.down Disk.empty).rehearse actions = some (events, site)) :
    Run .any events site :=
  (Onward.here.rehearsed (fun action _ => action.within_any) rehearsed).run .start

def Action.largest : Action → Bool
  | .open options _ _ => options.maxRecordBytes == Limits.maxWalRecordBytes
  | _ => true

theorem Action.within_largest {action : Action} (largest : action.largest = true) :
    action.Within .largest := by
  cases action with
  | «open» => exact fun _ => beq_iff_eq.mp largest
  | _ => trivial

theorem Onward.reading {before after : List Event} {site site' : Site}
    (run : Run .largest before site) (onward : Onward .largest site after site') :
    Onward .reading site after site' := by
  induction onward with
  | here => exact .here
  | next onward step ih => exact ih.next (step.reading (onward.run run))

theorem readings_of_rehearse {actions more : List Action} {before after : List Event}
    {site site' : Site} (largest : (actions ++ more).all Action.largest = true)
    (rehearsed : (Site.down Disk.empty).rehearse actions = some (before, site))
    (continued : site.rehearse more = some (after, site')) :
    Run .reading before site ∧ Onward .reading site after site' := by
  rw [List.all_append, Bool.and_eq_true, List.all_eq_true, List.all_eq_true] at largest
  have run : Run .largest before site :=
    (Onward.here.rehearsed (fun action mem => Action.within_largest (largest.1 action mem)) rehearsed).run .start
  exact ⟨run.reading, Onward.reading run
    (Onward.here.rehearsed (fun action mem => Action.within_largest (largest.2 action mem)) continued)⟩

theorem reading_of_rehearse {actions : List Action} {events : List Event} {site : Site}
    (largest : actions.all Action.largest = true)
    (rehearsed : (Site.down Disk.empty).rehearse actions = some (events, site)) :
    Run .reading events site :=
  (@readings_of_rehearse actions [] _ _ _ _ (by rwa [List.append_nil]) rehearsed rfl).1

end QoSFabric
