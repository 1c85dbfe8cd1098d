import QoSFabric.Proof.Registry.Publication
import QoSFabric.Proof.Registry.Progress

/-!
# Retained generations

The window of an identifier is compacted before a publication into it, to the bound of the options
and not below, so a publication that finds it full leaves one generation too many. Nothing else that
an open registry does makes a window longer, and an opening reads back what the directory holds.
-/

namespace QoSFabric

open FileSystem Registry

variable {r r' : Registry} {D : Durable} {kind : EntityKind}

/-- How many generations are retained of an identifier. -/
def Registry.retained (r : Registry) (kind : EntityKind) (id : Text) : ℕ :=
  ((r.tables kind).held id).length

theorem retained_alike (alike : r.Alike r') (kind : EntityKind) (id : Text) :
    r'.retained kind id = r.retained kind id := by
  unfold retained
  rw [alike.held]

structure Windows (r : Registry) (D : Durable) : Prop where
  faithful : Faithful r D
  within : ∀ kind id, r.retained kind id ≤ r.options.maxGenerationsPerId
  stored : ∀ {options store clock x}, options.Accepted → Recovers options store clock D x →
    ∀ kind id, x.retained kind id ≤ r.retained kind id

theorem Windows.change (windows : Windows r D) (faithful : Faithful r' D)
    (options : r'.options = r.options) (retained : ∀ kind id, r'.retained kind id = r.retained kind id) :
    Windows r' D where
  faithful := faithful
  within kind id := by
    rw [options, retained]
    exact windows.within kind id
  stored accepted recovers kind id := by
    rw [retained]
    exact windows.stored accepted recovers kind id

theorem tables_applyRecord {record : LogRecord} (applied : r.applyRecord record = .ok r')
    (aside : ∀ kind : EntityKind, record.type ≠ kind.recordType) : r'.tables = r.tables := by
  unfold applyRecord at applied
  split at applied
  case h_1 =>
    split at applied
    · cases applied
    · cases applied
      rfl
  case h_2 type => exact absurd type (aside .class)
  case h_3 type => exact absurd type (aside .policy)
  case h_4 type => exact absurd type (aside .path)
  case h_5 type => exact absurd type (aside .capability)
  case h_6 type => exact absurd type (aside .reservation)
  case h_7 =>
    obtain ⟨decoded, -, rfl⟩ := Decode.map_eq_ok.mp applied
    dsimp only
    repeat' split
    all_goals rfl
  case h_8 =>
    obtain ⟨decoded, -, rfl⟩ := Decode.map_eq_ok.mp applied
    rfl
  case h_9 =>
    obtain ⟨decoded, -, rfl⟩ := Decode.map_eq_ok.mp applied
    rfl
  all_goals
    cases applied
    rfl

theorem Windows.aside (windows : Windows r D) {record : LogRecord}
    (faithful : Faithful r' (D.snoc record)) (options : r'.options = r.options)
    (tables : r'.tables = r.tables) (aside : ∀ kind : EntityKind, record.type ≠ kind.recordType) :
    Windows r' (D.snoc record) where
  faithful := faithful
  within kind id := by
    unfold retained
    rw [options, tables]
    exact windows.within kind id
  stored accepted recovers kind id := by
    obtain ⟨x, before, applied⟩ := recovers_snoc.mp recovers
    unfold retained
    rw [tables_applyRecord applied aside, tables]
    exact windows.stored accepted before kind id

theorem retained_push (value : kind.Carrier) (other : EntityKind) (id : Text) :
    (r.push kind value).retained other id = r.retained other id +
      if other = kind ∧ id = kind.entityId value then 1 else 0 := by
  unfold retained
  by_cases same : other = kind
  · subst same
    rw [held_push]
    by_cases named : id = other.entityId value
    · rw [if_pos named, if_pos ⟨rfl, named⟩, List.length_append, List.length_singleton]
    · rw [if_neg named, if_neg fun both => named both.2, Nat.add_zero]
  · rw [tables_push_ne value same, if_neg fun both => same both.1, Nat.add_zero]

theorem Windows.published (windows : Windows r D) {value pushed : kind.Carrier} {payload : Bytes}
    {sequence : Sequence}
    (faithful : Faithful (r.push kind pushed) (D.snoc ⟨kind.recordType, sequence, payload⟩))
    (id : kind.entityId pushed = kind.entityId value)
    (recorded : (kind.encode value
      (.empty : ByteWriter Limits.maxCanonicalRecordBytes)).data = some payload)
    (room : r.windowFull kind (kind.entityId value) = false) :
    Windows (r.push kind pushed) (D.snoc ⟨kind.recordType, sequence, payload⟩) where
  faithful := faithful
  within other key := by
    have within := windows.within other key
    show _ ≤ r.options.maxGenerationsPerId
    rw [retained_push, id]
    split
    next named =>
      obtain ⟨rfl, rfl⟩ := named
      unfold windowFull at room
      unfold retained GenerationTable.held at within ⊢
      cases held : (r.tables other).lookup (other.entityId value) with
      | none =>
          have range := windows.faithful.sane.orderly.range
          exact range
      | some list =>
          rw [held] at room
          have few : list.length < r.options.maxGenerationsPerId := by simpa using room
          exact few
    · exact within
  stored accepted recovers other key := by
    obtain ⟨x, before, applied⟩ := recovers_snoc.mp recovers
    rw [applyRecord_publication recorded applied, retained_push, retained_push, entityId_readBack, id]
    exact Nat.add_le_add_right (windows.stored accepted before other key) _

theorem Registry.Alike.trans {r'' : Registry} (first : r.Alike r') (second : r'.Alike r'') :
    r.Alike r'' where
  options := second.options.trans first.options
  durableEpoch := second.durableEpoch.trans first.durableEpoch
  currentEpoch := second.currentEpoch.trans first.currentEpoch
  watermark id := (second.watermark id).trans (first.watermark id)
  tables kind id := (second.tables kind id).trans (first.tables kind id)

theorem admission_alike (alike : r.Alike r') (value : kind.Carrier) (digest : Digest256) :
    admission kind (r'.tables kind) value digest = admission kind (r.tables kind) value digest := by
  unfold admission
  rw [alike.tables, Table.size_congr (Table.mem_congr (alike.tables kind))]

theorem windowFull_alike (alike : r.Alike r') (kind : EntityKind) (id : Text) :
    r'.windowFull kind id = r.windowFull kind id := by
  unfold windowFull
  rw [alike.tables, alike.options]

theorem Windows.alike_prune (windows : Windows r D) : r.Alike r.prune where
  options := rfl
  durableEpoch := rfl
  currentEpoch := rfl
  watermark _ := rfl
  tables kind id := by
    have within := windows.within kind id
    show (Table.mapValues (pruneGenerations kind r.options.maxGenerationsPerId)
      (r.tables kind)).lookup id = _
    rw [GenerationTable.lookup_pruned]
    unfold retained GenerationTable.held at within
    cases held : (r.tables kind).lookup id with
    | none => rfl
    | some list =>
        rw [held, Option.getD_some] at within
        unfold pruneGenerations
        rw [Option.map_some, if_pos within]

theorem compactable_windows (start : Registry) :
    Compactable fun r D => Windows r D ∧ start.Alike r where
  store store h := ⟨h.1.change (compactable_faithful.store store h.1.faithful) rfl fun _ _ => rfl,
    h.2.options, h.2.durableEpoch, h.2.currentEpoch, h.2.watermark, h.2.tables⟩
  pruned h := by
    have alike := h.1.alike_prune
    exact ⟨h.1.change h.1.faithful.prune rfl (retained_alike alike), h.2.trans alike⟩
  compacted {r D bytes} h encoded := by
    have alike := h.1.alike_prune
    have sane := h.1.faithful.sane.prune
    refine ⟨⟨sane.saved encoded, ?_, ?_⟩, h.2.trans alike⟩
    · exact (h.1.change h.1.faithful.prune rfl (retained_alike alike)).within
    · intro options store clock x accepted recovers kind id
      rw [recovers_saved encoded recovers]
      unfold retained
      rw [held_load sane.orderly, List.length_map]

def Registry.FindsRoom (r : Registry) (call : Call) : Prop :=
  ∀ kind value, r.asserts call = some ⟨kind, value⟩ → kind.validate value = .ok () →
    kind.generation value ≠ 0 →
    admission kind (r.tables kind) value (kind.contentDigest value) = .accepted →
    r.windowFull kind (kind.entityId value) = false

theorem invariant_windows : Invariant (fun _ r call => r.FindsRoom call) Windows where
  store store windows := windows.change (compactable_faithful.store store windows.faithful) rfl
    fun _ _ => rfl
  pruned {r D} windows := ((compactable_windows r).pruned ⟨windows, rfl, rfl, rfl, fun _ => rfl,
    fun _ _ => rfl⟩).1
  compacted {r D bytes} windows encoded := ((compactable_windows r).compacted ⟨windows, rfl, rfl, rfl,
    fun _ => rfl, fun _ _ => rfl⟩ encoded).1
  clock nowMs clockPinned windows :=
    windows.change (windows.faithful.aside _ nowMs clockPinned) rfl fun _ _ => rfl
  equivocated := by
    intro clock r D call kind value r₁ D₁ r' D' incumbent payload _ _ _ _ _ recorded _ windows
    constructor
    · intro attempt store
      exact windows.change (windows.faithful.unconflicted _ _ attempt store) rfl fun _ _ => rfl
    · intro _ sequence
      apply windows.aside (windows.faithful.conflicted recorded sequence) rfl rfl
      exact fun kind => by cases kind <;> exact nofun
  accepted := by
    intro clock r D call kind value r₁ D₁ r' D' payload before room asserts readied valid positive
      admitted recorded ready windows
    obtain ⟨windows₁, alike₁⟩ :=
      (compactable_windows r).readied readied ⟨before, rfl, rfl, rfl, fun _ => rfl, fun _ _ => rfl⟩
    obtain ⟨-, alike⟩ := (compactable_windows r).readied ready ⟨windows₁, alike₁⟩
    have faithful := @Invariant.accepted _ _ invariant_faithful clock r D call kind value r₁ D₁ r' D'
      payload before.faithful trivial asserts readied valid positive admitted recorded ready
      windows.faithful
    rw [admission_alike alike₁] at admitted
    have vacant := room kind value asserts valid positive admitted
    rw [← windowFull_alike alike] at vacant
    constructor
    · intro attempt store
      apply windows.change (faithful.undone attempt store) rfl
      exact retained_alike (alike_unpublished windows.faithful.sane.orderly _ payload attempt store)
    · intro attempt sequence
      apply windows.published (faithful.done attempt sequence) _ recorded
      · rw [entityId_asserted]
        exact vacant
      · rw [entityId_withProvenance]
  registered := by
    intro r D publisher incarnation boot ttlMs lease origin payload r' D' before granted recorded
      ready windows
    have faithful := invariant_faithful.registered before.faithful granted recorded ready
      windows.faithful
    constructor
    · intro attempt store
      exact windows.change (faithful.undone attempt store) rfl fun _ _ => rfl
    · intro attempt sequence
      apply windows.aside (faithful.done attempt sequence) rfl rfl
      exact fun kind => by cases kind <;> exact nofun
  revoked := by
    intro r D publisher removed payload r' D' before held ready windows
    have faithful : Mutates Faithful (revocationMutation publisher removed payload) r' D' :=
      invariant_faithful.revoked before.faithful held ready windows.faithful
    constructor
    · intro attempt store
      exact windows.change (faithful.undone attempt store) rfl fun _ _ => rfl
    · intro attempt sequence
      apply windows.aside (faithful.done attempt sequence) rfl rfl
      exact fun kind => by cases kind <;> exact nofun
  decided := by
    intro clock r D request decision payload r' D' before _ decided recorded ready windows
    have faithful := invariant_faithful.decided before.faithful trivial decided recorded ready
      windows.faithful
    constructor
    · intro attempt store
      exact windows.change (faithful.1 attempt store) rfl fun _ _ => rfl
    · intro sequence
      apply windows.aside (faithful.2 sequence) rfl rfl
      exact fun kind => by cases kind <;> exact nofun
  advanced sequence windows increment recorded := by
    apply windows.aside (windows.faithful.advanced increment recorded sequence) rfl rfl
    exact fun kind => by cases kind <;> exact nofun
  expired windows := windows.change (windows.faithful.aside _ _ _) rfl fun _ _ => rfl

def Durable.HoldsAtMost (D : Durable) (bound : ℕ) : Prop :=
  ∀ options store clock x, Recovers options store clock D x → ∀ kind id, x.retained kind id ≤ bound

/-- The steps that keep to the bound: a publication that is admitted finds room, and an opening has a
bound that what it finds in the directory keeps to. -/
def KeepsBound : Site → Event → Prop
  | .up r _, .called _ call _ => r.FindsRoom call
  | .down d, .opened options _ _ (.ok _) =>
      ∀ D, Finds options.store d D → D.HoldsAtMost options.maxGenerationsPerId
  | _, _ => True

theorem restarts_windows : Restarts KeepsBound Windows Durable.Sane where
  empty := Durable.sane_empty
  durable windows := windows.faithful.durable
  opened {d options clock boot r D D'} finds met restored durable := by
    have recovered {store : Store} {x : Registry} (accepted : options.Accepted)
        (recovers : Recovers options store clock D x) : Windows x D := by
      refine ⟨durable.faithful accepted recovers, ?_, ?_⟩
      · obtain ⟨loaded, load, rebuilt⟩ := recovers
        rw [(unread_of_recovered load rebuilt).options]
        exact met D finds options store clock x ⟨loaded, load, rebuilt⟩
      · intro options' store' clock' x' _ recovers' kind id
        rw [recovers_agree durable.sound recovers recovers']
        exact Nat.le_refl _
    cases restored with
    | observed accepted _ recovers => exact recovered accepted recovers
    | claimed accepted _ recovers advancing =>
        exact invariant_windows.advancing (recovered accepted recovers) advancing
  cutOpening restored durable := (durable.restored restored).durable
  cutCall _ effect windows := (invariant_faithful.effect windows.faithful trivial effect).durable

/-- As long as no admitted publication finds a full window, no more generations of an identifier are
retained than the options allow. -/
theorem generations_bounded {openings : Openings} {events : List Event} {d : Disk FileName}
    (run : RunWhere openings KeepsBound events (.up r d)) (kind : EntityKind) (id : Text) :
    r.retained kind id ≤ r.options.maxGenerationsPerId := by
  obtain ⟨D, -, windows⟩ := run.standing invariant_windows restarts_windows fun met => met
  have windows : Windows r D := windows
  exact windows.within kind id

theorem directory_bounded {openings : Openings} {events : List Event} {d : Disk FileName}
    (run : RunWhere openings KeepsBound events (.up r d)) :
    ∃ D, Drives r.store d D ∧ ∀ options store clock x, options.Accepted →
      Recovers options store clock D x → ∀ kind id, x.retained kind id ≤ r.options.maxGenerationsPerId := by
  obtain ⟨D, drives, windows⟩ :=
    run.standing invariant_windows restarts_windows fun met => met
  have windows : Windows r D := windows
  exact ⟨D, drives, fun _ _ _ _ accepted recovers kind id =>
    Nat.le_trans (windows.stored accepted recovers kind id) (windows.within kind id)⟩

open Proof.Engine

def narrow : RegistryOptions := { RegistryOptions.default with maxGenerationsPerId := 1 }

theorem narrow_filled :
    (match execute (Registry.open narrow 0 (List.replicate 16 7)) Disk.empty with
      | (.ok r, d) => (execute (r.call 0 (.publishClass plainClass [])) d).1.2.retained .class
          (text "gold") == 1
      | (.error _, _) => false) = true := by
  decide +kernel

theorem generations_bounded_narrow : ∃ events r d,
    RunWhere .any KeepsBound events (.up r d) ∧ r.retained .class (text "gold") = 1 ∧
      r.retained .class (text "gold") ≤ r.options.maxGenerationsPerId := by
  have filled := narrow_filled
  cases executed : execute (Registry.open narrow 0 (List.replicate 16 7)) Disk.empty with
  | mk result d =>
      rw [executed] at filled
      cases result with
      | error e => cases filled
      | ok r =>
          have admitted : Openings.any narrow Disk.empty := trivial
          obtain ⟨store, D, members, step, -⟩ := first_opening admitted executed rfl
          have opened : KeepsBound (.down Disk.empty)
              (.opened narrow 0 (List.replicate 16 7) (.ok r.currentEpoch)) := by
            intro D finds options store clock x recovers kind id
            rw [eq_empty_of_finds finds] at recovers
            rw [recovers_empty recovers]
            exact Nat.zero_le _
          have room : r.FindsRoom (.publishClass plainClass []) := by
            intro kind value _ _ _ _
            rw [members]
            rfl
          dsimp only at filled
          obtain ⟨⟨⟨answer, r'⟩, d'⟩, published⟩ :
            ∃ ends, execute (r.call 0 (.publishClass plainClass [])) d = ends := ⟨_, rfl⟩
          rw [published] at filled
          have run := RunWhere.next (RunWhere.next .start step opened)
            (.called (ends_of_execute published)) room
          exact ⟨_, r', d', run, beq_iff_eq.mp filled, generations_bounded run _ _⟩

def overfilling : List Action :=
  [.open narrow 0 (List.replicate 16 7),
    .call 0 (.publishClass plainClass []),
    .call 0 (.publishClass { plainClass with generation := 2 } [])]

theorem narrow_overfilled :
    (match (Site.down Disk.empty).rehearse overfilling with
      | some (_, .up r _) =>
          r.retained .class (text "gold") == 2 && r.options.maxGenerationsPerId == 1
      | _ => false) = true := by
  decide +kernel

/-- Both of them are then retained. -/
theorem generations_unbounded : ¬∀ openings events r d, Run openings events (.up r d) →
    ∀ kind id, r.retained kind id ≤ r.options.maxGenerationsPerId := by
  intro bounded
  have overfilled := narrow_overfilled
  split at overfilled
  case h_2 => cases overfilled
  next events r d rehearsed =>
    rw [Bool.and_eq_true, beq_iff_eq, beq_iff_eq] at overfilled
    have within := bounded _ events r d (run_of_rehearse rehearsed) .class (text "gold")
    rw [overfilled.1, overfilled.2] at within
    exact absurd within (by decide)

end QoSFabric
