import QoSFabric.Proof.Codec.Demands
import QoSFabric.Proof.Registry.Durability
import QoSFabric.Proof.Registry.Leases

/-!
# Reading snapshots back

The options bound what a compaction keeps, and constants bound what the reader takes.
-/

namespace QoSFabric

open FileSystem Registry

variable {openings : Openings} {r r' : Registry} {d d' : Disk FileName} {D D' : Durable} {clock : UInt64}

/-- A registry with no more generations and decisions than the reader of a snapshot takes, and no
capability without a failure domain. -/
structure Registry.Portable (r : Registry) : Prop where
  generations : ∀ kind id, ((r.tables kind).held id).length ≤ Limits.maxGenerationsPerId
  decisions : Table.size r.decisions ≤ Limits.maxDecisionsRetained
  declares : ∀ id, ∀ capability ∈ (r.tables .capability).held id,
    ResourceCapability.diversityDomain capability ≠ []

theorem Registry.Portable.of_contained (contained : ∀ kind, r.Contained kind)
    (few : Table.size r.decisions ≤ Limits.maxDecisionsRetained) : r.Portable where
  generations kind id := by
    unfold GenerationTable.held
    cases found : (r.tables kind).lookup id with
    | none => exact Nat.zero_le _
    | some list => exact (contained kind id list found).1
  decisions := few
  declares id capability mem := by
    unfold GenerationTable.held at mem
    cases found : (r.tables .capability).lookup id with
    | none =>
        rw [found] at mem
        cases mem
    | some list =>
        rw [found] at mem
        exact (contained .capability id list found).2 capability mem

theorem Registry.Sane.loadable (sane : r.Sane) (portable : r.Portable) : r.Loadable where
  publishers := sane.orderly.publishers
  publisher := sane.orderly.publisher
  identifiers := sane.orderly.identifiers
  generations kind id list found := by
    have held : (r.tables kind).held id = list := by
      unfold GenerationTable.held
      rw [found]
      rfl
    constructor
    · rw [← held]
      exact portable.generations kind id
    · intro value mem
      rw [← held] at mem
      constructor
      · exact ((sane.orderly.tables kind).admitted id value mem).valid
      · rintro capability rfl same
        obtain rfl := eq_of_heq same
        exact portable.declares id value mem
  conflicts := sane.recorded.conflicts
  decisions := portable.decisions
  decision key decision held := (sane.recorded.decision key decision held).2.listed

/-- An opening that fails in its store, or at the record of the epoch it takes. -/
def FailsElsewhere (options : RegistryOptions) (boot : Bytes) (d : Disk FileName) (e : Error) : Prop :=
  (∃ d', (Store.open options.store boot).Ends Disk.world d (.error e) d') ∨
    ∃ r r' d' d'', ((r : Registry).advanceEpochLocked (text "fabric-authority-restart")).Ends Disk.world
      d' (.error e, r') d''

theorem restores_of_open {options : RegistryOptions} {boot : Bytes} {result : Result Registry}
    {bytes : Bytes} (accepted : options.Accepted) (keeps : Keeps d ⟨bytes, []⟩)
    (run : (Registry.open options clock boot).Ends Disk.world d result d') :
    (∃ e d', result = .error e ∧ (Store.open options.store boot).Ends Disk.world d (.error e) d') ∨
    ∃ s d₁, s.snapshotBytes = bytes ∧ s.replayed = [] ∧
      (restore options s clock).Ends Disk.world d₁ result d' := by
  unfold Registry.open at run
  rw [if_neg (by
    rintro (zero | large)
    · exact absurd zero (Nat.pos_iff_ne_zero.mp accepted.1)
    · exact absurd accepted.2 (Nat.not_le.mpr large))] at run
  obtain ⟨opened, d₁, opening, rest⟩ := Interaction.Program.ends_bind.mp run
  cases opened with
  | error failure =>
      cases rest
      exact .inl ⟨failure, _, rfl, opening⟩
  | ok s =>
      have adopts : (Store.open options.store boot).wp Disk.world (fun _ => True)
          (fun result _ => ∀ s, result = .ok s → s.snapshotBytes = bytes ∧ s.replayed = []) d := by
        apply Interaction.Program.wp_mono keeps.wp_open fun _ _ => trivial
        rintro _ _ opened s rfl
        obtain ⟨D₀, leaves, -, payload, history, -⟩ := opened
        obtain rfl := leaves.front.eq_of_nil
        exact ⟨payload, history⟩
      obtain ⟨payload, history⟩ := Interaction.Program.wp_ends adopts opening s rfl
      exact .inr ⟨s, d₁, payload, history, rest⟩

theorem loaded_of_restored {options : RegistryOptions} {s : Store}
    (run : (restore options s clock).Ends Disk.world d (.ok r) d') :
    ∃ loaded, (fresh options s clock).loadSnapshotState s.snapshotBytes = .ok loaded := by
  unfold restore at run
  cases load : (fresh options s clock).loadSnapshotState s.snapshotBytes with
  | error e =>
      rw [load] at run
      cases run
  | ok loaded => exact ⟨loaded, rfl⟩

theorem fails_of_restored {options : RegistryOptions} {s : Store} {loaded : Registry} {e : Error}
    (load : (fresh options s clock).loadSnapshotState s.snapshotBytes = .ok loaded)
    (history : s.replayed = []) (run : (restore options s clock).Ends Disk.world d (.error e) d') :
    ∃ r r' d' d'', ((r : Registry).advanceEpochLocked (text "fabric-authority-restart")).Ends Disk.world
      d' (.error e, r') d'' := by
  unfold restore at run
  rw [load, history] at run
  dsimp only [rebuildFromLog, List.foldlM_nil, Pure.pure, Except.pure] at run
  split at run
  · cases run
  · obtain ⟨⟨advanced, r'⟩, d₂, advancing, rest⟩ := Interaction.Program.ends_bind.mp run
    cases advanced with
    | error failure =>
        cases rest
        exact ⟨_, _, _, _, advancing⟩
    | ok next => cases rest

/-- What a compaction writes is read back exactly when what it keeps is what the reader takes. -/
theorem compaction_read_back {events : List Event}
    (run : Run openings events (.up r d))
    (step : Step openings (.up r d) (.called clock .compact (.finished (.ok ()))) (.up r' d')) :
    ∃ bytes, r.prune.encodeSnapshotState = .ok bytes ∧ Keeps d' ⟨bytes, []⟩ ∧
      (∀ options store clock,
        (∃ loaded, (fresh options store clock).loadSnapshotState bytes = .ok loaded) ↔
          r.prune.Portable) ∧
      ∀ {d'' : Disk FileName} {options clock boot result site}, options.Accepted →
        Step openings (.up r' d') .closed (.down d'') →
        Step openings (.down d'') (.opened options clock boot result) site →
        (∀ epoch, result = .ok epoch → r.prune.Portable) ∧
        ∀ e, result = .error e → r.prune.Portable → FailsElsewhere options boot d'' e := by
  obtain ⟨D, refines, faithful⟩ := run.faithful
  obtain ⟨_, _, D', same, effect, drives'⟩ := step.effect refines
  cases same
  cases effect with
  | compacted compacted =>
      cases compacted with
      | done store encoded =>
          rename_i bytes
          have portable {s loaded : Registry} (load : s.loadSnapshotState bytes = .ok loaded) :
              r.prune.Portable :=
            have contained := contained_of_loaded encoded load
            .of_contained contained.1 contained.2
          have loads (portable : r.prune.Portable) (options store clock) : ∃ loaded,
              (fresh options store clock).loadSnapshotState bytes = .ok loaded := by
            have loadable := (Faithful.sane faithful).prune.loadable portable
            exact ⟨_, loadSnapshotState_of_loadable loadable encoded⟩
          refine ⟨bytes, encoded, drives'.keeps, ?_, ?_⟩
          · intro options store clock
            exact ⟨fun ⟨_, load⟩ => portable load, fun portable => loads portable _ _ _⟩
          intro d'' options clock boot result site accepted closing opening
          cases closing with
          | closed closes =>
              have kept := Interaction.Program.wp_ends drives'.wp_closeRegistry closes
              cases opening with
              | opened _ run =>
                  refine ⟨fun _ _ => ?_, nofun⟩
                  rcases restores_of_open accepted kept run with ⟨_, _, failed, -⟩ |
                    ⟨s, _, payload, -, restored⟩
                  · cases failed
                  obtain ⟨loaded, load⟩ := loaded_of_restored restored
                  rw [payload] at load
                  exact portable load
              | refused _ run =>
                  refine ⟨nofun, ?_⟩
                  rintro e same portable
                  cases same
                  rcases restores_of_open accepted kept run with ⟨_, d₁, failed, opening⟩ |
                    ⟨s, _, payload, history, restored⟩
                  · cases failed
                    exact .inl ⟨d₁, opening⟩
                  obtain ⟨loaded, load⟩ := loads portable options s clock
                  rw [← payload] at load
                  exact .inr (fails_of_restored load history restored)

def nineGenerations : List Action :=
  .open { RegistryOptions.default with maxGenerationsPerId := 16 } 0 (List.replicate 16 7) ::
    (List.range 9).map fun older => .call 0
      (.publishClass { Proof.Engine.plainClass with generation := UInt64.ofNat (older + 1) } [])

def compactsUnreadable : Bool :=
  match (Site.down Disk.empty).rehearse nineGenerations with
  | some (_, .up r d) =>
      match execute (r.call 0 .compact) d, r.prune.encodeSnapshotState with
      | ((.finished (.ok ()), _), _), .ok bytes =>
          match (fresh r.options r.store 0).loadSnapshotState bytes with
          | .error e => e == makeError .tooLarge "snapshot generation table exceeds its budget"
          | .ok _ => false
      | _, _ => false
  | _ => false

/-- The snapshot a compaction has written is over the budget of its reader. -/
theorem compaction_unreadable : ¬∀ openings events r d clock r' d' bytes,
    Run openings events (.up r d) →
    Step openings (.up r d) (.called clock .compact (.finished (.ok ()))) (.up r' d') →
    r.prune.encodeSnapshotState = .ok bytes →
    ∃ loaded, (fresh r.options r.store clock).loadSnapshotState bytes = .ok loaded := by
  intro readable
  have compacts : compactsUnreadable = true := by decide +kernel
  unfold compactsUnreadable at compacts
  split at compacts
  case h_2 => cases compacts
  next events r d rehearsed =>
    split at compacts
    case h_2 => cases compacts
    next r' d' bytes executed encoded =>
      obtain ⟨loaded, load⟩ := readable _ events r d 0 r' d' bytes (run_of_rehearse rehearsed)
        (.called (ends_of_execute executed)) encoded
      rw [load] at compacts
      cases compacts

def heldReservation : Reservation where
  resource := text "r1"
  generation := 1
  classId := text "gold"
  classGeneration := 1
  reservedMinRateBps := 100
  reservedBurstBytes := 0
  epoch := 1
  publisher := text "p1"
  incarnation := 1
  expiresAtMs := 0
  digest := .zero
  provenance := .none

def holding : List Action :=
  leased ++ [.call 0 (.publishClass Proof.Engine.plainClass []),
    .call 0 (.publishClass { Proof.Engine.plainClass with label := text "other" } []),
    .call 0 (.publishClass { Proof.Engine.plainClass with generation := 2 } []),
    .call 0 (.publishPolicy Proof.Engine.plainPolicy []),
    .call 0 (.publishPath Proof.Engine.plainPath []),
    .call 0 (.publishCapability leasedCapability),
    .call 0 (.publishReservation heldReservation),
    .call 0 (.evaluate { Proof.Engine.plainRequest with classId := text "lead" })]

def suitsReader (r : Registry) : Bool :=
  EntityKind.all.all (fun kind => (r.tables kind).entries.all fun entry =>
    entry.2.length ≤ Limits.maxGenerationsPerId) &&
  (Table.size r.decisions ≤ Limits.maxDecisionsRetained : Bool) &&
  (r.tables .capability).entries.all fun entry =>
    entry.2.all fun capability => ResourceCapability.diversityDomain capability ≠ []

theorem portable_of_suitsReader (suits : suitsReader r = true) : r.Portable := by
  unfold suitsReader at suits
  simp only [Bool.and_eq_true, List.all_eq_true, decide_eq_true_eq] at suits
  obtain ⟨⟨generations, decisions⟩, declares⟩ := suits
  refine .of_contained (fun kind id list found => ?_) decisions
  have mem := Table.mem_entries.mpr found
  refine ⟨generations kind (by cases kind <;> decide) _ mem, ?_⟩
  cases kind with
  | capability => exact declares _ mem
  | _ => exact fun _ _ undeclared => undeclared

def compactsHolding : Bool :=
  match (Site.down Disk.empty).rehearse holding with
  | some (_, .up r d) =>
      EntityKind.all.all (fun kind => 0 < Table.size (r.prune.tables kind)) &&
        (0 < Table.size r.prune.decisions : Bool) && (0 < r.prune.conflicts.length : Bool) &&
        suitsReader r.prune &&
        match execute (r.call 0 .compact) d with
        | ((.finished (.ok ()), _), _) => true
        | _ => false
  | _ => false

/-- The snapshot of a fabric with something in every table is read back. -/
theorem compaction_read_back_holding : ∃ events r d r' d',
    Run .any events (.up r d) ∧
    Step .any (.up r d) (.called 0 .compact (.finished (.ok ()))) (.up r' d') ∧
    (∀ kind ∈ EntityKind.all, 0 < Table.size (r.prune.tables kind)) ∧
    0 < Table.size r.prune.decisions ∧ 0 < r.prune.conflicts.length ∧
    ∃ bytes, r.prune.encodeSnapshotState = .ok bytes ∧
      ∀ options store clock, ∃ loaded,
        (fresh options store clock).loadSnapshotState bytes = .ok loaded := by
  have compacts : compactsHolding = true := by decide +kernel
  unfold compactsHolding at compacts
  split at compacts
  case h_2 => cases compacts
  next events r d rehearsed =>
    simp only [Bool.and_eq_true, List.all_eq_true, decide_eq_true_eq] at compacts
    obtain ⟨⟨⟨⟨tables, decisions⟩, markers⟩, suits⟩, compacts⟩ := compacts
    split at compacts
    case h_2 => cases compacts
    next r' d' executed =>
      have run : Run .any events (.up r d) := run_of_rehearse rehearsed
      have compaction : Step .any (.up r d)
          (.called 0 .compact (.finished (.ok ()))) (.up r' d') := .called (ends_of_execute executed)
      obtain ⟨bytes, encoded, -, loads, -⟩ := compaction_read_back run compaction
      exact ⟨events, r, d, r', d', run, compaction, tables, decisions, markers, bytes, encoded,
        fun options store clock => (loads options store clock).mpr (portable_of_suitsReader suits)⟩

end QoSFabric
