import QoSFabric.Proof.Engine.Overflow
import QoSFabric.Proof.Registry.Publication
import QoSFabric.Proof.Registry.Supersession

/-!
# Pinned generations

A request that pins a superseded generation is stale or disputed as long as the generation is held.
A compaction prunes the older generations of an identifier, and the same request is then rejected.
-/

namespace QoSFabric

open FileSystem Proof.Engine

variable {openings : Openings} {kind : EntityKind} {identifier : Text} {generation : Generation}
  {r : Registry} {clock : UInt64} {request : ContractRequest} {decision : ContractDecision}

inductive ContractRequest.Refers (request : ContractRequest) : EntityKind → Text → Generation → Prop where
  | class : Refers request .class request.classId request.classGeneration
  | policy : Refers request .policy request.policy request.policyGeneration
  | path : Refers request .path request.path request.pathGeneration

/-- A generation of an identifier is held. -/
def Registry.Holds (r : Registry) (kind : EntityKind) (identifier : Text) (generation : Generation) :
    Prop :=
  ∃ value ∈ (r.tables kind).held identifier, kind.generation value = generation

/-- A request pins a superseded generation of one definition, and the newest of the others. -/
structure Registry.Outdated (r : Registry) (request : ContractRequest) (kind : EntityKind)
    (identifier : Text) (generation : Generation) : Prop where
  valid : validateRequest request = .ok ()
  refers : request.Refers kind identifier generation
  positive : 1 ≤ generation
  superseded : ∃ latest, r.latest kind identifier = some latest ∧ generation < kind.generation latest
  current : ∀ other id pin, request.Refers other id pin → other ≠ kind →
    ∃ latest, r.latest other id = some latest ∧ (pin = 0 ∨ pin = other.generation latest)

def absences : List Text :=
  [text "policy definition is absent from the registry",
    text "path definition is absent from the registry",
    text "service class definition is absent from the registry"]

def ContractDecision.Absent (decision : ContractDecision) : Prop :=
  decision.outcome = .rejected ∧ decision.primaryReason ∈ absences

theorem Registry.findEntity_ok {value : kind.Carrier}
    (found : r.findEntity kind identifier generation = .ok value) :
    value ∈ (r.tables kind).held identifier ∧ kind.generation value = generation := by
  unfold Registry.findEntity at found
  unfold GenerationTable.held
  split at found
  · cases found
  next list lookup =>
    split at found
    · cases found
    next item first =>
      obtain rfl := Except.ok.inj found
      rw [lookup]
      have matched := List.find?_some first
      exact ⟨List.mem_of_find?_eq_some first, beq_iff_eq.mp matched⟩

theorem Registry.Holds.findEntity (holds : r.Holds kind identifier generation) :
    ∃ value, r.findEntity kind identifier generation = .ok value := by
  obtain ⟨value, mem, same⟩ := holds
  unfold GenerationTable.held at mem
  unfold Registry.findEntity
  cases lookup : (r.tables kind).lookup identifier with
  | none =>
      rw [lookup] at mem
      cases mem
  | some list =>
      rw [lookup] at mem
      dsimp only
      split
      next missing =>
        rw [List.find?_eq_none] at missing
        exact absurd (beq_iff_eq.mpr same) (missing value mem)
      next item first => exact ⟨item, rfl⟩

theorem Registry.Orderly.newest_ok (orderly : r.Orderly) {latest : kind.Carrier}
    (newest : r.latest kind identifier = some latest) :
    r.findLatest kind identifier = .ok latest := by
  rw [← orderly.findLatest] at newest
  cases found : r.findLatest kind identifier with
  | error e =>
      rw [found] at newest
      cases newest
  | ok value =>
      rw [found] at newest
      exact congrArg _ (Option.some.inj newest)

theorem Registry.Orderly.latest_ok (orderly : r.Orderly) {latest : kind.Carrier}
    (found : r.findLatest kind identifier = .ok latest) :
    r.latest kind identifier = some latest := by
  rw [← orderly.findLatest, found]
  rfl

theorem Registry.Orderly.entityFor_ok (orderly : r.Orderly) {value : kind.Carrier}
    (found : r.entityFor kind identifier generation = .ok value) :
    value ∈ (r.tables kind).held identifier ∧ pinned generation (kind.generation value) = false := by
  unfold Registry.entityFor at found
  split at found
  next zero =>
    subst zero
    exact ⟨List.mem_of_getLast? (orderly.latest_ok found), rfl⟩
  next nonzero =>
    obtain ⟨mem, same⟩ := Registry.findEntity_ok found
    refine ⟨mem, ?_⟩
    unfold pinned
    rw [same, bne_self_eq_false, Bool.and_false]

theorem Registry.Orderly.entityFor_of_current (orderly : r.Orderly) {latest : kind.Carrier}
    (newest : r.latest kind identifier = some latest)
    (pins : generation = 0 ∨ generation = kind.generation latest) :
    ∃ value, r.entityFor kind identifier generation = .ok value := by
  unfold Registry.entityFor
  split
  · exact ⟨latest, orderly.newest_ok newest⟩
  next nonzero =>
    have holds : r.Holds kind identifier generation :=
      ⟨latest, List.mem_of_getLast? newest, (pins.resolve_left nonzero).symm⟩
    exact holds.findEntity

theorem Registry.Orderly.currencyOf (orderly : r.Orderly) :
    r.currencyOf kind identifier = (r.latest kind identifier).map kind.generation := by
  rw [← orderly.findLatest]
  rfl

namespace Registry.Outdated

theorem assembles (outdated : r.Outdated request kind identifier generation) (orderly : r.Orderly)
    (holds : r.Holds kind identifier generation) : ∃ inputs, r.Assembles request inputs := by
  have nonzero : generation ≠ 0 := by
    have positive := outdated.positive
    rintro rfl
    exact absurd positive (by decide)
  have resolves (other : EntityKind) (id : Text) (pin : Generation)
      (refers : request.Refers other id pin) : ∃ value, r.entityFor other id pin = .ok value := by
    by_cases same : other = kind
    · subst same
      have pinnedThere : id = identifier ∧ pin = generation := by
        have own := outdated.refers
        cases refers <;> cases own <;> exact ⟨rfl, rfl⟩
      obtain ⟨rfl, rfl⟩ := pinnedThere
      unfold Registry.entityFor
      rw [if_neg nonzero]
      exact holds.findEntity
    · obtain ⟨latest, newest, pins⟩ := outdated.current other id pin refers same
      exact orderly.entityFor_of_current newest pins
  obtain ⟨policy, policyFor⟩ := resolves .policy _ _ .policy
  obtain ⟨path, pathFor⟩ := resolves .path _ _ .path
  obtain ⟨klass, classFor⟩ := resolves .class _ _ .class
  exact ⟨_, policy, path, klass, outdated.valid, policyFor, pathFor, classFor, rfl⟩

end Registry.Outdated

theorem Registry.Assembles.accepted {inputs : EvaluationInputs} (orderly : r.Orderly)
    (assembles : r.Assembles request inputs) : Accepted inputs := by
  obtain ⟨policy, path, klass, valid, policyFor, pathFor, classFor, rfl⟩ := assembles
  obtain ⟨policyHeld, policyPin⟩ := orderly.entityFor_ok policyFor
  obtain ⟨pathHeld, pathPin⟩ := orderly.entityFor_ok pathFor
  obtain ⟨classHeld, classPin⟩ := orderly.entityFor_ok classFor
  constructor
  case request => exact valid
  case klass => exact ((orderly.tables .class).admitted _ _ classHeld).1
  case policy => exact ((orderly.tables .policy).admitted _ _ policyHeld).1
  case path => exact ((orderly.tables .path).admitted _ _ pathHeld).1
  case classId => exact (orderly.tables .class).same _ _ classHeld
  case policyId => exact (orderly.tables .policy).same _ _ policyHeld
  case pathId => exact (orderly.tables .path).same _ _ pathHeld
  case classPin => exact classPin
  case policyPin => exact policyPin
  case pathPin => exact pathPin
  case capabilities => exact List.length_map _
  case reservations => exact .inr (List.length_map _)

theorem Registry.Assembles.validated {inputs : EvaluationInputs} (orderly : r.Orderly)
    (assembles : r.Assembles request inputs) : Validated inputs := by
  obtain ⟨policy, path, klass, -, -, -, -, rfl⟩ := assembles
  intro capability mem
  obtain ⟨component, -, found⟩ := List.mem_map.mp mem
  unfold Registry.evidenceFor at found
  rw [orderly.findLatest] at found
  exact ((orderly.tables .capability).admitted _ _ (List.mem_of_getLast? found)).1

theorem Registry.Outdated.not_current {inputs : EvaluationInputs}
    (outdated : r.Outdated request kind identifier generation) (orderly : r.Orderly)
    (assembles : r.Assembles request inputs) : ¬Current inputs := by
  intro current
  have accepted := assembles.accepted orderly
  obtain ⟨policy, path, klass, -, -, -, -, rfl⟩ := assembles
  obtain ⟨latest, newest, older⟩ := outdated.superseded
  have positive := outdated.positive
  have currency := @Registry.Orderly.currencyOf kind identifier r orderly
  rw [newest, Option.map_some] at currency
  -- what is resolved is what is pinned, and is the newest as well
  have refuted (resolved : Generation) (pin : pinned generation resolved = false)
      (same : kind.generation latest = resolved) : False := by
    unfold pinned at pin
    rw [Bool.and_eq_false_iff, bne_eq_false_iff_eq, bne_eq_false_iff_eq] at pin
    cases pin with
    | inl zero =>
        subst zero
        exact absurd positive (by decide)
    | inr equal =>
        rw [same, equal] at older
        exact UInt64.lt_irrefl _ older
  have refers := outdated.refers
  cases refers with
  | «class» => exact refuted _ accepted.classPin (current.klass _ currency)
  | policy => exact refuted _ accepted.policyPin (current.policy _ currency)
  | path => exact refuted _ accepted.pathPin (current.path _ currency)

theorem Registry.Outdated.decided (outdated : r.Outdated request kind identifier generation)
    (orderly : r.Orderly) (decided : r.decide request = .ok decision) :
    (decision.outcome = .stale ∨ decision.outcome = .conflict) ∧ ¬decision.Absent ↔
      r.Holds kind identifier generation := by
  constructor
  · rintro ⟨clean, -⟩
    cases Registry.decides decided with
    | rejected reason => cases clean <;> contradiction
    | evaluated valid policyFor pathFor classFor evaluated =>
        have refers := outdated.refers
        have positive := outdated.positive
        have holds (found : ∃ value, r.entityFor kind identifier generation = .ok value) :
            r.Holds kind identifier generation := by
          obtain ⟨value, found⟩ := found
          unfold Registry.entityFor at found
          rw [if_neg (fun zero => absurd (zero ▸ positive) (by decide))] at found
          exact ⟨value, Registry.findEntity_ok found⟩
        cases refers with
        | «class» => exact holds ⟨_, classFor⟩
        | policy => exact holds ⟨_, policyFor⟩
        | path => exact holds ⟨_, pathFor⟩
  · intro holds
    obtain ⟨inputs, assembles⟩ := outdated.assembles orderly holds
    have evaluated : QoSFabric.evaluate inputs = .ok decision := assembles.decide.symm.trans decided
    have outcome := evaluate_superseded (assembles.accepted orderly) (assembles.validated orderly)
      (outdated.not_current orderly assembles) evaluated
    refine ⟨outcome, ?_⟩
    rintro ⟨rejects, -⟩
    rw [rejects] at outcome
    cases outcome <;> contradiction

/-- An evaluation that pins a superseded generation is stale or disputed, and not rejected for an
absent definition, exactly when the generation is held. -/
theorem superseded_pin_iff {events : List Event} {site : Site} {d : Disk FileName}
    (run : Run openings events (.up r d))
    (step : Step openings (.up r d) (.called clock (.evaluate request) (.decided (.ok decision))) site)
    (outdated : r.Outdated request kind identifier generation) :
    (decision.outcome = .stale ∨ decision.outcome = .conflict) ∧ ¬decision.Absent ↔
      r.Holds kind identifier generation := by
  obtain ⟨D, refines, standing⟩ := run.faithful
  have faithful : Faithful r D := standing
  obtain ⟨r', d', D', -, effect, -⟩ := step.effect refines
  obtain ⟨tables, -⟩ := r.tick_members clock
  have ticked : (r.tick clock).Outdated request kind identifier generation := by
    obtain ⟨valid, refers, positive, superseded, current⟩ := outdated
    refine ⟨valid, refers, positive, ?_, ?_⟩
    · rwa [latest_congr tables]
    · intro other id pin names ne
      rw [latest_congr tables]
      exact current other id pin names ne
  have decided := ticked.decided (faithful.ticked clock).sane.orderly effect.decided
  unfold Registry.Holds at decided ⊢
  rwa [tables] at decided

def pruning : List Action :=
  [.open { RegistryOptions.default with maxGenerationsPerId := 1 } 0 (List.replicate 16 7),
    .call 0 (.publishClass plainClass []),
    .call 0 (.publishClass { plainClass with generation := 2 } []),
    .call 0 .compact,
    .call 0 (.publishPolicy plainPolicy []),
    .call 0 (.publishPath plainPath [])]

def firstPinned : ContractRequest := { plainRequest with classGeneration := 1 }

def prunesPinned : Bool :=
  match (Site.down Disk.empty).rehearse pruning with
  | some (_, .up r _) =>
      (r.latest .class (text "gold")).map QoSClass.generation == some 2 &&
        (r.latest .policy firstPinned.policy).isSome && (r.latest .path firstPinned.path).isSome &&
        decide (r.store.Spacious 400120) &&
        match (r.tick 0).decide firstPinned with
        | .ok decision => decision.outcome == .rejected && decide decision.Short
        | _ => false
  | _ => false

theorem exists_pruned : ∃ events r d decision site, Run .any events (.up r d) ∧
    Step .any (.up r d)
      (.called 0 (.evaluate firstPinned) (.decided (.ok decision))) site ∧
    r.Outdated firstPinned .class (text "gold") 1 ∧ decision.outcome = .rejected := by
  have prunes : prunesPinned = true := by decide +kernel
  unfold prunesPinned at prunes
  split at prunes
  case h_2 => cases prunes
  next events r d rehearsed =>
    simp only [Bool.and_eq_true, beq_iff_eq, decide_eq_true_eq] at prunes
    obtain ⟨⟨⟨⟨latest, policy⟩, path⟩, spacious⟩, rejects⟩ := prunes
    have run := run_of_rehearse rehearsed
    split at rejects
    case h_2 => cases rejects
    next decision decided =>
      simp only [Bool.and_eq_true, beq_iff_eq, decide_eq_true_eq] at rejects
      obtain ⟨rejected, short⟩ := rejects
      obtain ⟨between, store, d', ends, -⟩ := (run.affords (120 + 400000 + 0) spacious).evaluate
        decided (within_decision short) (by decide)
      refine ⟨events, r, d, decision, _, run, .called ends,
        ⟨by decide +kernel, .class, by decide, ?_, ?_⟩, rejected⟩
      · obtain ⟨klass, newest, generation⟩ := Option.map_eq_some_iff.mp latest
        refine ⟨klass, newest, ?_⟩
        show 1 < klass.generation
        rw [generation]
        decide
      · intro other id pin names ne
        cases names with
        | «class» => exact absurd rfl ne
        | policy =>
            obtain ⟨value, newest⟩ := Option.isSome_iff_exists.mp policy
            exact ⟨value, newest, .inl rfl⟩
        | path =>
            obtain ⟨value, newest⟩ := Option.isSome_iff_exists.mp path
            exact ⟨value, newest, .inl rfl⟩

/-- The pinned generation has been pruned, and the request is rejected. -/
theorem superseded_pin_rejected : ¬∀ openings events r d clock request decision site kind identifier
    generation, Run openings events (.up r d) →
    Step openings (.up r d) (.called clock (.evaluate request) (.decided (.ok decision))) site →
    r.Outdated request kind identifier generation →
    (decision.outcome = .stale ∨ decision.outcome = .conflict) ∧ ¬decision.Absent := by
  intro stale
  obtain ⟨events, r, d, decision, site, run, step, outdated, rejected⟩ := exists_pruned
  obtain ⟨outcome, -⟩ := stale _ events r d 0 _ decision site .class _ 1 run step outdated
  rw [rejected] at outcome
  cases outcome <;> contradiction

theorem superseded_pin_iff_pruned : ∃ events r d decision site,
    Run .any events (.up r d) ∧
    Step .any (.up r d)
      (.called 0 (.evaluate firstPinned) (.decided (.ok decision))) site ∧
    ((decision.outcome = .stale ∨ decision.outcome = .conflict) ∧ ¬decision.Absent ↔
      r.Holds .class (text "gold") 1) := by
  obtain ⟨events, r, d, decision, site, run, step, outdated, -⟩ := exists_pruned
  exact ⟨events, r, d, decision, site, run, step, superseded_pin_iff run step outdated⟩

end QoSFabric
