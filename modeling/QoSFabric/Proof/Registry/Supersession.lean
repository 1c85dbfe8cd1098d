import QoSFabric.Proof.Registry.Refinement
import QoSFabric.Proof.Registry.Progress
import QoSFabric.Proof.Engine.Conflict

/-!
# Superseded equivocations

A marker names the generation that was equivocated, and the engine compares its identifier only.
-/

namespace QoSFabric

open FileSystem Proof.Engine

variable {openings : Openings} {kind : EntityKind} {identifier : Text} {generation : Generation}
  {inputs : EvaluationInputs}

/-- The marker records an equivocation of an identifier. -/
def ConflictMarker.Against (kind : EntityKind) (identifier : Text) (marker : ConflictMarker) : Prop :=
  marker.scope = kind.scope ∧ marker.id = identifier

instance : DecidablePred (ConflictMarker.Against kind identifier) :=
  fun marker => inferInstanceAs (Decidable (marker.scope = kind.scope ∧ marker.id = identifier))

def absolved (kind : EntityKind) (identifier : Text) (markers : List ConflictMarker) :
    List ConflictMarker :=
  markers.filter fun marker => ¬marker.Against kind identifier

def EvaluationInputs.absolve (kind : EntityKind) (identifier : Text) (inputs : EvaluationInputs) :
    EvaluationInputs :=
  { inputs with conflicts := absolved kind identifier inputs.conflicts }

def Registry.absolve (r : Registry) (kind : EntityKind) (identifier : Text) : Registry :=
  { r with conflicts := absolved kind identifier r.conflicts }

theorem mem_absolved {markers : List ConflictMarker} {marker : ConflictMarker} :
    marker ∈ absolved kind identifier markers ↔
      marker ∈ markers ∧ ¬marker.Against kind identifier := by
  simp [absolved]

/-- What makes a verdict independent of the equivocations of an identifier: there are none, the
inputs are rejected in any case, or something else disputes them. -/
inductive Indifferent (kind : EntityKind) (identifier : Text) (inputs : EvaluationInputs) : Prop where
  | unmarked (free : ∀ marker ∈ inputs.conflicts, ¬marker.Against kind identifier)
  | inadmissible (rejects : ¬Admissible inputs)
  | denied (denies : inputs.klass.id ∈ inputs.policy.deniedClasses)
  | contradicted (contradicts : ¬Consistent inputs)
  | marked {marker : ConflictMarker} (held : marker ∈ inputs.conflicts)
      (concerns : Concerns inputs marker) (other : ¬marker.Against kind identifier)

inductive Names (inputs : EvaluationInputs) : EntityKind → Text → Prop where
  | class : Names inputs .class inputs.request.classId
  | policy : Names inputs .policy inputs.request.policy
  | path : Names inputs .path inputs.request.path
  | evidence {kind : EntityKind} {component : PathComponent}
      (kinds : kind = .capability ∨ kind = .reservation)
      (mem : component ∈ inputs.path.components) : Names inputs kind component.resource

theorem Names.concerns {marker : ConflictMarker} (names : Names inputs kind identifier)
    (accepted : Accepted inputs) (against : marker.Against kind identifier) :
    Concerns inputs marker := by
  obtain ⟨scope, id⟩ := against
  unfold Concerns
  rw [scope]
  cases names with
  | «class» => exact id.trans accepted.classId.symm
  | policy => exact id.trans accepted.policyId.symm
  | path => exact id.trans accepted.pathId.symm
  | evidence kinds mem =>
      cases kinds with
      | inl h =>
          subst h
          exact ⟨_, mem, id⟩
      | inr h =>
          subst h
          exact ⟨_, mem, id⟩

theorem overflowed_absolve : (assessAll (inputs.absolve kind identifier)).map Assessed.overflowed =
    (assessAll inputs).map Assessed.overflowed := by
  unfold assessAll
  rw [List.map_map, List.map_map]
  exact List.map_congr_left fun item _ => assess_overflowed_congr rfl rfl

theorem admissible_absolve :
    Admissible (inputs.absolve kind identifier) ↔ Admissible inputs := by
  have bounded : (∀ a ∈ assessAll (inputs.absolve kind identifier), ¬a.overflowed = true) ↔
      ∀ a ∈ assessAll inputs, ¬a.overflowed = true := by
    rw [← List.forall_mem_map (P := fun overflowed => ¬overflowed = true), overflowed_absolve,
      List.forall_mem_map]
  constructor
  · rintro ⟨⟨h₁, h₂, h₃, h₄, h₅, h₆, h₇, h₈, h₉, h₁₀, h₁₁, h₁₂⟩, h⟩
    exact ⟨⟨h₁, h₂, h₃, h₄, h₅, h₆, h₇, h₈, h₉, h₁₀, h₁₁, h₁₂⟩, bounded.mp h⟩
  · rintro ⟨⟨h₁, h₂, h₃, h₄, h₅, h₆, h₇, h₈, h₉, h₁₀, h₁₁, h₁₂⟩, h⟩
    exact ⟨⟨h₁, h₂, h₃, h₄, h₅, h₆, h₇, h₈, h₉, h₁₀, h₁₁, h₁₂⟩, bounded.mpr h⟩

theorem unconflicted_absolve : Unconflicted (inputs.absolve kind identifier) ↔
    inputs.klass.id ∉ inputs.policy.deniedClasses ∧
      ∀ marker ∈ inputs.conflicts, Concerns inputs marker → marker.Against kind identifier := by
  constructor
  · intro clear
    refine ⟨clear.notDenied, fun marker mem concerns => ?_⟩
    by_contra other
    exact clear.unmarked marker (mem_absolved.mpr ⟨mem, other⟩) concerns
  · rintro ⟨notDenied, against⟩
    refine ⟨notDenied, fun marker mem concerns => ?_⟩
    obtain ⟨mem, other⟩ := mem_absolved.mp mem
    exact other (against marker mem concerns)

theorem conflict_absolved_iff {decision other : ContractDecision}
    (names : Names inputs kind identifier) (evaluated : evaluate inputs = .ok decision)
    (absolving : evaluate (inputs.absolve kind identifier) = .ok other) :
    ¬(decision.outcome = .conflict ∧ other.outcome ≠ .conflict) ↔
      Indifferent kind identifier inputs := by
  rw [evaluate_conflict evaluated, Ne, evaluate_conflict absolving, admissible_absolve,
    unconflicted_absolve]
  have same : Consistent (inputs.absolve kind identifier) ↔ Consistent inputs := Iff.rfl
  rw [same]
  constructor
  · intro unblamed
    by_contra indifferent
    have admissible : Admissible inputs := by
      by_contra h
      exact indifferent (.inadmissible h)
    have notDenied : inputs.klass.id ∉ inputs.policy.deniedClasses :=
      fun h => indifferent (.denied h)
    have consistent : Consistent inputs := by
      by_contra h
      exact indifferent (.contradicted h)
    have against : ∀ marker ∈ inputs.conflicts, Concerns inputs marker →
        marker.Against kind identifier := by
      intro marker mem concerns
      by_contra h
      exact indifferent (.marked mem concerns h)
    apply unblamed
    refine ⟨⟨admissible, ?_⟩, fun disputed => disputed.2 ⟨⟨notDenied, against⟩, consistent⟩⟩
    rintro ⟨unconflicted, -⟩
    exact indifferent (.unmarked fun marker mem h =>
      unconflicted.unmarked marker mem (names.concerns admissible.accepted h))
  · rintro indifferent ⟨⟨admissible, disputed⟩, undisputed⟩
    have clear := not_not.mp fun h => undisputed ⟨admissible, h⟩
    cases indifferent with
    | unmarked free =>
        refine disputed ⟨⟨clear.1.1, fun marker mem concerns => ?_⟩, clear.2⟩
        exact free marker mem (clear.1.2 marker mem concerns)
    | inadmissible rejects => exact rejects admissible
    | denied denies => exact clear.1.1 denies
    | contradicted contradicts => exact contradicts clear.2
    | marked held concerns other => exact other (clear.1.2 _ held concerns)

variable {r r' : Registry} {D D' : Durable} {clock : UInt64} {request : ContractRequest}
  {decision : ContractDecision}

/-- The inputs a request is evaluated on, when everything it names is held. -/
def Registry.Assembles (r : Registry) (request : ContractRequest) (inputs : EvaluationInputs) : Prop :=
  ∃ policy path klass, validateRequest request = .ok () ∧
    r.entityFor .policy request.policy request.policyGeneration = .ok policy ∧
    r.entityFor .path request.path request.pathGeneration = .ok path ∧
    r.entityFor .class request.classId request.classGeneration = .ok klass ∧
    r.inputsFor request klass policy path = inputs

/-- A contract resolves an identifier at a generation. -/
inductive Registry.Resolves (r : Registry) (request : ContractRequest) :
    EntityKind → Text → Generation → Prop where
  | class {klass : QoSClass}
      (found : r.entityFor .class request.classId request.classGeneration = .ok klass) :
      Resolves r request .class request.classId klass.generation
  | policy {policy : Policy}
      (found : r.entityFor .policy request.policy request.policyGeneration = .ok policy) :
      Resolves r request .policy request.policy policy.generation
  | path {path : Path}
      (found : r.entityFor .path request.path request.pathGeneration = .ok path) :
      Resolves r request .path request.path path.generation
  | evidence {kind : EntityKind} {path : Path} {component : PathComponent} {value : kind.Carrier}
      (kinds : kind = .capability ∨ kind = .reservation)
      (bound : r.entityFor .path request.path request.pathGeneration = .ok path)
      (mem : component ∈ path.components) (found : r.findLatest kind component.resource = .ok value) :
      Resolves r request kind component.resource (kind.generation value)

/-- A contract resolves an identifier at its latest generation, and every equivocation of it is of
an older one. -/
structure Registry.Supersedes (r : Registry) (request : ContractRequest) (kind : EntityKind)
    (identifier : Text) (generation : Generation) : Prop where
  resolves : r.Resolves request kind identifier generation
  latest : ∃ value, r.findLatest kind identifier = .ok value ∧ kind.generation value = generation
  older : ∀ marker ∈ r.conflicts, marker.Against kind identifier → marker.generation < generation

/-- The decision is a conflict, and is none without the equivocations of the identifier. -/
def Registry.Blames (r : Registry) (request : ContractRequest) (kind : EntityKind)
    (identifier : Text) (decision : ContractDecision) : Prop :=
  decision.outcome = .conflict ∧
    ∃ other, (r.absolve kind identifier).decide request = .ok other ∧ other.outcome ≠ .conflict

theorem Registry.Resolves.names (resolves : r.Resolves request kind identifier generation)
    (assembles : r.Assembles request inputs) : Names inputs kind identifier := by
  obtain ⟨policy, path, klass, -, -, pathFor, -, rfl⟩ := assembles
  cases resolves with
  | «class» found => exact .class
  | policy found => exact .policy
  | path found => exact .path
  | evidence kinds bound mem found =>
      obtain rfl := Except.ok.inj (pathFor.symm.trans bound)
      exact .evidence kinds mem

theorem Registry.tick_members (r : Registry) (clock : UInt64) :
    (r.tick clock).tables = r.tables ∧ (r.tick clock).conflicts = r.conflicts := by
  unfold Registry.tick
  split <;> exact ⟨rfl, rfl⟩

theorem Registry.Resolves.congr (tables : r'.tables = r.tables)
    (resolves : r.Resolves request kind identifier generation) :
    r'.Resolves request kind identifier generation := by
  have entityFor : ∀ kind identifier generation, r'.entityFor kind identifier generation =
      r.entityFor kind identifier generation := by
    intro kind identifier generation
    unfold Registry.entityFor Registry.findLatest Registry.findEntity
    rw [tables]
  have findLatest : ∀ kind identifier, r'.findLatest kind identifier =
      r.findLatest kind identifier := by
    intro kind identifier
    unfold Registry.findLatest
    rw [tables]
  cases resolves with
  | «class» found => exact .class ((entityFor _ _ _).trans found)
  | policy found => exact .policy ((entityFor _ _ _).trans found)
  | path found => exact .path ((entityFor _ _ _).trans found)
  | evidence kinds bound mem found =>
      exact .evidence kinds ((entityFor _ _ _).trans bound) mem ((findLatest _ _).trans found)

theorem Registry.Assembles.absolve (assembles : r.Assembles request inputs) :
    (r.absolve kind identifier).Assembles request (inputs.absolve kind identifier) := by
  obtain ⟨policy, path, klass, valid, policyFor, pathFor, classFor, rfl⟩ := assembles
  exact ⟨policy, path, klass, valid, policyFor, pathFor, classFor, rfl⟩

theorem Registry.Assembles.decide (assembles : r.Assembles request inputs) :
    r.decide request = QoSFabric.evaluate inputs := by
  obtain ⟨policy, path, klass, valid, policyFor, pathFor, classFor, rfl⟩ := assembles
  unfold Registry.decide
  rw [valid, policyFor, pathFor, classFor]

theorem blames_iff (resolves : r.Resolves request kind identifier generation)
    (decided : r.decide request = .ok decision) :
    ¬r.Blames request kind identifier decision ↔
      ∀ inputs, r.Assembles request inputs → Indifferent kind identifier inputs := by
  constructor
  · rintro unblamed inputs assembles
    have evaluated : evaluate inputs = .ok decision := assembles.decide.symm.trans decided
    obtain ⟨other, absolving⟩ := evaluate_ok (inputs.absolve kind identifier)
    apply (conflict_absolved_iff (resolves.names assembles) evaluated absolving).mp
    rintro ⟨conflicted, unconflicted⟩
    exact unblamed ⟨conflicted, other, assembles.absolve.decide.trans absolving, unconflicted⟩
  · rintro indifferent ⟨conflicted, other, absolving, unconflicted⟩
    cases Registry.decides decided with
    | rejected reason => cases conflicted
    | evaluated valid policyFor pathFor classFor evaluated =>
        have assembles : r.Assembles request _ :=
          ⟨_, _, _, valid, policyFor, pathFor, classFor, rfl⟩
        have absolved := assembles.absolve.decide.symm.trans absolving
        exact (conflict_absolved_iff (resolves.names assembles) evaluated absolved).mpr
          (indifferent _ assembles) ⟨conflicted, unconflicted⟩

theorem Effect.decided
    (effect : Effect clock r D (.evaluate request) (.decided (.ok decision)) r' D') :
    (r.tick clock).decide request = .ok decision := by
  generalize answer : Answer.decided (.ok decision) = outcome at effect
  cases effect with
  | undecided e => cases answer
  | @evaluate _ other result _ _ decided recording =>
      cases result with
      | error e => cases answer
      | ok done =>
          cases answer
          exact decided

/-- An evaluation at the latest generation is not a conflict on account of older equivocations
exactly when the inputs it is made on are indifferent to them. -/
theorem supersession_unblamed_iff {events : List Event} {site : Site} {d : Disk FileName}
    (run : Run openings events (.up r d))
    (step : Step openings (.up r d) (.called clock (.evaluate request) (.decided (.ok decision))) site)
    (supersedes : r.Supersedes request kind identifier generation) :
    ¬(r.tick clock).Blames request kind identifier decision ↔
      ∀ inputs, (r.tick clock).Assembles request inputs → Indifferent kind identifier inputs := by
  obtain ⟨D, drives⟩ := RunWhere.drives run
  obtain ⟨r', d', D', -, effect, -⟩ := step.effect drives
  exact blames_iff (supersedes.resolves.congr (r.tick_members clock).1) effect.decided

def superseding : List Action :=
  [.open .default 0 (List.replicate 16 7),
    .call 0 (.publishClass plainClass []),
    .call 0 (.publishClass { plainClass with label := text "other" } []),
    .call 0 (.publishClass { plainClass with generation := 2 } []),
    .call 0 (.publishPolicy plainPolicy []),
    .call 0 (.publishPath plainPath [])]

def blamesSuperseded : Bool :=
  match (Site.down Disk.empty).rehearse superseding with
  | some (_, .up r _) =>
      r.conflicts.all (fun marker => marker.generation < 2) &&
        (r.findLatest .class (text "gold")).toOption.map QoSClass.generation == some 2 &&
        decide (r.store.Spacious 400120) &&
        match (r.tick 0).decide plainRequest,
            ((r.tick 0).absolve .class (text "gold")).decide plainRequest with
        | .ok decision, .ok other =>
            decision.outcome == .conflict && decide decision.Short && other.outcome != .conflict
        | _, _ => false
  | _ => false

theorem exists_blames : ∃ events r d decision site, Run .any events (.up r d) ∧
    Step .any (.up r d)
      (.called 0 (.evaluate plainRequest) (.decided (.ok decision))) site ∧
    r.Supersedes plainRequest .class (text "gold") 2 ∧
    (r.tick 0).Blames plainRequest .class (text "gold") decision := by
  have blames : blamesSuperseded = true := by decide +kernel
  unfold blamesSuperseded at blames
  split at blames
  case h_2 => cases blames
  next events r d rehearsed =>
    simp only [Bool.and_eq_true, List.all_eq_true, beq_iff_eq, decide_eq_true_eq] at blames
    obtain ⟨⟨⟨older, latest⟩, spacious⟩, blames⟩ := blames
    have run := run_of_rehearse rehearsed
    split at blames
    case h_2 => cases blames
    next decision other decided absolved =>
      simp only [Bool.and_eq_true, beq_iff_eq, decide_eq_true_eq, bne_iff_ne] at blames
      obtain ⟨⟨conflicted, short⟩, unconflicted⟩ := blames
      obtain ⟨between, store, d', ends, -⟩ := (run.affords (120 + 400000 + 0) spacious).evaluate
        decided (within_decision short) (by decide)
      have latest : ∃ klass, r.findLatest .class (text "gold") = .ok klass ∧
          QoSClass.generation klass = 2 := by
        cases found : r.findLatest .class (text "gold") with
        | error e =>
            rw [found] at latest
            cases latest
        | ok klass =>
            rw [found] at latest
            exact ⟨klass, rfl, Option.some.inj latest⟩
      have resolves : r.Resolves plainRequest .class (text "gold") 2 := by
        obtain ⟨klass, found, generation⟩ := latest
        rw [← generation]
        exact .class found
      exact ⟨events, r, d, decision, _, run, .called ends,
        ⟨resolves, latest, fun marker held _ => older marker held⟩, conflicted, other, absolved,
        unconflicted⟩

/-- The definition has been superseded, and its equivocation still makes the conflict. -/
theorem superseded_blamed : ¬∀ openings events r d clock request decision site kind identifier
    generation, Run openings events (.up r d) →
    Step openings (.up r d) (.called clock (.evaluate request) (.decided (.ok decision))) site →
    r.Supersedes request kind identifier generation →
    ¬(r.tick clock).Blames request kind identifier decision := by
  intro unblamed
  obtain ⟨events, r, d, decision, site, run, step, supersedes, blames⟩ := exists_blames
  exact unblamed _ events r d 0 _ decision site .class _ 2 run step supersedes blames

theorem supersession_unblamed_gold : ∃ events r d decision site,
    Run .any events (.up r d) ∧
    Step .any (.up r d)
      (.called 0 (.evaluate plainRequest) (.decided (.ok decision))) site ∧
    (¬(r.tick 0).Blames plainRequest .class (text "gold") decision ↔
      ∀ inputs, (r.tick 0).Assembles plainRequest inputs →
        Indifferent .class (text "gold") inputs) ∧
    (r.tick 0).Blames plainRequest .class (text "gold") decision := by
  obtain ⟨events, r, d, decision, site, run, step, supersedes, blames⟩ := exists_blames
  exact ⟨events, r, d, decision, site, run, step,
    supersession_unblamed_iff run step supersedes, blames⟩

end QoSFabric
