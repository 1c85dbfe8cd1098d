import QoSFabric.Proof.Engine.Dispute
import QoSFabric.Proof.Registry.Pins
import QoSFabric.Proof.Registry.Shedding

/-!
# Unrelated publications

What a request is decided on does not name an identifier that is published under. Its decision
changes only by what the publication gives up of the rest: a generation it pins that is pruned, or a
marker against it that is the oldest one.
-/

namespace QoSFabric

open FileSystem Interaction Proof.Engine

variable {openings : Openings} {r r' : Registry} {d d' : Disk FileName} {D : Durable} {kind : EntityKind}
  {clock : UInt64} {request : ContractRequest} {inputs : EvaluationInputs}
  {decision other : ContractDecision}

theorem GenerationTable.Orderly.unique {table : GenerationTable kind} (orderly : table.Orderly)
    {id : Text} {first second : kind.Carrier} (mem : first ∈ table.held id)
    (mem' : second ∈ table.held id) (same : kind.generation first = kind.generation second) :
    first = second := by
  have distinct := (orderly.ascending id).imp fun lt => UInt64.ne_of_lt lt
  exact List.inj_on_of_nodup_map (List.pairwise_map.mpr distinct) mem mem' same

namespace Registry

/-- An identifier that a request does not name, and no component of its path. -/
structure Unrelated (r : Registry) (request : ContractRequest) (id : Text) : Prop where
  class_ne : request.classId ≠ id
  policy_ne : request.policy ≠ id
  path_ne : request.path ≠ id
  resource_ne : ∀ path, r.entityFor .path request.path request.pathGeneration = .ok path →
    ∀ component ∈ path.components, component.resource ≠ id

def refusal (r : Registry) (request : ContractRequest) : Option Text :=
  match validateRequest request with
  | .error e => some (text "request rejected at intake: " ++ e.detail)
  | .ok () =>
      match r.entityFor .policy request.policy request.policyGeneration with
      | .error _ => some (text "policy definition is absent from the registry")
      | .ok _ =>
          match r.entityFor .path request.path request.pathGeneration with
          | .error _ => some (text "path definition is absent from the registry")
          | .ok _ =>
              match r.entityFor .class request.classId request.classGeneration with
              | .error _ => some (text "service class definition is absent from the registry")
              | .ok _ => none

theorem findEntity_eq (r : Registry) (kind : EntityKind) (id : Text) (generation : Generation) :
    r.findEntity kind id generation =
      match ((r.tables kind).held id).find? fun item => kind.generation item == generation with
      | none => .error absentGeneration
      | some item => .ok item := by
  unfold findEntity GenerationTable.held
  cases (r.tables kind).lookup id <;> rfl

theorem findLatest_eq (r : Registry) (kind : EntityKind) (id : Text) :
    r.findLatest kind id =
      match (r.tables kind).held id with
      | [] => .error (makeError .notFound "no definition is held for that identifier")
      | first :: rest => .ok (newest kind first rest) := by
  unfold findLatest GenerationTable.held
  rcases (r.tables kind).lookup id with _ | ⟨_ | ⟨first, rest⟩⟩ <;> rfl

theorem findLatest_congr {id : Text} (held : (r'.tables kind).held id = (r.tables kind).held id) :
    r'.findLatest kind id = r.findLatest kind id := by
  rw [findLatest_eq, findLatest_eq, held]

theorem entityFor_congr {id : Text} (held : (r'.tables kind).held id = (r.tables kind).held id)
    (generation : Generation) :
    r'.entityFor kind id generation = r.entityFor kind id generation := by
  unfold entityFor
  rw [findLatest_congr held, findEntity_eq, findEntity_eq, held]

theorem Orderly.findLatest_prune (orderly : r.Orderly) (kind : EntityKind) (id : Text) :
    r.prune.findLatest kind id = r.findLatest kind id := by
  have same := latest_prune orderly kind id
  rw [← orderly.findLatest, ← orderly.prune.findLatest] at same
  rw [findLatest_eq, findLatest_eq] at same ⊢
  generalize (r.prune.tables kind).held id = pruned at same ⊢
  generalize (r.tables kind).held id = whole at same ⊢
  cases pruned <;> cases whole <;> first | rfl | cases same | skip
  exact congrArg _ (Option.some.inj same)

theorem Orderly.entityFor_prune (orderly : r.Orderly) {id : Text} {generation : Generation}
    {value : kind.Carrier} (found : r.prune.entityFor kind id generation = .ok value) :
    r.entityFor kind id generation = .ok value := by
  unfold entityFor at found ⊢
  split at found
  next zero => rwa [if_pos zero, ← orderly.findLatest_prune]
  next nonzero =>
    rw [if_neg nonzero]
    obtain ⟨mem, same⟩ := findEntity_ok found
    rw [held_prune orderly] at mem
    have mem := List.mem_of_mem_drop mem
    have holds : r.Holds kind id generation := ⟨value, mem, same⟩
    obtain ⟨first, found⟩ := holds.findEntity
    obtain ⟨mem', same'⟩ := findEntity_ok found
    -- generations ascend, so only one of them is the one pinned
    have unique := (orderly.tables kind).unique mem mem' (same.trans same'.symm)
    rw [found, unique]

theorem decide_of_refusal {reason : Text} (refused : r.refusal request = some reason) :
    r.decide request = .ok (r.rejection request reason) := by
  revert refused
  unfold refusal decide
  cases validateRequest request with
  | error e =>
      intro refused
      cases refused
      rfl
  | ok valid =>
      dsimp only
      cases r.entityFor .policy request.policy request.policyGeneration with
      | error e =>
          intro refused
          cases refused
          rfl
      | ok policy =>
          dsimp only
          cases r.entityFor .path request.path request.pathGeneration with
          | error e =>
              intro refused
              cases refused
              rfl
          | ok path =>
              dsimp only
              cases r.entityFor .class request.classId request.classGeneration with
              | error e =>
                  intro refused
                  cases refused
                  rfl
              | ok klass => exact fun refused => nomatch refused

theorem refusal_eq_none : r.refusal request = none ↔ ∃ inputs, r.Assembles request inputs := by
  constructor
  · intro clear
    unfold refusal at clear
    split at clear
    · cases clear
    next valid =>
      split at clear
      · cases clear
      next policy policyFor =>
        split at clear
        · cases clear
        next path pathFor =>
          split at clear
          · cases clear
          next klass classFor => exact ⟨_, policy, path, klass, valid, policyFor, pathFor, classFor, rfl⟩
  · rintro ⟨inputs, policy, path, klass, valid, policyFor, pathFor, classFor, -⟩
    unfold refusal
    rw [valid, policyFor, pathFor, classFor]

theorem mem_absences {reason : Text} (valid : validateRequest request = .ok ())
    (refused : r.refusal request = some reason) : reason ∈ absences := by
  unfold refusal at refused
  rw [valid] at refused
  dsimp only at refused
  split at refused
  · obtain rfl := Option.some.inj refused
    exact List.mem_cons_self
  · split at refused
    · obtain rfl := Option.some.inj refused
      exact List.mem_cons_of_mem _ List.mem_cons_self
    · split at refused
      · obtain rfl := Option.some.inj refused
        exact List.mem_cons_of_mem _ (List.mem_cons_of_mem _ List.mem_cons_self)
      · cases refused

theorem short_of_absences {reason : Text} (absent : reason ∈ absences) :
    reason.take Limits.maxReasonLen = reason := by
  have each : ∀ reason ∈ absences, reason.take Limits.maxReasonLen = reason := by decide
  exact each reason absent

theorem rejection_inj {reason reason' : Text} (absent : reason ∈ absences)
    (absent' : reason' ∈ absences)
    (same : r'.rejection request reason' = r.rejection request reason) : reason' = reason := by
  have reasons : reason'.take Limits.maxReasonLen = reason.take Limits.maxReasonLen :=
    congrArg ContractDecision.primaryReason same
  rwa [short_of_absences absent, short_of_absences absent'] at reasons

theorem rejection_ne_evaluated {reason : Text} (accepted : Accepted inputs)
    (evaluated : QoSFabric.evaluate inputs = .ok decision) :
    r.rejection request reason ≠ decision := by
  rintro rfl
  have authorities := congrArg (fun made : ContractDecision => made.authority.length)
    (Except.ok.inj ((evaluate_accepted accepted).symm.trans evaluated))
  have one : (r.rejection request reason).authority.length = 1 := rfl
  have more : 1 < (authority inputs (resolve inputs)).length := by
    unfold authority
    rw [List.length_take, List.length_append]
    simp only [List.length_cons, List.length_nil]
    exact Nat.lt_min.mpr ⟨by decide, by omega⟩
  exact absurd (authorities.trans one) (Nat.ne_of_gt more)

section Two

variable {base : Registry} {gone : Bool} {id : Text}

theorem Unrelated.refusal (unrelated : r.Unrelated request id) (sheds : base.Sheds gone id r') :
    r'.refusal request = base.refusal request := by
  unfold Registry.refusal
  rw [entityFor_congr (sheds.held .policy _ unrelated.policy_ne),
    entityFor_congr (sheds.held .path _ unrelated.path_ne),
    entityFor_congr (sheds.held .class _ unrelated.class_ne)]

theorem Unrelated.assembles (unrelated : base.Unrelated request id) (sheds : base.Sheds gone id r')
    (assembles : base.Assembles request inputs) :
    r'.Assembles request (marked inputs r'.conflicts) := by
  obtain ⟨policy, path, klass, valid, policyFor, pathFor, classFor, rfl⟩ := assembles
  have policies (generation : Generation) :=
    entityFor_congr (sheds.held .policy _ unrelated.policy_ne) generation
  have paths (generation : Generation) :=
    entityFor_congr (sheds.held .path _ unrelated.path_ne) generation
  have classes (generation : Generation) :=
    entityFor_congr (sheds.held .class _ unrelated.class_ne) generation
  refine ⟨policy, path, klass, valid, (policies _).trans policyFor, (paths _).trans pathFor,
    (classes _).trans classFor, ?_⟩
  have evidence (kind : EntityKind) : path.components.map (r'.evidenceFor kind) =
      path.components.map (base.evidenceFor kind) := by
    apply List.map_congr_left
    intro component mem
    unfold evidenceFor
    rw [findLatest_congr (sheds.held kind _ (unrelated.resource_ne path pathFor component mem))]
  unfold inputsFor currencyOf marked
  rw [policies, paths, classes, evidence, evidence, sheds.currentEpoch, sheds.nowMs, sheds.storeId]

theorem Orderly.assembles_prune (orderly : r.Orderly) (recorded : r.Recorded)
    (assembles : r.prune.Assembles request inputs) : r.Assembles request inputs := by
  obtain ⟨policy, path, klass, valid, policyFor, pathFor, classFor, rfl⟩ := assembles
  refine ⟨policy, path, klass, valid, orderly.entityFor_prune policyFor,
    orderly.entityFor_prune pathFor, orderly.entityFor_prune classFor, ?_⟩
  have evidence (kind : EntityKind) : r.prune.evidenceFor kind = r.evidenceFor kind := by
    funext component
    unfold evidenceFor
    rw [orderly.findLatest_prune]
  have currency (kind : EntityKind) (id : Text) : r.prune.currencyOf kind id = r.currencyOf kind id := by
    unfold Registry.currencyOf entityFor
    rw [if_pos rfl, if_pos rfl, orderly.findLatest_prune]
  unfold inputsFor
  rw [evidence, evidence, currency, currency, currency, recorded.conflicts_prune]
  rfl

theorem Assembles.eq {inputs' : EvaluationInputs} (assembles : r.Assembles request inputs)
    (assembles' : r.Assembles request inputs') : inputs' = inputs := by
  obtain ⟨policy, path, klass, -, policyFor, pathFor, classFor, rfl⟩ := assembles
  obtain ⟨policy', path', klass', -, policyFor', pathFor', classFor', rfl⟩ := assembles'
  obtain rfl := Except.ok.inj (policyFor.symm.trans policyFor')
  obtain rfl := Except.ok.inj (pathFor.symm.trans pathFor')
  obtain rfl := Except.ok.inj (classFor.symm.trans classFor')
  rfl

theorem Assembles.apply_ne (assembles : r.Assembles request inputs) (orderly : r.Orderly)
    (unrelated : r.Unrelated request id) {marker : ConflictMarker} (against : marker.id = id) :
    markerApplies inputs marker = false := by
  have accepted := assembles.accepted orderly
  have pathFor : ∃ path, r.entityFor .path request.path request.pathGeneration = .ok path ∧
      inputs.path = path ∧ inputs.request = request := by
    obtain ⟨policy, path, klass, -, -, pathFor, -, rfl⟩ := assembles
    exact ⟨path, pathFor, rfl, rfl⟩
  obtain ⟨path, pathFor, rfl, rfl⟩ := pathFor
  have classId := accepted.classId
  have policyId := accepted.policyId
  have pathId := accepted.pathId
  unfold markerApplies
  rw [against]
  cases marker.scope with
  | «class» =>
      rw [beq_eq_false_iff_ne, classId]
      exact unrelated.class_ne.symm
  | policy =>
      rw [beq_eq_false_iff_ne, policyId]
      exact unrelated.policy_ne.symm
  | path =>
      rw [beq_eq_false_iff_ne, pathId]
      exact unrelated.path_ne.symm
  | capability | reservation =>
      rw [List.any_eq_false]
      intro component mem
      rw [beq_iff_eq]
      exact (unrelated.resource_ne _ pathFor component mem).symm
  | count => rfl

theorem dispute_append {front added : List ConflictMarker}
    (apart : ∀ marker ∈ added, markerApplies inputs marker = false) :
    dispute inputs (front ++ added) = dispute inputs front := by
  have none : added.find? (markerApplies inputs) = none := by
    rw [List.find?_eq_none]
    intro marker mem
    rw [apart marker mem]
    exact Bool.false_ne_true
  unfold dispute
  rw [List.find?_append, none, Option.or_none]

/-- What is given up matters to a request: the definitions it refers to are no longer the ones that
are found, or the marker it is disputed for is the oldest one. -/
def Spared (r : Registry) (request : ContractRequest) (trims gone : Bool) : Prop :=
  (trims = true → r.prune.refusal request = r.refusal request) ∧
    (gone = true → ∀ inputs, r.Assembles request inputs →
      Denied inputs ∨ dispute inputs inputs.conflicts.tail = dispute inputs inputs.conflicts)

theorem rejection_congr (sheds : base.Sheds gone id r') (reason : Text) :
    r'.rejection request reason = base.rejection request reason := by
  unfold rejection
  rw [sheds.currentEpoch, sheds.nowMs]

structure Narrows (r : Registry) (request : ContractRequest) (base : Registry) : Prop where
  assembled : ∀ inputs, base.Assembles request inputs → r.Assembles request inputs
  path : ∀ path, base.entityFor .path request.path request.pathGeneration = .ok path →
    r.entityFor .path request.path request.pathGeneration = .ok path
  conflicts : base.conflicts = r.conflicts
  rejection : ∀ reason, base.rejection request reason = r.rejection request reason

theorem narrows_trimmed (orderly : r.Orderly) (recorded : r.Recorded) (trims : Bool) :
    r.Narrows request (if trims then r.prune else r) := by
  cases trims with
  | true =>
      exact ⟨fun inputs => orderly.assembles_prune recorded, fun path => orderly.entityFor_prune,
        recorded.conflicts_prune, fun _ => rfl⟩
  | false => exact ⟨fun _ => id, fun _ => id, rfl, fun _ => rfl⟩

namespace Narrows

variable (narrows : r.Narrows request base)
include narrows

theorem unrelated (unrelated : r.Unrelated request id) : base.Unrelated request id :=
  ⟨unrelated.class_ne, unrelated.policy_ne, unrelated.path_ne, fun path pathFor =>
    unrelated.resource_ne path (narrows.path path pathFor)⟩

variable (orderly : r.Orderly) (unrelated : r.Unrelated request id) (sheds : base.Sheds gone id r')
  (decided : r.decide request = .ok decision) (decided' : r'.decide request = .ok other)
include orderly unrelated sheds decided decided'

theorem decide_iff (same : base.refusal request = r.refusal request) :
    other = decision ↔ (gone = true → ∀ inputs, r.Assembles request inputs →
      Denied inputs ∨ dispute inputs inputs.conflicts.tail = dispute inputs inputs.conflicts) := by
  have narrower := narrows.unrelated unrelated
  cases refused : r.refusal request with
  | some reason =>
      have first := decide_of_refusal refused
      have second := decide_of_refusal (((narrower.refusal sheds).trans same).trans refused)
      obtain rfl := Except.ok.inj (first.symm.trans decided)
      obtain rfl := Except.ok.inj (second.symm.trans decided')
      rw [rejection_congr sheds, narrows.rejection]
      refine iff_of_true rfl fun _ inputs assembles => ?_
      rw [refusal_eq_none.mpr ⟨inputs, assembles⟩] at refused
      cases refused
  | none =>
      obtain ⟨inputs, assembles⟩ := refusal_eq_none.mp (same.trans refused)
      have whole := narrows.assembled inputs assembles
      have after := narrower.assembles sheds assembles
      have marks : inputs.conflicts = r.conflicts := by
        obtain ⟨policy, path, klass, -, -, -, -, rfl⟩ := whole
        rfl
      rw [evaluate_marked_iff (whole.accepted orderly) (whole.decide.symm.trans decided)
        (after.decide.symm.trans decided')]
      obtain ⟨added, eq, against⟩ := sheds.conflicts
      rw [eq, dispute_append fun marker mem =>
        whole.apply_ne orderly unrelated (against marker mem), narrows.conflicts, ← marks]
      cases gone with
      | false => exact iff_of_true (.inr rfl) nofun
      | true =>
          constructor
          · intro spared _ inputs' assembles'
            rw [whole.eq assembles']
            exact spared
          · intro spared
            exact spared rfl inputs whole

theorem decide_ne (differs : base.refusal request ≠ r.refusal request) : other ≠ decision := by
  intro equal
  have valid : validateRequest request = .ok () := by
    cases validated : validateRequest request with
    | ok => rfl
    | error e =>
        refine absurd ?_ differs
        unfold Registry.refusal
        rw [validated]
  cases refused' : base.refusal request with
  | none =>
      obtain ⟨inputs, assembles⟩ := refusal_eq_none.mp refused'
      have found := refusal_eq_none.mpr ⟨inputs, narrows.assembled inputs assembles⟩
      exact differs (refused'.trans found.symm)
  | some reason' =>
      -- the second decision is a refusal, and the first one is none, or one for another reason
      have second := decide_of_refusal
        (((narrows.unrelated unrelated).refusal sheds).trans refused')
      obtain rfl := Except.ok.inj (second.symm.trans decided')
      cases refused : r.refusal request with
      | none =>
          obtain ⟨inputs, whole⟩ := refusal_eq_none.mp refused
          exact rejection_ne_evaluated (whole.accepted orderly)
            (whole.decide.symm.trans decided) equal
      | some reason =>
          have first := decide_of_refusal refused
          obtain rfl := Except.ok.inj (first.symm.trans decided)
          have reasons := rejection_inj (mem_absences valid refused)
            (mem_absences valid refused') equal
          rw [refused, refused', reasons] at differs
          exact differs rfl

end Narrows

theorem decide_iff_spared {trims : Bool} (orderly : r.Orderly) (recorded : r.Recorded)
    (unrelated : r.Unrelated request id)
    (sheds : (if trims then r.prune else r).Sheds gone id r')
    (decided : r.decide request = .ok decision) (decided' : r'.decide request = .ok other) :
    other = decision ↔ r.Spared request trims gone := by
  have narrows : r.Narrows request (if trims then r.prune else r) :=
    narrows_trimmed orderly recorded trims
  have kept : (trims = true → r.prune.refusal request = r.refusal request) ↔
      (if trims then r.prune else r).refusal request = r.refusal request := by
    cases trims with
    | true => exact ⟨fun same => same rfl, fun same _ => same⟩
    | false => exact ⟨fun _ => rfl, fun _ => nofun⟩
  unfold Spared
  rw [kept]
  by_cases same : (if trims then r.prune else r).refusal request = r.refusal request
  · rw [and_iff_right same]
    exact narrows.decide_iff orderly unrelated sheds decided decided' same
  · exact iff_of_false (narrows.decide_ne orderly unrelated sheds decided decided' same)
      fun spared => same spared.1

end Two

end Registry

theorem Run.evaluated {events : List Event} {site : Site} (run : Run openings events (.up r d))
    (step : Step openings (.up r d) (.called clock (.evaluate request) (.decided (.ok decision))) site) :
    (r.tick clock).decide request = .ok decision ∧ ∃ bytes, decision.record = some bytes := by
  obtain ⟨D, drives⟩ := RunWhere.drives run
  obtain ⟨r', d', D', -, effect, -⟩ := step.effect drives
  refine ⟨effect.decided, ?_⟩
  generalize answer : Answer.decided (.ok decision) = outcome at effect
  cases effect with
  | undecided e => cases answer
  | @evaluate _ other result _ _ decided recording =>
      cases recording with
      | refused e => cases answer
      | failed => cases answer
      | done recorded journalled =>
          cases answer
          exact ⟨_, recorded⟩

theorem Registry.tick_pinned (pinned : r.clockPinned = true) (clock : UInt64) : r.tick clock = r :=
  if_pos pinned

/-- At a pinned clock an unrelated publication leaves the digest of a decision alone exactly when what
it gives up does not matter to the request, or SHA-256 gives the two records one digest. -/
theorem unrelated_publication_iff {events : List Event} {call : Call} {value : kind.Carrier}
    {answer : Answer} {site site' : Site} {clock' clock'' : UInt64}
    (run : Run openings events (.up r d)) (pinned : r.clockPinned = true)
    (asserts : r.asserts call = some ⟨kind, value⟩)
    (unrelated : r.Unrelated request (kind.entityId value))
    (before : Step openings (.up r d) (.called clock (.evaluate request) (.decided (.ok decision))) site)
    (published : Step openings (.up r d) (.called clock' call answer) (.up r' d'))
    (after : Step openings (.up r' d') (.called clock'' (.evaluate request) (.decided (.ok other)))
      site') :
    other.decisionDigest = decision.decisionDigest ↔
      decision.Collide other ∨ r.Spared request (r.trims call) (r.evicts call) := by
  obtain ⟨D, refines, standing⟩ := run.faithful
  have drives : Drives r.store d D := refines
  have faithful : Faithful r D := standing
  obtain ⟨decided, bytes, recorded⟩ := run.evaluated before
  have run' : Run openings (events ++ [.called clock' call answer]) (.up r' d') :=
    run.next published trivial
  obtain ⟨decided', bytes', recorded'⟩ := run'.evaluated after
  cases published with
  | called ends =>
      have sheds := drives.sheds_call faithful.sane.orderly faithful.sane.recorded asserts ends
      have pinned' : r'.clockPinned = true := by
        rw [sheds.clockPinned]
        split
        · exact pinned
        · exact pinned
      rw [Registry.tick_pinned pinned] at decided
      rw [Registry.tick_pinned pinned'] at decided'
      rw [(Registry.decides decided).settled.digest_iff (Registry.decides decided').settled recorded
        recorded', Registry.decide_iff_spared faithful.sane.orderly faithful.sane.recorded unrelated
        sheds decided decided']

def silverClass : QoSClass := { plainClass with id := text "silver" }

def crowding : List Action :=
  [.open { RegistryOptions.default with maxGenerationsPerId := 1 } 0 (List.replicate 16 7),
    .call 0 (.setNowMillis 0),
    .call 0 (.publishPolicy plainPolicy []),
    .call 0 (.publishPolicy { plainPolicy with generation := 2 } []),
    .call 0 (.publishClass silverClass [])]

def crowdingOut : Call := .publishClass { silverClass with generation := 2 } []

def policyPinned : ContractRequest := { plainRequest with policyGeneration := 1 }

def prunesBystander : Bool :=
  match (Site.down Disk.empty).rehearse crowding with
  | some (_, .up r d) =>
      r.clockPinned && decide (r.store.Spacious 400120) &&
        (r.entityFor .path policyPinned.path policyPinned.pathGeneration).toOption.isNone &&
        match execute (r.call 0 crowdingOut) d with
        | ((_, r'), _) =>
            decide (r'.store.Spacious 400120) &&
              match (r.tick 0).decide policyPinned, (r'.tick 0).decide policyPinned with
              | .ok decision, .ok other =>
                  decide decision.Short && decide other.Short &&
                    decide (other.decisionDigest ≠ decision.decisionDigest)
              | _, _ => false
  | _ => false

theorem exists_disturbed : ∃ events r d answer r' d' decision site other site',
    Run .any events (.up r d) ∧ r.clockPinned = true ∧
    r.asserts crowdingOut = some ⟨.class, r.arriving .class { silverClass with generation := 2 } []⟩ ∧
    r.Unrelated policyPinned (text "silver") ∧
    Step .any (.up r d)
      (.called 0 (.evaluate policyPinned) (.decided (.ok decision))) site ∧
    Step .any (.up r d) (.called 0 crowdingOut answer) (.up r' d') ∧
    Step .any (.up r' d')
      (.called 0 (.evaluate policyPinned) (.decided (.ok other))) site' ∧
    other.decisionDigest ≠ decision.decisionDigest := by
  have prunes : prunesBystander = true := by decide +kernel
  unfold prunesBystander at prunes
  split at prunes
  case h_2 => cases prunes
  next events r d rehearsed =>
    rw [Bool.and_eq_true, Bool.and_eq_true, Bool.and_eq_true, decide_eq_true_eq] at prunes
    obtain ⟨⟨⟨pinned, spacious⟩, missing⟩, prunes⟩ := prunes
    have run := run_of_rehearse rehearsed
    split at prunes
    next answer r' d' executed =>
      rw [Bool.and_eq_true, decide_eq_true_eq] at prunes
      obtain ⟨spacious', prunes⟩ := prunes
      have published : Step .any (.up r d) (.called 0 crowdingOut answer)
          (.up r' d') := .called (ends_of_execute executed)
      have run' : Run .any (events ++ [.called 0 crowdingOut answer])
          (.up r' d') := run.next published trivial
      split at prunes
      case h_2 => cases prunes
      next decision other decided decided' =>
        simp only [Bool.and_eq_true, decide_eq_true_eq] at prunes
        obtain ⟨⟨short, short'⟩, differs⟩ := prunes
        obtain ⟨_, _, _, ends, -⟩ := (run.affords (120 + 400000 + 0) spacious).evaluate decided
          (within_decision short) (by decide)
        obtain ⟨_, _, _, ends', -⟩ := (run'.affords (120 + 400000 + 0) spacious').evaluate decided'
          (within_decision short') (by decide)
        refine ⟨events, r, d, answer, r', d', decision, _, other, _, run, pinned, rfl,
          ⟨by decide, by decide, by decide, ?_⟩, .called ends, published, .called ends', differs⟩
        intro path found component mem
        rw [found] at missing
        cases missing

/-- A class is published, and a request is rejected for the generation of a policy that it pins and
that was there before. -/
theorem unrelated_publication_disturbs : ¬∀ openings events r d clock kind value call answer r' d'
    clock' request decision site clock'' other site',
    Run openings events (.up r d) → r.clockPinned = true → r.asserts call = some ⟨kind, value⟩ →
    r.Unrelated request (kind.entityId value) →
    Step openings (.up r d) (.called clock (.evaluate request) (.decided (.ok decision))) site →
    Step openings (.up r d) (.called clock' call answer) (.up r' d') →
    Step openings (.up r' d') (.called clock'' (.evaluate request) (.decided (.ok other))) site' →
    other.decisionDigest = decision.decisionDigest := by
  intro undisturbed
  obtain ⟨events, r, d, answer, r', d', decision, site, other, site', run, pinned, asserts, unrelated,
    before, published, after, differs⟩ := exists_disturbed
  exact differs (undisturbed _ events r d 0 .class _ _ answer r' d' 0 policyPinned decision site 0 other
    site' run pinned asserts unrelated before published after)

theorem unrelated_publication_iff_silver : ∃ (r : Registry) (call : Call)
    (decision other : ContractDecision), other.decisionDigest ≠ decision.decisionDigest ∧
    (other.decisionDigest = decision.decisionDigest ↔
      decision.Collide other ∨ r.Spared policyPinned (r.trims call) (r.evicts call)) := by
  obtain ⟨events, r, d, answer, r', d', decision, site, other, site', run, pinned, asserts, unrelated,
    before, published, after, differs⟩ := exists_disturbed
  exact ⟨r, crowdingOut, decision, other, differs,
    unrelated_publication_iff run pinned asserts unrelated before published after⟩

end QoSFabric
