import QoSFabric.Proof.Engine.Origins
import QoSFabric.Proof.Registry.Bystanders
import QoSFabric.Proof.Registry.Remembrance
import QoSFabric.Proof.Registry.Verdicts

/-!
# Verdicts that are reproduced

A decision is evaluated on the newest definitions it names. As long as nothing publishes one of these
again, the same request is given the same verdict at the same epoch and time: by the registry itself,
behind a compaction, and by every registry its directory is recovered to. The origins in the authority
chain are not reproduced, since they are not on disk.
-/

namespace QoSFabric

open FileSystem Interaction Registry Proof.Engine

variable {openings : Openings} {r r' x : Registry} {d d' : Disk FileName} {D D' : Durable} {clock : UInt64}
  {kind : EntityKind} {request : ContractRequest} {inputs : EvaluationInputs}

def EntityKind.erased : (kind : EntityKind) → kind.Carrier → kind.Carrier
  | .class, value => QoSClass.erased value
  | policy, value => Policy.erased value
  | path, value => Path.erased value
  | capability, value => ResourceCapability.erased value
  | reservation, value => Reservation.erased value

theorem EntityKind.Admitted.lasting {value : kind.Carrier} (admitted : kind.Admitted value) :
    kind.lasting value = kind.erased value := by
  have addressed := admitted.addressed.symm
  cases kind with
  | path | reservation => exact congrArg (fun digest => { value with digest, provenance := .none }) addressed
  | «class» =>
      exact congrArg (fun digest => { QoSClass.erased value with digest }) addressed
  | policy =>
      exact congrArg (fun digest => { Policy.erased value with digest }) addressed
  | capability =>
      exact congrArg (fun digest => { ResourceCapability.erased value with digest }) addressed

theorem Registry.Orderly.latest_erased (orderly : r.Orderly) (kind : EntityKind) (id : Text) :
    (r.latest kind id).map kind.lasting = (r.latest kind id).map kind.erased := by
  apply Option.map_congr
  intro value held
  exact ((orderly.tables kind).admitted id value (List.mem_of_getLast? held)).lasting

@[simp] theorem generation_erased (value : kind.Carrier) :
    kind.generation (kind.erased value) = kind.generation value := by
  cases kind <;> rfl

/-- The inputs hold the newest class, policy and path. -/
structure Newest (inputs : EvaluationInputs) : Prop where
  klass : inputs.currency.latestClassGeneration = some inputs.klass.generation
  policy : inputs.currency.latestPolicyGeneration = some inputs.policy.generation
  path : inputs.currency.latestPathGeneration = some inputs.path.generation

theorem Registry.Orderly.latest_of_found (orderly : r.Orderly) {id : Text} {generation : Generation}
    {value : kind.Carrier} (found : r.entityFor kind id generation = .ok value)
    (newest : r.currencyOf kind id = some (kind.generation value)) : r.latest kind id = some value := by
  obtain ⟨mem, -⟩ := orderly.entityFor_ok found
  rw [orderly.currencyOf] at newest
  obtain ⟨last, held, same⟩ := Option.map_eq_some_iff.mp newest
  rw [held, (orderly.tables kind).unique (List.mem_of_getLast? held) mem same]

theorem Registry.Orderly.found_of_latest (orderly : r.Orderly) {id : Text} {generation : Generation}
    {value : kind.Carrier} (newest : r.latest kind id = some value)
    (pin : pinned generation (kind.generation value) = false) :
    r.entityFor kind id generation = .ok value := by
  unfold entityFor
  split
  next zero => exact orderly.newest_ok newest
  next nonzero =>
    have same : kind.generation value = generation := by
      unfold pinned at pin
      rw [Bool.and_eq_false_iff, bne_eq_false_iff_eq, bne_eq_false_iff_eq] at pin
      exact (pin.resolve_left nonzero).symm
    have mem := List.mem_of_getLast? newest
    have holds : r.Holds kind id generation := ⟨value, mem, same⟩
    obtain ⟨first, found⟩ := holds.findEntity
    obtain ⟨mem', same'⟩ := findEntity_ok found
    rw [found, (orderly.tables kind).unique mem' mem (same'.trans same.symm)]

def Concurs (inputs : EvaluationInputs) (r x : Registry) : Prop :=
  ∀ kind id, Names inputs kind id →
    (x.latest kind id).map kind.lasting = (r.latest kind id).map kind.lasting

theorem Concurs.found (concurs : Concurs inputs r x) (orderly : r.Orderly) (orderly' : x.Orderly)
    {id : Text} {generation : Generation} {value : kind.Carrier} (names : Names inputs kind id)
    (found : r.entityFor kind id generation = .ok value)
    (newest : r.currencyOf kind id = some (kind.generation value)) :
    ∃ other, x.entityFor kind id generation = .ok other ∧ kind.erased other = kind.erased value ∧
      x.currencyOf kind id = r.currencyOf kind id := by
  have same := concurs kind id names
  rw [orderly.latest_erased, orderly'.latest_erased, orderly.latest_of_found found newest,
    Option.map_some] at same
  obtain ⟨other, held, erased⟩ := Option.map_eq_some_iff.mp same
  have generations : kind.generation other = kind.generation value := by
    rw [← generation_erased other, erased, generation_erased]
  refine ⟨other, orderly'.found_of_latest held ?_, erased, ?_⟩
  · rw [generations]
    exact (orderly.entityFor_ok found).2
  · rw [newest, orderly'.currencyOf, held, Option.map_some, generations]

theorem Concurs.evidence (concurs : Concurs inputs r x) (orderly : r.Orderly) (orderly' : x.Orderly)
    (kinds : kind = .capability ∨ kind = .reservation) :
    (inputs.path.components.map (x.evidenceFor kind)).map (Option.map kind.erased) =
      (inputs.path.components.map (r.evidenceFor kind)).map (Option.map kind.erased) := by
  rw [List.map_map, List.map_map]
  apply List.map_congr_left
  intro component mem
  show (x.findLatest kind component.resource).toOption.map kind.erased =
    (r.findLatest kind component.resource).toOption.map kind.erased
  rw [orderly.findLatest, orderly'.findLatest, ← orderly.latest_erased, ← orderly'.latest_erased]
  exact concurs kind _ (.evidence kinds mem)

theorem Concurs.assembles (concurs : Concurs inputs r x) (orderly : r.Orderly)
    (orderly' : x.Orderly) (assembles : r.Assembles request inputs) (newest : Newest inputs)
    (epoch : x.currentEpoch = r.currentEpoch) (time : x.nowMs = r.nowMs) :
    ∃ other, x.Assembles request other ∧ other.erased = marked inputs.erased x.conflicts := by
  obtain ⟨policy, path, klass, valid, policyFor, pathFor, classFor, rfl⟩ := assembles
  obtain ⟨policy', policyFor', samePolicy, policies⟩ :=
    concurs.found orderly orderly' .policy policyFor newest.policy
  obtain ⟨path', pathFor', samePath, paths⟩ :=
    concurs.found orderly orderly' .path pathFor newest.path
  obtain ⟨klass', classFor', sameClass, classes⟩ :=
    concurs.found orderly orderly' .class classFor newest.klass
  refine ⟨_, ⟨policy', path', klass', valid, policyFor', pathFor', classFor', rfl⟩, ?_⟩
  have capabilities := concurs.evidence orderly orderly' (.inl (Eq.refl EntityKind.capability))
  have reservations := concurs.evidence orderly orderly' (.inr (Eq.refl EntityKind.reservation))
  have samePolicy : policy'.erased = policy.erased := samePolicy
  have samePath : path'.erased = path.erased := samePath
  have components : path'.components = path.components := by
    show path'.erased.components = path.erased.components
    rw [samePath]
  have sameClass : klass'.erased = klass.erased := sameClass
  unfold EvaluationInputs.erased marked inputsFor at *
  dsimp only at *
  rw [samePolicy, samePath, sameClass, components, policies, paths, classes, epoch, time]
  congr 1

def Event.subject : Event → Option (EntityKind × Text)
  | .called _ call _ => call.subject
  | .crashed _ (some call) => call.subject
  | _ => none

/-- No event publishes what a request names. -/
def Undisturbed (inputs : EvaluationInputs) (events : List Event) : Prop :=
  ∀ event ∈ events, ∀ kind id, event.subject = some (kind, id) → ¬Names inputs kind id

theorem Undisturbed.front {events : List Event} {event : Event}
    (undisturbed : Undisturbed inputs (events ++ [event])) : Undisturbed inputs events :=
  fun other mem => undisturbed other (List.mem_append_left _ mem)

theorem Concurs.kept {base : Registry} (concurs : Concurs inputs base r)
    (latest : ∀ kind id, Names inputs kind id → x.latest kind id = r.latest kind id) :
    Concurs inputs base x := by
  intro kind id names
  rw [latest kind id names]
  exact concurs kind id names

theorem Effect.bystanders {call : Call} {answer : Answer}
    (effect : Effect clock r D call answer r' D') (faithful : Faithful r D) {id : Text}
    (other : call.subject ≠ some (kind, id)) : r'.latest kind id = r.latest kind id := by
  cases asserts : r.asserts call with
  | none => exact effect.latest faithful asserts kind id
  | some published =>
      obtain ⟨published, value⟩ := published
      obtain ⟨result, -, publishes⟩ := effect.publishes faithful asserts
      rw [subject_of_asserts asserts] at other
      cases publishes with
      | refused _ abides => exact abides.latest kind id
      | held abides => exact abides.latest kind id
      | added valid next epoch newest others =>
          apply others
          rw [← not_and_or]
          rintro ⟨rfl, rfl⟩
          exact other rfl

theorem carrying_concurs (inputs : EvaluationInputs) (base : Registry) (events : List Event)
    (event : Event) (members : Option Registry) :
    Carrying members event (fun r => Undisturbed inputs events → Concurs inputs base r)
      fun r => Undisturbed inputs (events ++ [event]) → Concurs inputs base r where
  idle _ r concurs undisturbed := concurs undisturbed.front
  claimed {r r' D D'} _ _ advancing concurs undisturbed := by
    apply (concurs undisturbed.front).kept
    intro kind id _
    generalize r'.currentEpoch = next at advancing
    cases advancing with
    | done => rfl
  effect {clock r D call answer r' D'} _ belongs faithful effect concurs undisturbed := by
    apply (concurs undisturbed.front).kept
    intro kind id names
    apply effect.bystanders faithful
    intro subject
    have published : event.subject = some (kind, id) := by
      rcases belongs with rfl | rfl <;> exact subject
    exact undisturbed event (List.mem_append_right _ List.mem_cons_self) kind id published names
  recovered _ _ _ recalls concurs undisturbed kind id names :=
    (recalls.latest kind id).trans (concurs undisturbed kind id names)

theorem Decides.stamps {decision : ContractDecision} (decides : Decides r request decision) :
    decision.fabricEpoch = r.currentEpoch ∧ decision.decidedAtMs = r.nowMs := by
  cases decides with
  | rejected reason => exact ⟨rfl, rfl⟩
  | evaluated _ _ _ _ evaluated =>
      unfold QoSFabric.evaluate at evaluated
      split at evaluated <;> cases evaluated <;> exact ⟨rfl, rfl⟩

/-- As long as nothing publishes what a request names, the request gets the same verdict at the same
epoch and time, whatever else is called and however often the registry is recovered. -/
theorem verdict_reproduced {before after : List Event} {d₁ : Disk FileName} {r₁ : Registry}
    {clock' : UInt64} {decision decision' : ContractDecision} {site : Site}
    (run : Run .reading before (.up r d))
    (first : Step .reading (.up r d) (.called clock (.evaluate request) (.decided (.ok decision)))
      (.up r₁ d₁))
    (assembles : (r.tick clock).Assembles request inputs) (newest : Newest inputs)
    (onward : Onward .reading (.up r₁ d₁) after (.up x d')) (undisturbed : Undisturbed inputs after)
    (again : Step .reading (.up x d')
      (.called clock' (.evaluate request) (.decided (.ok decision'))) site)
    (epoch : decision'.fabricEpoch = decision.fabricEpoch)
    (time : decision'.decidedAtMs = decision.decidedAtMs)
    (markers : x.conflicts.find? (markerApplies inputs) =
      r.conflicts.find? (markerApplies inputs)) :
    decision'.erased = decision.erased := by
  obtain ⟨D, refines, faithful⟩ := run.faithful
  obtain ⟨_, _, D₁, same, effect, -⟩ := first.effect refines
  cases same
  have run₁ := run.next first trivial
  -- the evaluation itself changes no definition
  have start : Undisturbed inputs [] → Concurs inputs (r.tick clock) r₁ := by
    intro _ kind id _
    rw [effect.latest faithful rfl, latest_congr (r.tick_members clock).1]
  obtain ⟨D', refines', faithful', concurs⟩ :=
    onward.carries run₁ start (carrying_concurs inputs (r.tick clock))
  have decided := effect.decided
  obtain ⟨_, _, D'', -, effect', -⟩ := again.effect refines'
  have decided' := effect'.decided
  have concurs : Concurs inputs (r.tick clock) (x.tick clock') :=
    (concurs undisturbed).kept fun kind id _ => latest_congr (x.tick_members clock').1 kind id
  have stamps := (Registry.decides decided).stamps
  have stamps' := (Registry.decides decided').stamps
  obtain ⟨other, assembles', erased⟩ := concurs.assembles (faithful.ticked clock).sane.orderly
    (Faithful.ticked faithful' clock').sane.orderly assembles newest
    (stamps'.1.symm.trans (epoch.trans stamps.1)) (stamps'.2.symm.trans (time.trans stamps.2))
  have conflicts : other.conflicts = (x.tick clock').conflicts := by
    obtain ⟨_, _, _, -, -, -, -, rfl⟩ := assembles'
    rfl
  have conflicts' : inputs.conflicts = (r.tick clock).conflicts := by
    obtain ⟨_, _, _, -, -, -, -, rfl⟩ := assembles
    rfl
  rw [assembles.decide] at decided
  rw [assembles'.decide] at decided'
  have congr := @evaluate_congr inputs other (by rw [erased, conflicts])
    (by rw [conflicts, conflicts', (x.tick_members clock').2, (r.tick_members clock).2, markers])
  rw [decided, decided'] at congr
  exact Except.ok.inj congr

theorem Registry.Assembles.newest (assembles : r.Assembles request inputs)
    (klass : request.classGeneration = 0) (policy : request.policyGeneration = 0)
    (path : request.pathGeneration = 0) : Newest inputs := by
  obtain ⟨_, _, _, -, policyFor, pathFor, classFor, rfl⟩ := assembles
  rw [policy] at policyFor
  rw [path] at pathFor
  rw [klass] at classFor
  constructor
  · show (r.entityFor .class request.classId 0).toOption.map QoSClass.generation = _
    rw [classFor]
    rfl
  · show (r.entityFor .policy request.policy 0).toOption.map Policy.generation = _
    rw [policyFor]
    rfl
  · show (r.entityFor .path request.path 0).toOption.map Path.generation = _
    rw [pathFor]
    rfl

theorem Names.of_class {id : Text} (names : Names inputs .class id) : id = inputs.request.classId := by
  cases names with
  | «class» => rfl
  | evidence kinds => cases kinds <;> contradiction

def reproducing : List Action :=
  [.open .default 0 (List.replicate 16 7),
    .call 0 (.publishClass plainClass []),
    .call 0 (.publishPolicy plainPolicy []),
    .call 0 (.publishPath plainPath []), .crash, .open .default 0 (List.replicate 16 8),
    .call 0 (.setNowMillis 5)]

def reproducesGold : Bool :=
  match (Site.down Disk.empty).rehearse reproducing with
  | some (_, .up r _) =>
      r.clockPinned && (r.refusal plainRequest).isNone &&
        decide (r.store.Spacious (120 + 400000 + (120 + 4000 + (120 + Limits.maxCanonicalRecordBytes)))) &&
        decide (r.Publishable .class (r.arriving .class silverClass []) 4000) &&
        ((r.tick 7).decide plainRequest).toOption.any fun decision => decide decision.Short
  | _ => false

set_option maxRecDepth 4000 in
/-- Between the two evaluations another class is published, and leases expire. -/
theorem verdict_reproduced_gold : ∃ before r d r₁ d₁ after x d' decision decision' site,
    Run .reading before (.up r d) ∧
    (∃ result, after = [.called 9 (.publishClass silverClass []) (.published (.ok result)),
      .called 9 .expireLeases (.finished (.ok ()))]) ∧
    Step .reading (.up r d)
      (.called 7 (.evaluate plainRequest) (.decided (.ok decision))) (.up r₁ d₁) ∧
    Onward .reading (.up r₁ d₁) after (.up x d') ∧
    Step .reading (.up x d')
      (.called 11 (.evaluate plainRequest) (.decided (.ok decision'))) site ∧
    decision'.erased = decision.erased := by
  have reproduces : reproducesGold = true := by decide +kernel
  unfold reproducesGold at reproduces
  split at reproduces
  case h_2 => cases reproduces
  next before r d rehearsed =>
    simp only [Bool.and_eq_true, decide_eq_true_eq, Option.isNone_iff_eq_none] at reproduces
    obtain ⟨⟨⟨⟨pinned, clear⟩, spacious⟩, publishable⟩, decided⟩ := reproduces
    have run := reading_of_rehearse rfl rehearsed
    obtain ⟨inputs, assembles⟩ := refusal_eq_none.mp clear
    have ticked (clock : UInt64) : r.tick clock = r := Registry.tick_pinned pinned clock
    cases decides : (r.tick 7).decide plainRequest with
    | error e =>
        rw [decides] at decided
        cases decided
    | ok decision =>
        rw [decides] at decided
        have short : decision.Short := of_decide_eq_true decided
        obtain ⟨between, store, d₁, ends, affords⟩ :=
          (run.affords _ spacious).evaluate decides (within_decision short) (by decide)
        rw [ticked] at ends affords
        generalize members : (((r.withStore between).holdDecision decision).withStore
          store).pruneDecisions = r₁ at ends affords
        have first : Step .reading (.up r d)
          (.called 7 (.evaluate plainRequest) (.decided (.ok decision))) (.up r₁ d₁) := .called ends
        -- another class
        have publishable₁ : r₁.Publishable .class (r₁.arriving .class silverClass []) 4000 := by
          subst members
          obtain ⟨valid, positive, window, admitted, within⟩ := publishable
          exact ⟨valid, positive, window, admitted, within⟩
        obtain ⟨result, between₁, stored, store₁, d₂, published, affords₂⟩ :=
          affords.publishes publishable₁ (by decide)
        generalize members₂ : ((r₁.withStore between₁).push .class stored).withStore store₁ = r₂
          at published affords₂
        have executed : execute (r₁.call 9 (.publishClass silverClass [])) d₁ =
            ((.published (.ok result), r₂), d₂) := by
          unfold Registry.call Registry.publishClass
          dsimp only
          rw [execute_bind, published]
          rfl
        have expired : execute (r₂.call 9 .expireLeases) d₂ =
            ((.finished (.ok ()), r₂.expireLeases 9), d₂) := rfl
        have onward : Onward .reading (.up r₁ d₁)
            [.called 9 (.publishClass silverClass []) (.published (.ok result)),
              .called 9 .expireLeases (.finished (.ok ()))] (.up (r₂.expireLeases 9) d₂) :=
          (Onward.here.next (.called (ends_of_execute executed))).next
            (.called (ends_of_execute expired))
        have run₂ := onward.run (run.next first trivial)
        have affords₃ : Affords (120 + Limits.maxCanonicalRecordBytes + 0) (r₂.expireLeases 9) d₂ :=
          affords₂.congr (r₂.store_tick 9)
        have gives : (r₂.expireLeases 9).GivesVerdict d₂ 11 plainRequest :=
          .of_short run₂ affords₃.accepts (Nat.zero_le _) (short_of_validRequest (by decide))
        obtain ⟨decision', r', d', answered, -⟩ := gives
        have again : Step .reading (.up (r₂.expireLeases 9) d₂)
          (.called 11 (.evaluate plainRequest) (.decided (.ok decision'))) (.up r' d') :=
            .called (ends_of_execute answered)
        have stamps := (Registry.decides decides).stamps
        have stamps' := (Registry.decides (run₂.evaluated again).1).stamps
        have held : (r.tick 7).Assembles plainRequest inputs := by
          rw [ticked]
          exact assembles
        have still : (r₂.expireLeases 9).tick 11 = r₂.expireLeases 9 := by
          subst members₂ members
          apply Registry.tick_pinned
          show (Registry.tick _ 9).clockPinned = true
          rw [Registry.tick_pinned (by exact pinned)]
          exact pinned
        have same : (r₂.expireLeases 9).currentEpoch = r.currentEpoch ∧
            (r₂.expireLeases 9).nowMs = r.nowMs ∧ (r₂.expireLeases 9).conflicts = r.conflicts := by
          subst members₂ members
          unfold Registry.expireLeases
          rw [Registry.tick_pinned (by exact pinned)]
          exact ⟨rfl, rfl, rfl⟩
        rw [ticked] at stamps
        rw [still] at stamps'
        refine ⟨before, r, d, r₁, d₁, _, _, d₂, decision, decision', _, run, ⟨result, rfl⟩,
          first, onward, again, verdict_reproduced run first held (assembles.newest rfl rfl rfl)
            onward ?_ again (stamps'.1.trans (same.1.trans stamps.1.symm))
            (stamps'.2.trans (same.2.1.trans stamps.2.symm)) (by rw [same.2.2])⟩
        intro event mem kind id subject names
        rcases List.mem_cons.mp mem with rfl | mem
        · cases subject
          obtain ⟨_, _, _, -, -, -, -, rfl⟩ := assembles
          have gold : silverClass.id = plainRequest.classId := names.of_class
          exact absurd gold (by decide)
        · obtain rfl := List.mem_singleton.mp mem
          cases subject

end QoSFabric
