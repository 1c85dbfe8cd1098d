import QoSFabric.Proof.Registry.Windows

/-!
# Agreement

The generations acknowledged of an identifier never fall, and one generation is never acknowledged
with two contents, whichever callers publish it and whatever crashes, compactions and reopenings come
between: the newest definition held is at or past everything acknowledged, and recoveries keep its
digest.
-/

namespace QoSFabric

open FileSystem Registry Proof.Engine

variable {openings : Openings} {r r' : Registry} {D D' : Durable} {clock : UInt64} {kind : EntityKind}
  {id : Text} {events : List Event}

def Call.definition : Call → Option ((kind : EntityKind) × kind.Carrier)
  | .publishClass value _ => some ⟨.class, value⟩
  | .publishPolicy value _ => some ⟨.policy, value⟩
  | .publishPath value _ => some ⟨.path, value⟩
  | .publishCapability value => some ⟨.capability, value⟩
  | .publishReservation value => some ⟨.reservation, value⟩
  | _ => none

theorem contentDigest_withProvenance (provenance : Provenance) (value : kind.Carrier) :
    kind.contentDigest (kind.withProvenance provenance value) = kind.contentDigest value := by
  cases kind <;> rfl

theorem asserts_of_definition {call : Call} {value : kind.Carrier}
    (published : call.definition = some ⟨kind, value⟩) :
    ∃ provenance, r.asserts call = some ⟨kind, kind.withProvenance provenance value⟩ := by
  cases call <;> cases published <;> exact ⟨_, rfl⟩

/-- A publication is acknowledged at the generation and with the digest of what was published. -/
def Event.Truthful : Event → Prop
  | .called _ call (.published (.ok result)) => ∀ kind (value : kind.Carrier),
      call.definition = some ⟨kind, value⟩ →
        result.generation = kind.generation value ∧ result.digest = kind.contentDigest value
  | _ => True

def Event.settled (kind : EntityKind) (id : Text) : Event → Option (Generation × Digest256)
  | .called _ call (.published (.ok result)) =>
      if call.subject = some (kind, id) then some (result.generation, result.digest) else none
  | _ => none

def settlements (kind : EntityKind) (id : Text) (events : List Event) :
    List (Generation × Digest256) :=
  events.filterMap (Event.settled kind id)

theorem settlements_concat (kind : EntityKind) (id : Text) (events : List Event) (event : Event) :
    settlements kind id (events ++ [event]) =
      settlements kind id events ++ (event.settled kind id).toList := by
  unfold settlements
  rw [List.filterMap_append, List.filterMap_cons]
  cases event.settled kind id <;> rfl

theorem settled_of_silent {call : Call} {answer : Answer} (silent : r.asserts call = none)
    (kind : EntityKind) (id : Text) : (Event.called clock call answer).settled kind id = none := by
  unfold Event.settled
  split
  next called =>
    cases called
    rw [subject_of_silent silent]
    rfl
  · rfl

theorem settled_published {call : Call} {result : PublicationResult} {value : kind.Carrier}
    (asserts : r.asserts call = some ⟨kind, value⟩) (other : EntityKind) (id : Text) :
    (Event.called clock call (.published (.ok result))).settled other id =
      if (kind, kind.entityId value) = (other, id) then some (result.generation, result.digest)
      else none := by
  unfold Event.settled
  dsimp only
  rw [subject_of_asserts asserts]
  simp only [Option.some.injEq]

/-- A later content: of a newer generation, or the same. -/
def Agrees (earlier later : Generation × Digest256) : Prop :=
  earlier.1 ≤ later.1 ∧ (earlier.1 = later.1 → earlier.2 = later.2)

theorem Agrees.refl (content : Generation × Digest256) : Agrees content content :=
  ⟨UInt64.le_refl _, fun _ => rfl⟩

theorem Agrees.trans {first second third : Generation × Digest256} (one : Agrees first second)
    (two : Agrees second third) : Agrees first third := by
  refine ⟨UInt64.le_trans one.1 two.1, fun same => ?_⟩
  have middle : first.1 = second.1 := UInt64.le_antisymm one.1 (same ▸ two.1)
  exact (one.2 middle).trans (two.2 (middle.symm.trans same))

theorem Agrees.newer {earlier later : Generation × Digest256} (newer : earlier.1 < later.1) :
    Agrees earlier later :=
  ⟨UInt64.le_of_lt newer, fun same => absurd (same ▸ newer) (UInt64.lt_irrefl _)⟩

def Registry.newestContent (r : Registry) (kind : EntityKind) (id : Text) :
    Option (Generation × Digest256) :=
  (r.latest kind id).map fun value => (kind.generation value, kind.digest value)

def Replaces (before after : Option (Generation × Digest256)) : Prop :=
  ∀ old ∈ before, ∃ new ∈ after, Agrees old new

theorem Replaces.of_eq {before after : Option (Generation × Digest256)} (same : after = before) :
    Replaces before after :=
  fun old mem => ⟨old, same ▸ mem, .refl old⟩

theorem newestContent_congr (latest : r'.latest kind id = r.latest kind id) :
    r'.newestContent kind id = r.newestContent kind id :=
  congrArg (Option.map _) latest

theorem Publishes.replaces {value : kind.Carrier} {result : Result PublicationResult}
    (publishes : Publishes kind value r result r') :
    (∀ other id, Replaces (r.newestContent other id) (r'.newestContent other id)) ∧
      ∀ done, result = .ok done →
        r'.newestContent kind (kind.entityId value) = some (done.generation, done.digest) := by
  cases publishes with
  | refused e abides =>
      exact ⟨fun other id => .of_eq (newestContent_congr (abides.latest other id)),
        fun done failed => by cases failed⟩
  | held abides latest generation digest =>
      refine ⟨fun other id => .of_eq (newestContent_congr (abides.latest other id)), ?_⟩
      rintro done ⟨⟩
      unfold newestContent
      rw [abides.latest, latest, Option.map_some, generation, digest]
  | added valid next epoch newest others =>
      have content : r'.newestContent kind (kind.entityId value) =
          some (kind.generation value, kind.contentDigest value) := by
        unfold newestContent
        rw [newest, Option.map_some, generation_withProvenance, kind.generation_asserted]
        cases kind <;> rfl
      refine ⟨fun other id => ?_, ?_⟩
      · by_cases same : other = kind ∧ id = kind.entityId value
        · obtain ⟨rfl, rfl⟩ := same
          intro old mem
          obtain ⟨last, held, rfl⟩ := Option.map_eq_some_iff.mp mem
          exact ⟨_, content, .newer (next last held).lt⟩
        · exact .of_eq (newestContent_congr (others other id (not_and_or.mp same)))
      · rintro done ⟨⟩
        exact content

theorem Effect.replaces {call : Call} {answer : Answer} (effect : Effect clock r D call answer r' D')
    (faithful : Faithful r D) (kind : EntityKind) (id : Text) :
    Replaces (r.newestContent kind id) (r'.newestContent kind id) := by
  cases asserts : r.asserts call with
  | none => exact .of_eq (newestContent_congr (effect.latest faithful asserts kind id))
  | some published =>
      obtain ⟨result, rfl, publishes⟩ := effect.publishes faithful asserts
      exact publishes.replaces.1 kind id

theorem Effect.settled {call : Call} {answer : Answer} {content : Generation × Digest256}
    (effect : Effect clock r D call answer r' D') (faithful : Faithful r D)
    (settled : (Event.called clock call answer).settled kind id = some content) :
    r'.newestContent kind id = some content := by
  cases asserts : r.asserts call with
  | none =>
      rw [settled_of_silent asserts] at settled
      cases settled
  | some published =>
      obtain ⟨result, rfl, publishes⟩ := effect.publishes faithful asserts
      cases result with
      | error e => cases settled
      | ok done =>
          rw [settled_published asserts] at settled
          split at settled
          · next same =>
            cases same
            obtain rfl := Option.some.inj settled
            exact publishes.replaces.2 done rfl
          · cases settled

theorem Recalls.newestContent {x : Registry} (recalls : Recalls r x) (sane : r.Sane) (sane' : x.Sane)
    (kind : EntityKind) (id : Text) : x.newestContent kind id = r.newestContent kind id := by
  have lasting {y : Registry} (sane : y.Sane) : y.newestContent kind id =
      ((y.latest kind id).map kind.lasting).map fun value =>
        (kind.generation value, kind.digest value) := by
    unfold Registry.newestContent
    rw [Option.map_map]
    apply Option.map_congr
    intro value held
    have addressed := ((sane.orderly.tables kind).admitted id value (List.mem_of_getLast? held)).addressed
    show _ = (kind.generation (kind.lasting value), kind.digest (kind.lasting value))
    have digest : kind.digest (kind.lasting value) = kind.computeDigest value := by
      cases kind <;> rfl
    rw [generation_lasting, digest, addressed]
  rw [lasting sane, lasting sane']
  exact congrArg (Option.map _) (recalls.latest kind id)

def Overtakes (events : List Event) (r : Registry) : Prop :=
  ∀ kind id, ∀ content ∈ settlements kind id events,
    ∃ newest ∈ r.newestContent kind id, Agrees content newest

theorem Overtakes.replaced {event : Event} (overtakes : Overtakes events r)
    (replaces : ∀ kind id, Replaces (r.newestContent kind id) (r'.newestContent kind id))
    (settled : ∀ kind id content, event.settled kind id = some content →
      r'.newestContent kind id = some content) : Overtakes (events ++ [event]) r' := by
  intro kind id content mem
  rw [settlements_concat, List.mem_append] at mem
  cases mem with
  | inl old =>
      obtain ⟨newest, held, agrees⟩ := overtakes kind id content old
      obtain ⟨newer, held', agrees'⟩ := replaces kind id newest held
      exact ⟨newer, held', agrees.trans agrees'⟩
  | inr last =>
      exact ⟨content, settled kind id content (Option.mem_toList.mp last), .refl content⟩

theorem carrying_overtakes (members : Option Registry) (events : List Event) (event : Event) :
    Carrying members event (Overtakes events) (Overtakes (events ++ [event])) where
  idle idle r overtakes := by
    refine overtakes.replaced (fun _ _ => .of_eq rfl) ?_
    intro kind id content settled
    cases event with
    | called => exact idle.elim
    | _ => cases settled
  claimed {r r' D D'} opens _ advancing overtakes := by
    refine overtakes.replaced (fun kind id => .of_eq ?_) ?_
    · generalize r'.currentEpoch = next at advancing
      cases advancing with
      | done => rfl
    · intro kind id content settled
      rcases opens with ⟨_, _, _, -, rfl⟩ | ⟨_, rfl⟩ <;> cases settled
  effect _ belongs faithful effect overtakes := by
    refine overtakes.replaced (effect.replaces faithful) ?_
    intro kind id content settled
    rcases belongs with rfl | rfl
    · exact effect.settled faithful settled
    · cases settled
  recovered _ sane sane' recalls overtakes kind id content mem := by
    obtain ⟨newest, held, agrees⟩ := overtakes kind id content mem
    exact ⟨newest, (recalls.newestContent sane sane' kind id).symm ▸ held, agrees⟩

theorem Turns.overtakes {events : List Event} {site : Site}
    (turns : Turns .reading events site D) : Carries (Overtakes events) site.members D :=
  TurnsWhere.carries (fun _ _ _ _ _ _ _ mem => (List.not_mem_nil mem).elim) turns
    fun events event members => carrying_overtakes members events event

theorem Turn.settled {event : Event} {members members' : Option Registry}
    {content : Generation × Digest256} (turn : Turn members D event members' D')
    (standing : Standing Faithful Durable.Sane members D) (overtakes : Carries (Overtakes events) members D)
    (settled : event.settled kind id = some content) :
    ∀ earlier ∈ settlements kind id events, Agrees earlier content := by
  cases turn with
  | called effect =>
      intro earlier mem
      obtain ⟨newest, held, agrees⟩ := overtakes kind id earlier mem
      obtain ⟨newer, held', agrees'⟩ := effect.replaces standing kind id newest held
      rw [effect.settled standing settled] at held'
      obtain rfl := Option.some.inj held'
      exact agrees.trans agrees'
  | _ => cases settled

theorem Turns.settlements_agree {events : List Event} {site : Site}
    (turns : Turns .reading events site D) (kind : EntityKind) (id : Text) :
    (settlements kind id events).Pairwise Agrees := by
  induction turns with
  | start => exact .nil
  | @next events event site site' D D₀ D' turns sees _ turn ih =>
      obtain rfl := sees.eq
      rw [settlements_concat, List.pairwise_append]
      refine ⟨ih, ?_, ?_⟩
      · cases event.settled kind id with
        | none => exact .nil
        | some content => exact List.pairwise_singleton _ _
      · intro earlier mem content is
        exact turn.settled turns.faithful.1 (Turns.overtakes turns) (Option.mem_toList.mp is)
          earlier mem

theorem Turn.truthful {event : Event} {members members' : Option Registry}
    (turn : Turn members D event members' D')
    (standing : Standing Faithful Durable.Sane members D) : event.Truthful := by
  cases turn with
  | called effect =>
      unfold Event.Truthful
      split
      next r _ _ _ call result called =>
        cases called
        intro kind value published
        obtain ⟨provenance, asserts⟩ := asserts_of_definition published
        obtain ⟨outcome, answered, publishes⟩ := effect.publishes standing asserts
        cases answered
        have content := contentDigest_withProvenance provenance value
        have generation := generation_withProvenance provenance value
        cases publishes with
        | held => exact ⟨generation, content⟩
        | added => exact ⟨generation, content⟩
      · trivial
  | _ => trivial

theorem Turns.truthful {events : List Event} {site : Site}
    (turns : Turns .reading events site D) : ∀ event ∈ events, event.Truthful := by
  induction turns with
  | start => exact fun _ mem => (List.not_mem_nil mem).elim
  | next turns sees _ turn ih =>
      obtain rfl := sees.eq
      intro event mem
      rcases List.mem_append.mp mem with old | last
      · exact ih event old
      · exact List.mem_singleton.mp last ▸ turn.truthful turns.faithful.1

/-- Every publication is acknowledged with the digest of its content, and what is acknowledged of one
identifier, over a whole run, is of generations that never fall and of one content a generation. -/
theorem contents_agree {site : Site} (run : Run .reading events site) :
    (∀ event ∈ events, event.Truthful) ∧
      ∀ kind id, (settlements kind id events).Pairwise Agrees := by
  obtain ⟨D, -, turns⟩ := run.turns
  exact ⟨Turns.truthful turns, Turns.settlements_agree turns⟩

def republishing : List Action :=
  [.open .default 0 (List.replicate 16 7),
    .call 0 (.publishClass plainClass []),
    .call 0 (.publishClass plainClass []),
    .call 0 .compact, .crash, .open .default 0 (List.replicate 16 8),
    .call 0 (.publishClass { plainClass with generation := 2 } [])]

def republishes : Bool :=
  match (Site.down Disk.empty).rehearse republishing with
  | some (events, _) => (settlements .class (text "gold") events).map Prod.fst == [1, 1, 2]
  | none => false

set_option maxRecDepth 4000 in
theorem contents_agree_gold : ∃ events site, Run .reading events site ∧
    (settlements .class (text "gold") events).map Prod.fst = [1, 1, 2] ∧
    (∀ event ∈ events, event.Truthful) ∧
    (settlements .class (text "gold") events).Pairwise Agrees := by
  have republishes : republishes = true := by decide +kernel
  unfold QoSFabric.republishes at republishes
  split at republishes
  case h_2 => cases republishes
  next events site rehearsed =>
    have run := reading_of_rehearse rfl rehearsed
    obtain ⟨truthful, agree⟩ := contents_agree run
    exact ⟨events, site, run, beq_iff_eq.mp republishes, truthful, agree .class (text "gold")⟩

end QoSFabric
