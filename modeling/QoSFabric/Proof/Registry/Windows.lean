import QoSFabric.Proof.Registry.Fencing
import QoSFabric.Proof.Registry.Publication
import QoSFabric.Proof.Registry.Progress

/-!
# Retained windows

The generations held of an identifier are consecutive, and the newest of them is the highest that a
publication has acknowledged: a publication that is accepted goes one past it, and nothing else
changes it. A crash inside a publication may leave a generation that no one has been told of, so the
runs here have none; an opening whose record budget is below the size of a record cuts the log there.
-/

namespace QoSFabric

open FileSystem Registry Proof.Engine

variable {r r' : Registry} {D D' : Durable} {clock : UInt64} {kind : EntityKind} {id : Text}
  {events : List Event}

def Call.subject : Call → Option (EntityKind × Text)
  | .publishClass value _ => some (.class, value.id)
  | .publishPolicy value _ => some (.policy, value.id)
  | .publishPath value _ => some (.path, value.id)
  | .publishCapability value => some (.capability, value.resource)
  | .publishReservation value => some (.reservation, value.resource)
  | _ => none

theorem subject_of_asserts {call : Call} {value : kind.Carrier}
    (asserts : r.asserts call = some ⟨kind, value⟩) :
    call.subject = some (kind, kind.entityId value) := by
  cases call <;> cases asserts <;> rfl

theorem subject_of_silent {call : Call} (silent : r.asserts call = none) : call.subject = none := by
  cases call <;> first | rfl | cases silent

def Event.acknowledged (kind : EntityKind) (id : Text) : Event → Option Generation
  | .called _ call (.published (.ok result)) =>
      if call.subject = some (kind, id) then some result.generation else none
  | _ => none

def acknowledgements (kind : EntityKind) (id : Text) (events : List Event) : List Generation :=
  events.filterMap (Event.acknowledged kind id)

theorem acknowledgements_concat (kind : EntityKind) (id : Text) (events : List Event)
    (event : Event) : acknowledgements kind id (events ++ [event]) =
      acknowledgements kind id events ++ (event.acknowledged kind id).toList := by
  unfold acknowledgements
  rw [List.filterMap_append, List.filterMap_cons]
  cases event.acknowledged kind id <;> rfl

/-- A call that is not interrupted. -/
def Event.Whole : Event → Prop
  | .crashed _ (some _) => False
  | _ => True

def Highest (given : List Generation) : Option Generation → Prop
  | none => given = []
  | some highest => highest ∈ given ∧ ∀ generation ∈ given, generation ≤ highest

theorem Highest.next {given : List Generation} {newest : Option Generation} {next : Generation}
    (highest : Highest given newest) (newer : ∀ last ∈ newest, last < next) :
    Highest (given ++ [next]) (some next) := by
  refine ⟨List.mem_append_right _ List.mem_cons_self, ?_⟩
  intro generation mem
  rw [List.mem_append, List.mem_singleton] at mem
  cases mem with
  | inr is => exact is ▸ UInt64.le_refl _
  | inl old =>
      cases newest with
      | none =>
          rw [show given = [] from highest] at old
          cases old
      | some last => exact UInt64.le_trans (highest.2 generation old) (UInt64.le_of_lt (newer last rfl))

theorem Highest.again {given : List Generation} {highest : Generation}
    (before : Highest given (some highest)) : Highest (given ++ [highest]) (some highest) := by
  refine ⟨List.mem_append_right _ List.mem_cons_self, ?_⟩
  intro generation mem
  rw [List.mem_append, List.mem_singleton] at mem
  cases mem with
  | inl old => exact before.2 generation old
  | inr is => exact is ▸ UInt64.le_refl _

def Acknowledged (events : List Event) (r : Registry) : Prop :=
  (∀ event ∈ events, event.Whole) → ∀ kind id,
    Highest (acknowledgements kind id events) ((r.latest kind id).map kind.generation)

theorem Acknowledged.kept {event : Event} (acknowledged : Acknowledged events r)
    (none : ∀ kind id, event.acknowledged kind id = none)
    (latest : ∀ kind id, (r'.latest kind id).map kind.generation =
      (r.latest kind id).map kind.generation) : Acknowledged (events ++ [event]) r' := by
  intro whole kind id
  rw [acknowledgements_concat, none, Option.toList_none, List.append_nil, latest]
  exact acknowledged (fun event mem => whole event (List.mem_append_left _ mem)) kind id

theorem acknowledged_of_silent {call : Call} {answer : Answer} (silent : r.asserts call = none)
    (kind : EntityKind) (id : Text) :
    (Event.called clock call answer).acknowledged kind id = none := by
  unfold Event.acknowledged
  split
  next called =>
    cases called
    rw [subject_of_silent silent]
    rfl
  · rfl

theorem acknowledged_published {call : Call} {result : PublicationResult} {value : kind.Carrier}
    (asserts : r.asserts call = some ⟨kind, value⟩) (other : EntityKind) (id : Text) :
    (Event.called clock call (.published (.ok result))).acknowledged other id =
      if (kind, kind.entityId value) = (other, id) then some result.generation else none := by
  unfold Event.acknowledged
  dsimp only
  rw [subject_of_asserts asserts]
  simp only [Option.some.injEq]

theorem Acknowledged.published {call : Call} {result : Result PublicationResult}
    {value : kind.Carrier} (acknowledged : Acknowledged events r)
    (asserts : r.asserts call = some ⟨kind, value⟩) (publishes : Publishes kind value r result r') :
    Acknowledged (events ++ [.called clock call (.published result)]) r' := by
  cases publishes with
  | refused e abides =>
      exact acknowledged.kept (fun _ _ => rfl) fun kind id => by rw [abides.latest]
  | held abides latest generation digest =>
      intro whole other id
      have before := acknowledged (fun event mem => whole event (List.mem_append_left _ mem)) other id
      rw [acknowledgements_concat, acknowledged_published asserts, abides.latest]
      split
      next same =>
        cases same
        rw [latest, Option.map_some, generation] at before ⊢
        exact before.again
      · rw [Option.toList_none, List.append_nil]
        exact before
  | added valid next epoch newest others =>
      intro whole other id
      have before := acknowledged (fun event mem => whole event (List.mem_append_left _ mem)) other id
      rw [acknowledgements_concat, acknowledged_published asserts]
      split
      next same =>
        cases same
        rw [newest, Option.map_some, generation_withProvenance, kind.generation_asserted]
        apply before.next
        intro last mem
        obtain ⟨older, held, rfl⟩ := Option.map_eq_some_iff.mp mem
        exact (next older held).lt
      next ne =>
        have elsewhere : other ≠ kind ∨ id ≠ kind.entityId value := by
          by_contra neither
          rw [not_or, not_not, not_not] at neither
          exact ne (by rw [neither.1, neither.2])
        rw [Option.toList_none, List.append_nil, others other id elsewhere]
        exact before

theorem carrying_acknowledged (members : Option Registry) (events : List Event) (event : Event) :
    Carrying members event (Acknowledged events) (Acknowledged (events ++ [event])) where
  idle idle r acknowledged := by
    apply acknowledged.kept _ fun _ _ => rfl
    cases event with
    | called => exact idle.elim
    | _ => exact fun _ _ => rfl
  claimed {r r' D D'} opens _ advancing acknowledged := by
    apply acknowledged.kept
    · rcases opens with ⟨_, _, _, -, rfl⟩ | ⟨_, rfl⟩ <;> exact fun _ _ => rfl
    · generalize r'.currentEpoch = next at advancing
      cases advancing with
      | done => exact fun _ _ => rfl
  effect {clock r D call answer r' D'} _ belongs faithful effect acknowledged := by
    rcases belongs with rfl | rfl
    case inr =>
      intro whole
      exact (whole _ (List.mem_append_right _ List.mem_cons_self)).elim
    cases asserts : r.asserts call with
    | none =>
        exact acknowledged.kept (acknowledged_of_silent asserts) fun kind id => by
          rw [effect.latest faithful asserts]
    | some published =>
        obtain ⟨result, rfl, publishes⟩ := effect.publishes faithful asserts
        exact acknowledged.published asserts publishes
  recovered {options store clock r D x} _ _ _ recalls acknowledged whole kind id := by
    have same := congrArg (Option.map kind.generation) (recalls.latest kind id)
    have lasting : kind.generation ∘ kind.lasting = kind.generation := funext generation_lasting
    rw [Option.map_map, Option.map_map, lasting] at same
    unfold Registry.latest
    rw [same]
    exact acknowledged whole kind id

/-- In a run without interrupted calls, whose operations succeed or leave nothing behind, the
generations held of an identifier are consecutive and end with the highest acknowledged one, if no
opening finds a record above its budget. -/
theorem window_contiguous {r : Registry} {d : Disk FileName}
    (turns : Turns .reading events (.up r d) D) (whole : ∀ event ∈ events, event.Whole)
    (kind : EntityKind) (id : Text) (list : List kind.Carrier)
    (held : (r.tables kind).lookup id = some list) :
    list ≠ [] ∧
      (list.IsChain fun older newer =>
        (kind.generation newer).toNat = (kind.generation older).toNat + 1) ∧
      ∃ last, list.getLast? = some last ∧ kind.generation last ∈ acknowledgements kind id events ∧
        ∀ generation ∈ acknowledgements kind id events, generation ≤ kind.generation last := by
  have faithful : Faithful r D := turns.faithful.1
  have acknowledged : Acknowledged events r := turns.carries
    (fun _ _ _ _ _ _ _ => rfl)
    fun events event members => carrying_acknowledged members events event
  have orderly := faithful.sane.orderly.tables kind
  have filled : list ≠ [] := by
    rintro rfl
    exact orderly.filled id held
  have whole_list : (r.tables kind).held id = list := by
    unfold GenerationTable.held
    rw [held, Option.getD_some]
  refine ⟨filled, ?_, list.getLast filled, List.getLast?_eq_some_getLast filled, ?_⟩
  · have contiguous := orderly.contiguous id
    rw [whole_list] at contiguous
    exact contiguous.imp fun _ _ follows => Store.tryIncrement_eq_some.mp follows
  · have highest := acknowledged whole kind id
    unfold Registry.latest at highest
    rw [whole_list, List.getLast?_eq_some_getLast filled] at highest
    exact highest

def retaining : List Action :=
  [.open .default 0 (List.replicate 16 7),
    .call 0 (.publishClass plainClass []),
    .call 0 (.publishClass { plainClass with generation := 2 } []),
    .call 0 .compact, .crash, .open .default 0 (List.replicate 16 8),
    .call 0 (.publishClass { plainClass with generation := 3 } [])]

def Event.isWhole : Event → Bool
  | .crashed _ (some _) => false
  | _ => true

theorem whole_of_isWhole (wholes : events.all Event.isWhole = true) :
    ∀ event ∈ events, event.Whole := by
  intro event mem
  have is := List.all_eq_true.mp wholes event mem
  cases event with
  | crashed clock inside =>
      cases inside with
      | none => trivial
      | some call => cases is
  | _ => trivial

def retains : Bool :=
  match (Site.down Disk.empty).rehearse retaining with
  | some (events, .up r _) =>
      events.all Event.isWhole &&
        acknowledgements .class (text "gold") events == [1, 2, 3] &&
        ((r.tables .class).lookup (text "gold")).map List.length == some 3
  | _ => false

set_option maxRecDepth 4000 in
theorem window_contiguous_gold : ∃ events r d D list, Turns .reading events (.up r d) D ∧
    (r.tables .class).lookup (text "gold") = some list ∧ list.length = 3 ∧
    (∀ event ∈ events, event.Whole) ∧
    list ≠ [] ∧
      (list.IsChain fun older newer =>
        (EntityKind.generation .class newer).toNat = (EntityKind.generation .class older).toNat + 1) ∧
      ∃ last, list.getLast? = some last ∧
        EntityKind.generation .class last ∈ acknowledgements .class (text "gold") events ∧
        ∀ generation ∈ acknowledgements .class (text "gold") events,
          generation ≤ EntityKind.generation .class last := by
  have retains : retains = true := by decide +kernel
  unfold QoSFabric.retains at retains
  split at retains
  case h_2 => cases retains
  next events r d rehearsed =>
    simp only [Bool.and_eq_true, beq_iff_eq, Option.map_eq_some_iff] at retains
    obtain ⟨⟨wholes, -⟩, list, held, length⟩ := retains
    obtain ⟨D, -, turns⟩ := (reading_of_rehearse rfl rehearsed).turns
    have whole := whole_of_isWhole wholes
    exact ⟨events, r, d, D, list, turns, held, length, whole,
      window_contiguous turns whole .class (text "gold") list held⟩

def receding : List Action :=
  [.open .default 0 (List.replicate 16 7),
    .call 0 (.publishClass plainClass []),
    .call 0 (.publishClass { plainClass with generation := 2 } []),
    .crash, .open shortsighted 0 (List.replicate 16 8), .crash,
    .open .default 0 (List.replicate 16 9),
    .call 0 (.publishClass plainClass [])]

def recedes : Bool :=
  match (Site.down Disk.empty).rehearse receding with
  | some (events, .up r _) =>
      events.all Event.isWhole &&
        acknowledgements .class (text "gold") events == [1, 2, 1] &&
        ((r.tables .class).lookup (text "gold")).map (List.map (EntityKind.generation .class)) ==
          some [1]
  | _ => false

set_option maxRecDepth 4000 in
theorem window_recedes : ¬∀ openings events r d D, Turns openings events (.up r d) D →
    (∀ event ∈ events, event.Whole) → ∀ (kind : EntityKind) (id : Text) (list : List kind.Carrier),
    (r.tables kind).lookup id = some list →
    list ≠ [] ∧
      (list.IsChain fun older newer =>
        (kind.generation newer).toNat = (kind.generation older).toNat + 1) ∧
      ∃ last, list.getLast? = some last ∧ kind.generation last ∈ acknowledgements kind id events ∧
        ∀ generation ∈ acknowledgements kind id events, generation ≤ kind.generation last := by
  intro contiguous
  have recedes : recedes = true := by decide +kernel
  unfold QoSFabric.recedes at recedes
  split at recedes
  case h_2 => cases recedes
  next events r d rehearsed =>
    simp only [Bool.and_eq_true, beq_iff_eq, Option.map_eq_some_iff] at recedes
    obtain ⟨⟨wholes, acknowledged⟩, list, held, generations⟩ := recedes
    obtain ⟨D, -, turns⟩ := (run_of_rehearse rehearsed).turns
    obtain ⟨-, -, last, final, -, highest⟩ := contiguous _ events r d D turns
      (whole_of_isWhole wholes) .class (text "gold") list held
    have second : (2 : Generation) ≤ EntityKind.generation .class last :=
      highest 2 (acknowledged ▸ by decide)
    have first : EntityKind.generation .class last ∈ [(1 : Generation)] :=
      generations ▸ List.mem_map_of_mem (List.mem_of_getLast? final)
    rw [List.mem_singleton.mp first] at second
    exact absurd second (by decide)

end QoSFabric
