import QoSFabric.Proof.Registry.Durability

namespace QoSFabric

open Registry

variable {r r' : Registry} {D D' : Durable} {clock : UInt64} {kind : EntityKind}

/-- The newest definition held of an identifier. -/
def Registry.latest (r : Registry) (kind : EntityKind) (id : Text) : Option kind.Carrier :=
  ((r.tables kind).held id).getLast?

theorem latest_congr (tables : r'.tables = r.tables) (kind : EntityKind) (id : Text) :
    r'.latest kind id = r.latest kind id := by
  unfold latest
  rw [tables]

theorem latest_alike (alike : r.Alike r') (kind : EntityKind) (id : Text) :
    r'.latest kind id = r.latest kind id := by
  unfold latest
  rw [alike.held]

theorem latest_prune (orderly : r.Orderly) (kind : EntityKind) (id : Text) :
    r.prune.latest kind id = r.latest kind id := by
  unfold latest
  rw [held_prune orderly, List.getLast?_drop]
  split
  next all =>
    -- a list is never pruned away
    have range := orderly.range
    have empty : (r.tables kind).held id = [] := by
      rw [List.eq_nil_iff_length_eq_zero]
      omega
    rw [empty]
    rfl
  · rfl

theorem latest_push (value : kind.Carrier) :
    (r.push kind value).latest kind (kind.entityId value) = some value := by
  unfold latest
  rw [held_push, if_pos rfl, List.getLast?_concat]

theorem latest_push_ne {value : kind.Carrier} {other : EntityKind} {id : Text}
    (ne : other ≠ kind ∨ id ≠ kind.entityId value) :
    (r.push kind value).latest other id = r.latest other id := by
  unfold latest
  by_cases same : other = kind
  · subst same
    have ne : id ≠ other.entityId value := ne.resolve_left (not_not.mpr rfl)
    rw [held_push, if_neg ne]
  · rw [tables_push_ne value same]

theorem newest_of_ascending (best : kind.Carrier) (rest : List kind.Carrier)
    (ascending : (best :: rest).Pairwise fun a b => kind.generation a < kind.generation b) :
    (best :: rest).getLast? = some (newest kind best rest) := by
  induction rest generalizing best with
  | nil => rfl
  | cons next rest ih =>
      have newer := (List.pairwise_cons.mp ascending).1 next List.mem_cons_self
      rw [List.getLast?_cons_cons, ih next (List.pairwise_cons.mp ascending).2]
      conv_rhs => unfold newest
      rw [if_pos newer]

theorem Registry.Orderly.findLatest (orderly : r.Orderly) (kind : EntityKind) (id : Text) :
    (r.findLatest kind id).toOption = r.latest kind id := by
  have ascending := (orderly.tables kind).ascending id
  unfold Registry.findLatest Registry.latest
  unfold GenerationTable.held at ascending ⊢
  cases found : (r.tables kind).lookup id with
  | none => rfl
  | some list =>
      rw [found] at ascending
      cases list with
      | nil => rfl
      | cons first rest => exact (newest_of_ascending first rest ascending).symm

structure Abides (r r' : Registry) : Prop where
  latest : ∀ kind id, r'.latest kind id = r.latest kind id
  currentEpoch : r'.currentEpoch = r.currentEpoch

theorem Abides.refl (r : Registry) : Abides r r := ⟨fun _ _ => rfl, rfl⟩

theorem Abides.trans {r'' : Registry} (first : Abides r r') (second : Abides r' r'') :
    Abides r r'' :=
  ⟨fun kind id => (second.latest kind id).trans (first.latest kind id),
    second.currentEpoch.trans first.currentEpoch⟩

theorem Abides.of_tables (tables : r'.tables = r.tables)
    (currentEpoch : r'.currentEpoch = r.currentEpoch) : Abides r r' :=
  ⟨latest_congr tables, currentEpoch⟩

theorem compactable_abides (start : Registry) :
    Compactable fun r D => Faithful r D ∧ Abides start r where
  store store h := ⟨compactable_faithful.store store h.1, h.2.trans (.of_tables rfl rfl)⟩
  pruned h := ⟨h.1.prune, h.2.trans ⟨latest_prune h.1.sane.orderly, rfl⟩⟩
  compacted h encoded := ⟨h.1.sane.prune.saved encoded,
    h.2.trans ⟨latest_prune h.1.sane.orderly, rfl⟩⟩

theorem Faithful.readied (faithful : Faithful r D) (ready : Readied r D r' D') :
    Faithful r' D' ∧ Abides r r' :=
  (compactable_abides r).readied ready ⟨faithful, .refl r⟩

inductive Publishes (kind : EntityKind) (value : kind.Carrier) (r : Registry) :
    Result PublicationResult → Registry → Prop where
  | refused (e : Error) {r' : Registry} (abides : Abides r r') :
      Publishes kind value r (.error e) r'
  | held {incumbent : kind.Carrier} {r' : Registry} (abides : Abides r r')
      (latest : r.latest kind (kind.entityId value) = some incumbent)
      (generation : kind.generation incumbent = kind.generation value)
      (digest : kind.digest incumbent = kind.contentDigest value) :
      Publishes kind value r (.ok ⟨kind.generation value, 0, kind.contentDigest value⟩) r'
  | added {attempt : AttemptId} {provenance : Provenance} {r' : Registry}
      (valid : kind.validate value = .ok ())
      (next : ∀ last ∈ r.latest kind (kind.entityId value), GenerationTable.Follows last value)
      (epoch : r'.currentEpoch = r.currentEpoch)
      (newest : r'.latest kind (kind.entityId value) = some (kind.withProvenance provenance
        (kind.asserted r.currentEpoch (kind.contentDigest value) .none value)))
      (others : ∀ other id, other ≠ kind ∨ id ≠ kind.entityId value →
        r'.latest other id = r.latest other id) :
      Publishes kind value r
        (.ok ⟨kind.generation value, attempt, kind.contentDigest value⟩) r'

theorem admission_held {value : kind.Carrier} {digest : Digest256} {latest : Generation}
    (admitted : admission kind (r.tables kind) value digest = .held latest) :
    ∃ incumbent, r.latest kind (kind.entityId value) = some incumbent ∧
      kind.generation incumbent = latest ∧ kind.generation value = latest ∧
        kind.digest incumbent = digest := by
  unfold admission at admitted
  rw [getLast?_held] at admitted
  split at admitted
  · split at admitted
    · cases admitted
    · split at admitted <;> cases admitted
  next incumbent last =>
    dsimp only at admitted
    split at admitted
    · cases admitted
    · split at admitted
      next same =>
        split at admitted
        next addressed =>
          obtain rfl := Admission.held.inj admitted
          exact ⟨incumbent, last, rfl, same, addressed⟩
        · cases admitted
      · split at admitted <;> cases admitted

theorem Faithful.journalled_aside (faithful : Faithful r D) {m : Mutation}
    {result : Result AttemptId} (journalling : Journalling m r D result r' D')
    (applied : ∀ attempt r, Abides r (m.apply attempt r))
    (undone : ∀ attempt r store, Abides r (m.rollback r ((m.apply attempt r).withStore store))) :
    Abides r r' := by
  cases journalling with
  | refused e ready => exact (faithful.readied ready).2
  | undone e attempt store ready =>
      exact (faithful.readied ready).2.trans (undone attempt _ store)
  | done attempt sequence store ready =>
      exact (faithful.readied ready).2.trans
        ((applied attempt _).trans (.of_tables rfl rfl))

theorem Publishing.publishes {value : kind.Carrier} {result : Result PublicationResult}
    (publishing : Publishing kind value r D result r' D') (faithful : Faithful r D) :
    Publishes kind value r result r' := by
  cases publishing with
  | refused e ready => exact .refused e (faithful.readied ready).2
  | held valid room admitted =>
      obtain ⟨-, abides⟩ := faithful.readied room.readied
      obtain ⟨incumbent, last, generation, same, digest⟩ := admission_held admitted
      rw [abides.latest] at last
      rw [← same] at generation ⊢
      exact .held abides last generation digest
  | equivocated valid room admitted recorded journalled =>
      rename_i incumbent payload result r₁ D₁
      obtain ⟨middle, abides⟩ := faithful.readied room.readied
      have after := middle.journalled_aside journalled (fun _ _ => .of_tables rfl rfl)
        fun _ _ _ => .of_tables rfl rfl
      have refused : Publishes kind value r (.error equivocationError) _ :=
        .refused equivocationError (abides.trans after)
      cases result with
      | error e => exact .refused e (abides.trans after)
      | ok attempt => exact refused
  | accepted valid positive room admitted recorded journalled =>
      rename_i payload result r₁ D₁
      obtain ⟨middle, abides⟩ := faithful.readied room.readied
      have wellFormed := kind.admitted_asserted r₁.currentEpoch valid
      have admits := admits_of_accepted admitted wellFormed (entityId_asserted ..)
        (kind.generation_asserted ..)
      cases journalled with
      | refused e ready =>
          exact .refused e (abides.trans (middle.readied ready).2)
      | undone e attempt store ready =>
          obtain ⟨before, same⟩ := middle.readied ready
          have alike := alike_unpublished before.sane.orderly
            (kind.asserted r₁.currentEpoch (kind.contentDigest value) .none value) payload attempt store
          exact .refused e (abides.trans (same.trans ⟨latest_alike alike, alike.currentEpoch⟩))
      | done attempt sequence store ready =>
          rename_i r₂ D₂
          have start := abides.trans (middle.readied ready).2
          have next := admits.next
          rw [entityId_asserted] at next
          rw [abides.currentEpoch] at next ⊢
          have id : kind.entityId (kind.withProvenance
              (.make (text "registry") r₂.currentEpoch
                (kind.generation (kind.asserted r.currentEpoch (kind.contentDigest value) .none value))
                attempt)
              (kind.asserted r.currentEpoch (kind.contentDigest value) .none value)) =
                kind.entityId value := by rw [entityId_withProvenance, entityId_asserted]
          apply Publishes.added valid
          · intro last mem
            rw [← abides.latest] at mem
            have follows := next last mem
            unfold GenerationTable.Follows at follows ⊢
            rw [kind.generation_asserted] at follows
            exact follows
          · exact start.currentEpoch
          · rw [← id]
            exact latest_push _
          · intro other key ne
            rw [← start.latest]
            rw [← id] at ne
            exact latest_push_ne ne

theorem Abides.tick (r : Registry) (clock : UInt64) : Abides r (r.tick clock) := by
  unfold Registry.tick
  split
  · exact .refl r
  · exact .of_tables rfl rfl

theorem Faithful.ticked (faithful : Faithful r D) (clock : UInt64) : Faithful (r.tick clock) D :=
  invariant_faithful.tick faithful

theorem Effect.publishes {call : Call} {answer : Answer} {value : kind.Carrier}
    (effect : Effect clock r D call answer r' D') (faithful : Faithful r D)
    (asserts : r.asserts call = some ⟨kind, value⟩) :
    ∃ result, answer = .published result ∧ Publishes kind value r result r' := by
  cases effect with
  | publishClass publishing =>
      cases asserts
      exact ⟨_, rfl, publishing.publishes faithful⟩
  | publishPolicy publishing =>
      cases asserts
      exact ⟨_, rfl, publishing.publishes faithful⟩
  | publishPath publishing =>
      cases asserts
      exact ⟨_, rfl, publishing.publishes faithful⟩
  | refusedCapability e =>
      cases asserts
      exact ⟨_, rfl, .refused e (.refl r)⟩
  | publishCapability _ publishing =>
      cases asserts
      exact ⟨_, rfl, publishing.publishes faithful⟩
  | refusedReservation e =>
      cases asserts
      exact ⟨_, rfl, .refused e (.refl r)⟩
  | publishReservation _ publishing =>
      cases asserts
      exact ⟨_, rfl, publishing.publishes faithful⟩
  | _ => cases asserts

theorem Effect.latest {call : Call} {answer : Answer} (effect : Effect clock r D call answer r' D')
    (faithful : Faithful r D) (silent : r.asserts call = none) (kind : EntityKind) (id : Text) :
    r'.latest kind id = r.latest kind id := by
  have ticked := Abides.tick r clock
  have journalled {m : Mutation} {result : Result AttemptId} {r' : Registry} {D' : Durable}
      (journalling : Journalling m (r.tick clock) D result r' D')
      (applied : ∀ attempt r, Abides r (m.apply attempt r))
      (undone : ∀ attempt r store, Abides r (m.rollback r ((m.apply attempt r).withStore store))) :
      Abides r r' :=
    ticked.trans ((faithful.ticked clock).journalled_aside journalling applied undone)
  cases effect with
  | publishClass => cases silent
  | publishPolicy => cases silent
  | publishPath => cases silent
  | refusedCapability => rfl
  | publishCapability => cases silent
  | refusedReservation => rfl
  | publishReservation => cases silent
  | refusedPublisher => exact ticked.latest kind id
  | registerPublisher _ _ journalling =>
      exact (journalled journalling (fun _ _ => .of_tables rfl rfl)
        fun _ _ _ => .of_tables rfl rfl).latest kind id
  | refusedRevocation => exact ticked.latest kind id
  | revokePublisher _ journalling =>
      exact (journalled journalling (fun _ _ => .of_tables rfl rfl)
        fun _ _ _ => .of_tables rfl rfl).latest kind id
  | expireLeases => exact ticked.latest kind id
  | advanceEpoch advancing =>
      cases advancing with
      | refused => rfl
      | done => rfl
  | evaluate decided recording =>
      cases recording with
      | refused e => exact ticked.latest kind id
      | failed _ journalling =>
          exact (journalled journalling (fun _ _ => .of_tables rfl rfl)
            fun _ _ _ => .of_tables rfl rfl).latest kind id
      | done _ journalling =>
          exact (journalled journalling (fun _ _ => .of_tables rfl rfl)
            fun _ _ _ => .of_tables rfl rfl).latest kind id
  | undecided => exact ticked.latest kind id
  | compacted compacted =>
      cases compacted with
      | done => exact latest_prune faithful.sane.orderly kind id
  | uncompacted => exact latest_prune faithful.sane.orderly kind id
  | setNowMillis => rfl

theorem Recalls.newest {x : Registry} (recalls : Recalls r x) {id : Text} {value : kind.Carrier}
    (held : x.latest kind id = some value) :
    ∃ original, r.latest kind id = some original ∧ kind.lasting original = kind.lasting value := by
  have same := recalls.latest kind id
  unfold Registry.latest at held ⊢
  rw [held, Option.map_some] at same
  exact Option.map_eq_some_iff.mp same.symm

end QoSFabric
