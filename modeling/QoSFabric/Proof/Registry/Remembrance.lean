import QoSFabric.Proof.Registry.Supersession
import QoSFabric.Proof.Registry.Windows

/-!
# Equivocations that are remembered

The newest 256 markers are kept, across compactions, crashes and recoveries. Only a publication that
is refused or cut off can add one, so that an equivocation is disputed for as long as fewer than that
many have followed it.
-/

namespace QoSFabric

open FileSystem Registry Proof.Engine

variable {openings : Openings} {r r' : Registry} {D D' : Durable} {clock : UInt64} {kind : EntityKind}
  {identifier : Text} {marker : ConflictMarker} {n : Nat} {events : List Event}

def Remembers (marker : ConflictMarker) (n : Nat) (markers : List ConflictMarker) : Prop :=
  ∃ newer, marker :: newer <:+ markers ∧ newer.length ≤ n

theorem Remembers.mem {markers : List ConflictMarker} (remembers : Remembers marker n markers) :
    marker ∈ markers := by
  obtain ⟨newer, suffix, -⟩ := remembers
  exact suffix.subset List.mem_cons_self

theorem Remembers.mono {m : Nat} {markers markers' : List ConflictMarker}
    (remembers : Remembers marker n markers) (le : n ≤ m) (suffix : markers <:+ markers') :
    Remembers marker m markers' := by
  obtain ⟨newer, held, few⟩ := remembers
  exact ⟨newer, held.trans suffix, Nat.le_trans few le⟩

theorem Remembers.tail {markers : List ConflictMarker} (remembers : Remembers marker n markers)
    (many : n + 1 < markers.length) : Remembers marker n markers.tail := by
  obtain ⟨newer, ⟨older, whole⟩, few⟩ := remembers
  refine ⟨newer, ?_, few⟩
  cases older with
  | nil =>
      rw [List.nil_append] at whole
      rw [← whole, List.length_cons] at many
      omega
  | cons oldest older =>
      rw [← whole]
      exact ⟨older, rfl⟩

theorem Remembers.hold (remembers : Remembers marker n r.conflicts) (few : n < 255)
    (new : ConflictMarker) : Remembers marker (n + 1) (r.holdConflict new).conflicts := by
  have added : Remembers marker (n + 1) (r.conflicts ++ [new]) := by
    obtain ⟨newer, ⟨older, whole⟩, few⟩ := remembers
    refine ⟨newer ++ [new], ⟨older, ?_⟩, ?_⟩
    · rw [← whole, List.append_assoc]
      rfl
    · rw [List.length_append, List.length_singleton]
      omega
  show Remembers marker (n + 1) (if (r.conflicts ++ [new]).length > maxStoredConflicts then
    (r.conflicts ++ [new]).tail else r.conflicts ++ [new])
  split
  next full =>
    apply added.tail
    have bound : maxStoredConflicts = 256 := rfl
    omega
  next => exact added

theorem Remembers.unhold (remembers : Remembers marker n r.conflicts) (few : n < 255)
    (new : ConflictMarker) : Remembers marker n (r.holdConflict new).conflicts.dropLast := by
  show Remembers marker n (if (r.conflicts ++ [new]).length > maxStoredConflicts then
    (r.conflicts ++ [new]).tail else r.conflicts ++ [new]).dropLast
  split
  next full =>
    rw [← List.tail_dropLast, List.dropLast_concat]
    apply remembers.tail
    have bound : maxStoredConflicts = 256 := rfl
    rw [List.length_append, List.length_singleton] at full
    omega
  next =>
    rw [List.dropLast_concat]
    exact remembers

def Answer.refusals : Answer → Nat
  | published (.error _) => 1
  | _ => 0

theorem compactable_conflicts (markers : List ConflictMarker) :
    Compactable fun x E => Faithful x E ∧ x.conflicts = markers where
  store store h := ⟨compactable_faithful.store store h.1, h.2⟩
  pruned h := ⟨h.1.prune, h.1.sane.recorded.conflicts_prune.trans h.2⟩
  compacted h encoded :=
    ⟨h.1.sane.prune.saved encoded, h.1.sane.recorded.conflicts_prune.trans h.2⟩

theorem Faithful.readied_conflicts (faithful : Faithful r D) (ready : Readied r D r' D') :
    Faithful r' D' ∧ r'.conflicts = r.conflicts :=
  (compactable_conflicts r.conflicts).readied ready ⟨faithful, rfl⟩

theorem Faithful.journalled_conflicts (faithful : Faithful r D) {m : Mutation}
    {result : Result AttemptId} (journalling : Journalling m r D result r' D')
    (applied : ∀ attempt r, (m.apply attempt r).conflicts = r.conflicts)
    (undone : ∀ before r, (m.rollback before r).conflicts = r.conflicts) :
    r'.conflicts = r.conflicts := by
  cases journalling with
  | refused e ready => exact (faithful.readied_conflicts ready).2
  | undone e attempt store ready =>
      exact (undone _ _).trans ((applied attempt _).trans (faithful.readied_conflicts ready).2)
  | done attempt sequence store ready =>
      exact (applied attempt _).trans (faithful.readied_conflicts ready).2

theorem Publishing.remembers {value : kind.Carrier} {result : Result PublicationResult}
    (publishing : Publishing kind value r D result r' D') (faithful : Faithful r D)
    (remembers : Remembers marker n r.conflicts)
    (few : n + (Answer.published result).refusals ≤ 255) :
    Remembers marker (n + (Answer.published result).refusals) r'.conflicts := by
  have kept (same : r'.conflicts = r.conflicts) :
      Remembers marker (n + (Answer.published result).refusals) r'.conflicts :=
    remembers.mono (Nat.le_add_right n _) (same ▸ List.suffix_rfl)
  cases publishing with
  | refused e ready => exact kept (faithful.readied_conflicts ready).2
  | held _ room _ => exact kept (faithful.readied_conflicts room.readied).2
  | equivocated valid room admitted recorded journalled =>
      rename_i incumbent payload result r₁ D₁
      obtain ⟨middle, same⟩ := faithful.readied_conflicts room.readied
      have one : (Answer.published (result.bind fun _ => .error equivocationError)).refusals = 1 := by
        cases result <;> rfl
      rw [one] at few ⊢
      cases journalled with
      | refused e ready =>
          have later := (middle.readied_conflicts ready).2.trans same
          exact remembers.mono (Nat.le_succ n) (later ▸ List.suffix_rfl)
      | undone e attempt store ready =>
          rename_i r₂
          have later := (middle.readied_conflicts ready).2.trans same
          have held : Remembers marker n r₂.conflicts := later ▸ remembers
          exact (held.unhold few _).mono (Nat.le_succ n) List.suffix_rfl
      | done attempt sequence store ready =>
          rename_i r₂ D₂
          have later := (middle.readied_conflicts ready).2.trans same
          have held : Remembers marker n r₂.conflicts := later ▸ remembers
          exact held.hold few _
  | accepted _ _ room _ _ journalled =>
      obtain ⟨middle, same⟩ := faithful.readied_conflicts room.readied
      have later := middle.journalled_conflicts journalled (fun _ r => rfl) fun _ _ => rfl
      exact kept (later.trans same)

theorem Effect.remembers {call : Call} {answer : Answer}
    (effect : Effect clock r D call answer r' D') (faithful : Faithful r D)
    (remembers : Remembers marker n r.conflicts) (few : n + answer.refusals ≤ 255) :
    Remembers marker (n + answer.refusals) r'.conflicts := by
  have kept (same : r'.conflicts = r.conflicts) :
      Remembers marker (n + answer.refusals) r'.conflicts :=
    remembers.mono (Nat.le_add_right n _) (same ▸ List.suffix_rfl)
  have ticked := (r.tick_members clock).2
  have pruned (store : Store) : (r.prune.withStore store).conflicts = r.conflicts := by
    have same := faithful.sane.recorded.conflicts_prune
    generalize r.prune = x at same
    exact same
  have aside {m : Mutation} {result : Result AttemptId} {r' : Registry} {D' : Durable}
      (journalling : Journalling m (r.tick clock) D result r' D')
      (applied : ∀ attempt r, (m.apply attempt r).conflicts = r.conflicts)
      (undone : ∀ before r, (m.rollback before r).conflicts = r.conflicts) :
      r'.conflicts = r.conflicts :=
    ((faithful.ticked clock).journalled_conflicts journalling applied undone).trans ticked
  cases effect with
  | publishClass publishing => exact publishing.remembers faithful remembers few
  | publishPolicy publishing => exact publishing.remembers faithful remembers few
  | publishPath publishing => exact publishing.remembers faithful remembers few
  | refusedCapability => exact kept rfl
  | publishCapability _ publishing => exact publishing.remembers faithful remembers few
  | refusedReservation => exact kept rfl
  | publishReservation _ publishing => exact publishing.remembers faithful remembers few
  | refusedPublisher => exact kept ticked
  | registerPublisher _ _ journalled => exact kept (aside journalled (fun _ _ => rfl) fun _ _ => rfl)
  | refusedRevocation => exact kept ticked
  | revokePublisher _ journalled => exact kept (aside journalled (fun _ _ => rfl) fun _ _ => rfl)
  | expireLeases => exact kept ticked
  | advanceEpoch advancing =>
      cases advancing with
      | refused => exact kept rfl
      | done => exact kept rfl
  | evaluate decided recording =>
      cases recording with
      | refused e => exact kept ticked
      | failed _ journalled => exact kept (aside journalled (fun _ _ => rfl) fun _ _ => rfl)
      | done _ journalled =>
          have same := aside journalled (fun _ _ => rfl) fun _ _ => rfl
          exact kept same
  | undecided => exact kept ticked
  | compacted compacted =>
      cases compacted with
      | done => exact kept (pruned _)
  | uncompacted => exact kept (pruned _)
  | setNowMillis => exact kept rfl

theorem Onward.carries {K : List Event → Registry → Prop} {before after : List Event} {site : Site}
    {d : Disk FileName} (run : Run .reading before (.up r d)) (start : K [] r)
    (onward : Onward .reading (.up r d) after site)
    (carrying : ∀ events event members, Carrying members event (K events) (K (events ++ [event]))) :
    ∃ D, site.Refines D ∧ Standing Faithful Durable.Sane site.members D ∧
      Carries (K after) site.members D := by
  induction onward with
  | here =>
      obtain ⟨D, refines, standing⟩ := RunWhere.faithful run
      exact ⟨D, refines, standing, start⟩
  | next _ step ih =>
      obtain ⟨D, refines, standing, carries⟩ := ih
      obtain ⟨D₀, D', sees, turned, refines'⟩ := step.turn refines
      obtain rfl := sees.eq
      exact ⟨D', refines', turned.standing standing, turned.carries standing (carrying _ _ _) carries⟩

/-- A publication that is refused or cut off. -/
def Event.Disputes : Event → Bool
  | .called _ _ (.published (.error _)) => true
  | .crashed _ (some call) => call.subject.isSome
  | _ => false

theorem Effect.unrefused {call : Call} {answer : Answer}
    (effect : Effect clock r D call answer r' D') (silent : call.subject = none) :
    answer.refusals = 0 := by
  cases effect with
  | publishClass | publishPolicy | publishPath | refusedCapability | publishCapability
  | refusedReservation | publishReservation => cases silent
  | _ => rfl

theorem Answer.refusals_le (answer : Answer) : answer.refusals ≤ 1 := by
  unfold refusals
  split <;> decide

theorem refusals_eq (clock : UInt64) (call : Call) (answer : Answer) :
    answer.refusals = ([Event.called clock call answer]).countP Event.Disputes := by
  cases answer with
  | published result => cases result <;> rfl
  | _ => rfl

def Recollects (marker : ConflictMarker) (n : Nat) (events : List Event) (r : Registry) : Prop :=
  n + events.countP Event.Disputes < maxStoredConflicts →
    Remembers marker (n + events.countP Event.Disputes) r.conflicts

theorem Recollects.kept {event : Event} (recollects : Recollects marker n events r)
    (suffix : r.conflicts <:+ r'.conflicts) : Recollects marker n (events ++ [event]) r' := by
  intro few
  rw [List.countP_append] at few ⊢
  exact (recollects (by omega)).mono (by omega) suffix

theorem carrying_recollects (marker : ConflictMarker) (n : Nat) (events : List Event) (event : Event)
    (members : Option Registry) : Carrying members event (Recollects marker n events)
      (Recollects marker n (events ++ [event])) where
  idle _ r recollects := recollects.kept List.suffix_rfl
  claimed {r r' D D'} _ _ advancing recollects := by
    apply recollects.kept
    generalize r'.currentEpoch = next at advancing
    cases advancing with
    | done => exact List.suffix_rfl
  effect {clock r D call answer r' D'} _ belongs faithful effect recollects few := by
    rw [List.countP_append] at few ⊢
    have bound : maxStoredConflicts = 256 := rfl
    have before := recollects (by omega)
    rcases belongs with rfl | rfl
    · have refusals := refusals_eq clock call answer
      rw [← refusals] at few ⊢
      rw [← Nat.add_assoc]
      exact effect.remembers faithful before (by omega)
    · cases subject : call.subject with
      | none =>
          have none := effect.unrefused subject
          exact (effect.remembers faithful before (by omega)).mono (by omega) List.suffix_rfl
      | some published =>
          have one := answer.refusals_le
          have counted : [Event.crashed clock (some call)].countP Event.Disputes = 1 := by
            simp [Event.Disputes, subject]
          rw [counted] at few ⊢
          exact (effect.remembers faithful before (by omega)).mono (by omega) List.suffix_rfl
  recovered _ _ _ recalls recollects few :=
    (recollects few).mono (Nat.le_refl _) recalls.conflicts

theorem evaluate_marked {inputs : EvaluationInputs} {decision : ContractDecision}
    (evaluated : evaluate inputs = .ok decision) (held : marker ∈ inputs.conflicts)
    (concerns : Accepted inputs → Concerns inputs marker) :
    decision.outcome = .conflict ∨ decision.outcome = .rejected := by
  by_cases admissible : Admissible inputs
  · refine .inl ((evaluate_conflict evaluated).mpr ⟨admissible, ?_⟩)
    rintro ⟨clear, -⟩
    exact clear.unmarked marker held (concerns admissible.accepted)
  · refine .inr ?_
    unfold evaluate at evaluated
    split at evaluated
    · cases evaluated
      exact rejection_outcome ..
    · cases evaluated
      rw [sealed_outcome]
      have above : ¬(findings inputs).outcome ≤ .conflict := findings_le_conflict.not.mpr admissible
      dsimp only
      cases outcome : (findings inputs).outcome with
      | rejected => rfl
      | _ =>
          rw [outcome] at above
          exact absurd (by decide) above

/-- An equivocation that is held keeps everything that resolves its identifier in conflict, across
compactions, crashes and recoveries, until 256 others may have followed it. -/
theorem equivocation_remembered {before after : List Event} {d d' : Disk FileName} {site : Site}
    {older newer : List ConflictMarker} {generation : Generation} {request : ContractRequest}
    {decision : ContractDecision} (run : Run .reading before (.up r d))
    (held : r.conflicts = older ++ marker :: newer) (against : marker.Against kind identifier)
    (onward : Onward .reading (.up r d) after (.up r' d'))
    (few : newer.length + after.countP Event.Disputes < maxStoredConflicts)
    (resolves : r'.Resolves request kind identifier generation)
    (step : Step .reading (.up r' d') (.called clock (.evaluate request) (.decided (.ok decision)))
      site) : decision.outcome = .conflict ∨ decision.outcome = .rejected := by
  have start : Recollects marker newer.length [] r := fun _ =>
    ⟨newer, ⟨older, held.symm⟩, Nat.le_refl _⟩
  obtain ⟨D, refines, -, recollects⟩ :=
    onward.carries run start (carrying_recollects marker newer.length)
  have mem : marker ∈ (r'.tick clock).conflicts := by
    rw [(r'.tick_members clock).2]
    exact (recollects few).mem
  obtain ⟨_, _, D', -, effect, -⟩ := step.effect refines
  have resolves := resolves.congr (r'.tick_members clock).1
  cases Registry.decides effect.decided with
  | rejected reason => exact .inr rfl
  | evaluated valid policyFor pathFor classFor evaluated =>
      have assembles : (r'.tick clock).Assembles request _ :=
        ⟨_, _, _, valid, policyFor, pathFor, classFor, rfl⟩
      exact evaluate_marked evaluated mem fun accepted =>
        (resolves.names assembles).concerns accepted against

def remembering : List Action :=
  [.call 0 .compact, .crash, .open .default 0 (List.replicate 16 8)]

def remembersGold : Bool :=
  match (Site.down Disk.empty).rehearse superseding with
  | some (_, .up r d) =>
      r.conflicts.length == 1 &&
        r.conflicts.all (fun marker => decide (marker.Against .class (text "gold"))) &&
        match (Site.up r d).rehearse remembering with
        | some (after, .up r' _) =>
            after.countP Event.Disputes == 0 && (r'.findLatest .class (text "gold")).isOk &&
              decide (r'.store.Spacious 400120) &&
              ((r'.tick 0).decide plainRequest).toOption.any fun decision => decide decision.Short
        | _ => false
  | _ => false

set_option maxRecDepth 10000 in
theorem equivocation_remembered_gold : ∃ before after r d r' d' decision site,
    Run .reading before (.up r d) ∧ after.length = 3 ∧
    Onward .reading (.up r d) after (.up r' d') ∧
    Step .reading (.up r' d')
      (.called 0 (.evaluate plainRequest) (.decided (.ok decision))) site ∧
    (decision.outcome = .conflict ∨ decision.outcome = .rejected) := by
  have remembers : remembersGold = true := by decide +kernel
  unfold remembersGold at remembers
  split at remembers
  case h_2 => cases remembers
  next before r d rehearsed =>
    rw [Bool.and_eq_true, Bool.and_eq_true, beq_iff_eq, List.all_eq_true] at remembers
    obtain ⟨⟨single, against⟩, remembers⟩ := remembers
    obtain ⟨marker, held⟩ := List.length_eq_one_iff.mp single
    have against : marker.Against .class (text "gold") :=
      of_decide_eq_true (against marker (held ▸ List.mem_cons_self))
    have held : r.conflicts = [] ++ marker :: [] := held
    split at remembers
    case h_2 => cases remembers
    next after r' d' continued =>
      simp only [Bool.and_eq_true, beq_iff_eq, decide_eq_true_eq] at remembers
      obtain ⟨⟨⟨quiet, latest⟩, spacious⟩, decided⟩ := remembers
      obtain ⟨run, onward⟩ := readings_of_rehearse rfl rehearsed continued
      cases decides : (r'.tick 0).decide plainRequest with
      | error e =>
          rw [decides] at decided
          cases decided
      | ok decision =>
          rw [decides] at decided
          have short : decision.Short := of_decide_eq_true decided
          obtain ⟨between, store, d'', ends, -⟩ :=
            ((onward.run run).affords (120 + 400000 + 0) spacious).evaluate decides
              (within_decision short) (by decide)
          have resolves : ∃ generation,
              r'.Resolves plainRequest .class (text "gold") generation := by
            cases found : r'.findLatest .class (text "gold") with
            | error e =>
                rw [found] at latest
                cases latest
            | ok klass => exact ⟨_, .class found⟩
          obtain ⟨generation, resolves⟩ := resolves
          have few : List.length ([] : List ConflictMarker) + after.countP Event.Disputes <
              maxStoredConflicts := by
            rw [quiet]
            decide
          have step : Step .reading (.up r' d')
              (.called 0 (.evaluate plainRequest) (.decided (.ok decision))) _ := .called ends
          exact ⟨before, after, r, d, r', d', decision, _, run, length_of_rehearse continued, onward,
            step, equivocation_remembered run held against onward few resolves step⟩

end QoSFabric
