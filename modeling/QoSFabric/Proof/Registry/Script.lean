import QoSFabric.Model.Interpreter
import QoSFabric.Foundation.Stream
import QoSFabric.Proof.Registry.Agreement

/-!
# What a scenario publishes

A scenario is a part of a run of the registry. What it publishes is what its statements say, in their
order and up to the one at which it stopped, whatever the registry held before.
-/

namespace QoSFabric

open Interaction FileSystem Registry

variable {openings : Openings} {events : List Event} {clock : UInt64} {r r' : Registry}
  {d d' : Disk FileName} {kind : EntityKind} {id : Text}

def Call.content (kind : EntityKind) (id : Text) (call : Call) : Option (Generation × Digest256) :=
  call.definition.bind fun ⟨published, value⟩ =>
    if (published, published.entityId value) = (kind, id) then
      some (published.generation value, published.contentDigest value)
    else none

theorem subject_of_definition {call : Call} {value : kind.Carrier}
    (published : call.definition = some ⟨kind, value⟩) :
    call.subject = some (kind, kind.entityId value) := by
  cases call <;> cases published <;> rfl

theorem subject_of_undefined {call : Call} (silent : call.definition = none) :
    call.subject = none := by
  cases call <;> first | rfl | cases silent

theorem Effect.answers {D D' : Durable} {call : Call} {answer : Answer} {value : kind.Carrier}
    (effect : Effect clock r D call answer r' D')
    (published : call.definition = some ⟨kind, value⟩) :
    ∃ result, answer = .published result := by
  cases effect with
  | publishClass | publishPolicy | publishPath | refusedCapability | publishCapability
  | refusedReservation | publishReservation => exact ⟨_, rfl⟩
  | _ => cases published

def Call.settles (kind : EntityKind) (id : Text) (call : Call) :
    Result Unit → Option (Generation × Digest256)
  | .ok () => call.content kind id
  | .error _ => none

theorem Run.settled {call : Call} {answer : Answer} (run : Run openings events (.up r d))
    (called : (r.call clock call).Ends Disk.world d (answer, r') d') (kind : EntityKind) (id : Text) :
    (Event.called clock call answer).settled kind id = call.settles kind id answer.outcome := by
  obtain ⟨D, refines, faithful⟩ := RunWhere.faithful run
  have step : Step openings (.up r d) (.called clock call answer) (.up r' d') := .called called
  obtain ⟨_, D', sees, turn, -⟩ := step.turn refines
  cases sees
  have truthful := turn.truthful faithful
  obtain ⟨r'', -, effect⟩ := turn.effect
  cases definition : call.definition with
  | none =>
      have content : call.content kind id = none := by
        unfold Call.content
        rw [definition]
        rfl
      have silent : (Event.called clock call answer).settled kind id = none := by
        unfold Event.settled
        split
        next called =>
          cases called
          rw [subject_of_undefined definition]
          rfl
        · rfl
      rw [silent]
      unfold Call.settles
      split
      · exact content.symm
      · rfl
  | some published =>
      obtain ⟨other, value⟩ := published
      obtain ⟨result, rfl⟩ := effect.answers definition
      cases result with
      | error e => rfl
      | ok done =>
          obtain ⟨generation, digest⟩ := truthful other value definition
          unfold Event.settled Call.settles Call.content
          dsimp only [Answer.outcome, Except.map]
          rw [subject_of_definition definition, definition, generation, digest]
          simp only [Option.bind_some, Option.some.injEq]

def Call.timeAfter (nowMs : UInt64) : Call → UInt64
  | .setNowMillis value => value
  | _ => nowMs

def Call.withBoot (boot : BootId) : Call → Call
  | .registerPublisher publisher incarnation _ ttlMs origin =>
      .registerPublisher publisher incarnation boot ttlMs origin
  | call => call

/-- What a statement depends on the scenario for: the time. The identity of a publisher and the epoch
have no part in what is published. -/
def Statement.intent (nowMs : UInt64) (tokens : List Text) : Result Call :=
  (Statement.ofTokens tokens).call ⟨List.replicate 16 0, rfl⟩ 0 nowMs (tokens.headD [])

def contents (kind : EntityKind) (id : Text) : UInt64 → List (List Text) →
    Option (List (Generation × Digest256))
  | _, [] => some []
  | nowMs, tokens :: rest =>
      match Statement.intent nowMs tokens with
      | .error _ => none
      | .ok call =>
          (contents kind id (call.timeAfter nowMs) rest).map ((call.content kind id).toList ++ ·)

namespace Statement

variable {s : Statement} {nowMs : UInt64}

theorem publisher_boot (s : Statement) (boot boot' : BootId) :
    s.publisher boot = Call.withBoot boot <$> s.publisher boot' := by
  simp only [publisher, map_bind, map_pure, Call.withBoot]

theorem capability_epoch (s : Statement) (epoch epoch' : FabricEpoch) (nowMs : UInt64) :
    s.capability epoch nowMs =
      (fun value => { value with epoch := s.rawU64 "epoch" epoch }) <$>
        s.capability epoch' nowMs := by
  simp only [capability, map_bind, map_pure]

theorem reservation_epoch (s : Statement) (epoch epoch' : FabricEpoch) (nowMs : UInt64) :
    s.reservation epoch nowMs =
      (fun value => { value with epoch := s.rawU64 "epoch" epoch }) <$>
        s.reservation epoch' nowMs := by
  simp only [reservation, map_bind, map_pure]

structure Akin (first second : Call) : Prop where
  content : ∀ kind id, first.content kind id = second.content kind id
  time : ∀ nowMs, first.timeAfter nowMs = second.timeAfter nowMs

theorem Akin.refl (call : Call) : Akin call call := ⟨fun _ _ => rfl, fun _ => rfl⟩

def Echoes (first second : Result Call) : Prop :=
  ∀ call, first = .ok call → ∃ call', second = .ok call' ∧ Akin call call'

theorem Echoes.refl (result : Result Call) : Echoes result result :=
  fun call ok => ⟨call, ok, .refl call⟩

theorem Echoes.ite {condition : Prop} [Decidable condition] {first first' second second' : Result Call}
    (yes : Echoes first second) (no : Echoes first' second') :
    Echoes (if condition then first else first') (if condition then second else second') := by
  split
  · exact yes
  · exact no

theorem Echoes.map {α : Type} (result : Result α) {f g : α → Call} (akin : ∀ a, Akin (f a) (g a)) :
    Echoes (f <$> result) (g <$> result) := by
  intro call ok
  cases result with
  | error e => cases ok
  | ok a =>
      obtain rfl := Except.ok.inj ok
      exact ⟨g a, rfl, akin a⟩

theorem call_echoes (s : Statement) (boot boot' : BootId) (epoch epoch' : FabricEpoch)
    (nowMs : UInt64) (verb : Text) :
    Echoes (s.call boot epoch nowMs verb) (s.call boot' epoch' nowMs verb) := by
  have publisher : Echoes (s.publisher boot) (s.publisher boot') := by
    have renamed := Echoes.map (s.publisher boot') (f := Call.withBoot boot) (g := id) fun call => by
      cases call <;> exact ⟨fun _ _ => rfl, fun _ => rfl⟩
    rwa [id_map, ← publisher_boot] at renamed
  have capability : Echoes (.publishCapability <$> s.capability epoch nowMs)
      (.publishCapability <$> s.capability epoch' nowMs) := by
    rw [capability_epoch s epoch epoch', ← comp_map]
    exact .map _ fun value => ⟨fun _ _ => rfl, fun _ => rfl⟩
  have reservation : Echoes (.publishReservation <$> s.reservation epoch nowMs)
      (.publishReservation <$> s.reservation epoch' nowMs) := by
    rw [reservation_epoch s epoch epoch', ← comp_map]
    exact .map _ fun value => ⟨fun _ _ => rfl, fun _ => rfl⟩
  unfold Statement.call
  exact .ite (.refl _) <| .ite (.refl _) <| .ite (.refl _) <| .ite publisher <| .ite (.refl _) <|
    .ite (.refl _) <| .ite (.refl _) <| .ite capability <| .ite reservation <| .ite (.refl _) (.refl _)

end Statement

theorem settlements_append (kind : EntityKind) (id : Text) (first second : List Event) :
    settlements kind id (first ++ second) = settlements kind id first ++ settlements kind id second :=
  List.filterMap_append

theorem settlements_singleton (kind : EntityKind) (id : Text) (event : Event) :
    settlements kind id [event] = (event.settled kind id).toList :=
  settlements_concat kind id [] event

theorem Run.cut (run : Run openings events (.up r d)) (clock : UInt64) :
    Run openings (events ++ [.crashed clock none]) (.down d) :=
  run.next (.cutClosing .here) trivial

def Enacts (openings : Openings) (events : List Event) (nowMs : UInt64) (statements : List (List Text))
    (site : Site) : Prop :=
  ∃ more, Run openings (events ++ more) site ∧
    ∀ kind id, contents kind id nowMs statements = some (settlements kind id more)

theorem Enacts.silent {nowMs : UInt64} {site : Site} {more : List Event}
    (run : Run openings (events ++ more) site) (silent : ∀ kind id, settlements kind id more = []) :
    Enacts openings events nowMs [] site := by
  refine ⟨more, run, fun kind id => ?_⟩
  rw [silent]
  rfl

/-- A registry that was cut off when the first of some statements had been enacted. -/
def Stops (openings : Openings) (events : List Event) (nowMs : UInt64) (statements : List (List Text))
    (d : Disk FileName) : Prop :=
  ∃ done, done <+: statements ∧ Enacts openings events nowMs done (.down d)

theorem Stops.silent {nowMs : UInt64} {more : List Event} (run : Run openings (events ++ more) (.down d))
    (silent : ∀ kind id, settlements kind id more = []) (statements : List (List Text)) :
    Stops openings events nowMs statements d :=
  ⟨[], List.nil_prefix, .silent run silent⟩

theorem Enacts.stops {nowMs : UInt64} {done : List (List Text)}
    (enacts : Enacts openings events nowMs done (.up r d)) (rest : List (List Text)) :
    Stops openings events nowMs (done ++ rest) d := by
  obtain ⟨more, run, settles⟩ := enacts
  refine ⟨done, List.prefix_append _ _, more ++ [.crashed 0 none], ?_, fun kind id => ?_⟩
  · rw [← List.append_assoc]
    exact run.cut 0
  · rw [settles, settlements_append, settlements_singleton]
    exact congrArg some (List.append_nil _).symm

namespace Scenario

variable {s : Scenario} {call : Call}

theorem pinned_run (run : Run openings events (.up s.registry d)) (clock : UInt64) (call : Call) :
    ∃ pins, Run openings (events ++ pins) (.up (s.pinned call).registry d) ∧
      ∀ kind id, settlements kind id pins = [] := by
  have unpinned : Run openings (events ++ []) (.up s.registry d) := by
    rw [List.append_nil]
    exact run
  have pins : Run openings
      (events ++ [.called clock (.setNowMillis s.nowMs) (.finished (.ok ()))])
      (.up (s.registry.setNowMillis s.nowMs) d) :=
    run.next (.called .done) trivial
  cases call with
  | compact | setNowMillis => exact ⟨[], unpinned, fun _ _ => rfl⟩
  | _ => exact ⟨_, pins, fun _ _ => rfl⟩

theorem pinned_nowMs (s : Scenario) (call : Call) : (s.pinned call).nowMs = call.timeAfter s.nowMs := by
  cases call <;> rfl

def Comes (openings : Openings) (events : List Event) (s : Scenario) (tokens : List Text) :
    Result Unit × Scenario → Disk FileName → Prop
  | (.ok (), s'), d => ∃ more call, Run openings (events ++ more) (.up s'.registry d) ∧
      Statement.intent s.nowMs tokens = .ok call ∧ s'.nowMs = call.timeAfter s.nowMs ∧
      ∀ kind id, settlements kind id more = (call.content kind id).toList
  | (.error _, s'), d => Enacts openings events s.nowMs [] (.up s'.registry d)

theorem Comes.stops {tokens : List Text} {outcome : Result Unit × Scenario}
    (comes : Comes openings events s tokens outcome d) : Stops openings events s.nowMs [tokens] d := by
  unfold Comes at comes
  split at comes
  next s' =>
    obtain ⟨more, call, run, intends, -, settles⟩ := comes
    have enacts : Enacts openings events s.nowMs [tokens] (.up s'.registry d) := by
      refine ⟨more, run, fun kind id => ?_⟩
      unfold contents
      rw [intends, settles]
      exact congrArg some (List.append_nil _)
    exact enacts.stops []
  next => exact comes.stops [tokens]

theorem wp_execute (run : Run openings events (.up s.registry d)) (moment : Instant)
    (verb : Text) (arguments : List Text) :
    (s.execute moment verb (verb :: arguments)).wp Disk.world
      (Stops openings events s.nowMs [verb :: arguments])
      (Comes openings events s (verb :: arguments)) d := by
  unfold execute
  split
  next e refused =>
    have comes : Comes openings events s (verb :: arguments) (.error e, s) d := by
      refine @Enacts.silent _ _ _ _ [] ?_ fun _ _ => rfl
      rw [List.append_nil]
      exact run
    exact ⟨comes.stops, comes⟩
  next call asked =>
    obtain ⟨call', intends, akin⟩ := Statement.call_echoes _ _ ⟨List.replicate 16 0, rfl⟩ _ 0 _ _ _ asked
    obtain ⟨pins, pinned, silent⟩ := pinned_run run moment.clock call
    refine Program.wp_bind.mpr (Program.wp_mono (Program.wp_strongest _ d) ?_ ?_)
    · intro d' crashes
      refine @Stops.silent _ _ _ _ (pins ++ [.crashed moment.clock (some call)]) ?_ (fun kind id => ?_) _
      · rw [← List.append_assoc]
        exact pinned.next (.cutCall crashes) trivial
      · rw [settlements_append, silent]
        rfl
    · rintro ⟨answer, registry⟩ d' called
      have settled := Run.settled pinned called
      have called : Run openings (events ++ (pins ++ [.called moment.clock call answer]))
          (.up registry d') := by
        rw [← List.append_assoc]
        exact pinned.next (.called called) trivial
      have adds (kind : EntityKind) (id : Text) :
          settlements kind id (pins ++ [.called moment.clock call answer]) =
            (call.settles kind id answer.outcome).toList := by
        rw [settlements_append, silent, settlements_singleton, settled, List.nil_append]
      have comes : Comes openings events s (verb :: arguments)
          (answer.outcome, { s.pinned call with
            registry, printed := (s.pinned call).printed ++ report call answer }) d' := by
        cases outcome : answer.outcome with
        | error e =>
            refine Enacts.silent called fun kind id => ?_
            rw [adds, outcome]
            rfl
        | ok =>
            refine ⟨_, call', called, intends, ?_, fun kind id => ?_⟩
            · rw [← akin.time]
              exact pinned_nowMs s call
            · rw [adds, outcome, ← akin.content]
              rfl
      exact ⟨comes.stops, comes⟩

/-- The statements on some lines, under the numbers of their lines. -/
def statements (number : Nat) : List Text → List (Nat × List Text)
  | [] => []
  | line :: lines =>
      if (lineTokens line).isEmpty then statements (number + 1) lines
      else (number, lineTokens line) :: statements (number + 1) lines

theorem statements_blank {number : Nat} {line : Text} (lines : List Text)
    (blank : lineTokens line = []) :
    statements number (line :: lines) = statements (number + 1) lines := by
  rw [statements, blank]
  rfl

theorem statements_cons {number : Nat} {line verb : Text} {arguments : List Text}
    (lines : List Text) (tokens : lineTokens line = verb :: arguments) :
    statements number (line :: lines) =
      (number, verb :: arguments) :: statements (number + 1) lines := by
  rw [statements, tokens]
  rfl

def StopsAt : Result Unit → List (Nat × List Text) → Prop
  | .ok (), rest => rest = []
  | .error e, rest => ∃ number tokens rest' e', rest = (number, tokens) :: rest' ∧ e = atLine number e'

/-- Where a scenario has come to: some statements are enacted, and it stopped behind them. -/
def Ran (openings : Openings) (events : List Event) (nowMs : UInt64) (file : List (Nat × List Text))
    (outcome : Result Unit × Scenario) (d : Disk FileName) : Prop :=
  ∃ done rest, file = done ++ rest ∧ StopsAt outcome.1 rest ∧
    Enacts openings events nowMs (done.map Prod.snd) (.up outcome.2.registry d)

theorem contents_cons {nowMs : UInt64} {tokens : List Text} {call : Call}
    (intends : Statement.intent nowMs tokens = .ok call) (kind : EntityKind) (id : Text)
    (rest : List (List Text)) : contents kind id nowMs (tokens :: rest) =
      (contents kind id (call.timeAfter nowMs) rest).map ((call.content kind id).toList ++ ·) := by
  rw [contents, intends]

theorem enacts_cons {nowMs : UInt64} {tokens : List Text} {more : List Event} {site : Site}
    (intends : Statement.intent nowMs tokens = .ok call)
    (settles : ∀ kind id, settlements kind id more = (call.content kind id).toList)
    {done : List (List Text)}
    (enacts : Enacts openings (events ++ more) (call.timeAfter nowMs) done site) :
    Enacts openings events nowMs (tokens :: done) site := by
  obtain ⟨later, run, whole⟩ := enacts
  refine ⟨more ++ later, ?_, fun kind id => ?_⟩
  · rw [← List.append_assoc]
    exact run
  · rw [contents_cons intends, whole, settlements_append, settles]
    rfl

theorem wp_runLines (moments : Nat → Instant) (lines : List Text) (number : Nat) {s : Scenario}
    (run : Run openings events (.up s.registry d)) :
    (runLines moments number lines s).wp Disk.world
      (Stops openings events s.nowMs ((statements number lines).map Prod.snd))
      (Ran openings events s.nowMs (statements number lines)) d := by
  induction lines generalizing number s events d with
  | nil =>
      have enacts : Enacts openings events s.nowMs [] (.up s.registry d) := by
        refine @Enacts.silent _ _ _ _ [] ?_ fun _ _ => rfl
        rw [List.append_nil]
        exact run
      exact ⟨enacts.stops [], [], [], rfl, rfl, enacts⟩
  | cons line lines ih =>
      unfold runLines
      split
      next blank =>
        rw [statements_blank lines blank]
        exact ih (number + 1) run
      next verb arguments tokens =>
        rw [statements_cons lines tokens]
        refine Program.wp_bind.mpr (Program.wp_mono (wp_execute run (moments number) verb arguments)
          ?_ ?_)
        · rintro d' ⟨done, front, enacts⟩
          exact ⟨done, front.trans (List.prefix_append [verb :: arguments] _), enacts⟩
        · rintro ⟨executed, s'⟩ d' comes
          cases executed with
          | error e =>
              have enacts : Enacts openings events s.nowMs [] (.up s'.registry d') := comes
              exact ⟨enacts.stops _, [], _, rfl, ⟨number, _, _, e, rfl, rfl⟩, enacts⟩
          | ok =>
              obtain ⟨more, call, run', intends, time, settles⟩ := comes
              have rest := ih (number + 1) run'
              rw [time] at rest
              refine Program.wp_mono rest ?_ ?_
              · rintro d'' ⟨done, front, enacts⟩
                exact ⟨_ :: done, List.cons_prefix_cons.mpr ⟨rfl, front⟩,
                  enacts_cons intends settles enacts⟩
              · rintro outcome d'' ⟨done, rest, split, stops, enacts⟩
                exact ⟨(number, _) :: done, rest, congrArg (_ :: ·) split, stops,
                  enacts_cons intends settles enacts⟩

/-- However far a scenario comes, its registry is at the end of a run that has published what the
statements up to there say, and no more; a scenario that succeeds has come to the end of its file, and
an error is under the number of the line that it stopped at. -/
theorem scenario_enacts {openings : Openings} {events : List Event} {d : Disk FileName}
    (moments : Nat → Instant) (file : Text) (s : Scenario)
    (run : Run openings events (.up s.registry d)) :
    (∀ outcome d', (Scenario.run moments (.ok file) s).Ends Disk.world d outcome d' →
        Ran openings events s.nowMs (statements 1 (splitText 10 file)) outcome d') ∧
      ∀ d', (Scenario.run moments (.ok file) s).Crashes Disk.world d d' →
        Stops openings events s.nowMs ((statements 1 (splitText 10 file)).map Prod.snd) d' := by
  have runs := wp_runLines moments (splitText 10 file) 1 run
  exact ⟨fun _ _ ends => Program.wp_ends runs ends, fun _ crashes => Program.wp_crashes runs crashes⟩

/-- A class, a comment, and the class once more in the next line but one. -/
def goldFile : Text := text "class gold 1 min_rate=5 # gold\n\nclass gold 2 min_rate=6\n"

def goldMoments (number : Nat) : Instant := ⟨UInt64.ofNat number, ⟨List.replicate 16 1, rfl⟩⟩

def goldRuns : Bool :=
  match (Site.down Disk.empty).rehearse
      [.open .default 0 (List.replicate 16 7)] with
  | some (_, .up r d) =>
      decide ((QoSFabric.execute (Scenario.run goldMoments (.ok goldFile) (.start r 0)) d).1.1 = .ok ())
  | _ => false

theorem scenario_enacts_gold : ∃ events r d outcome d',
    Run .any events (.up r d) ∧ outcome.1 = .ok () ∧
    (Scenario.run goldMoments (.ok goldFile) (.start r 0)).Ends Disk.world d outcome d' ∧
    Ran .any events 0 (statements 1 (splitText 10 goldFile)) outcome d' := by
  have runs : goldRuns = true := by decide +kernel
  unfold goldRuns at runs
  split at runs
  case h_2 => cases runs
  next events r d rehearsed =>
    have run := run_of_rehearse rehearsed
    have ends : (Scenario.run goldMoments (.ok goldFile) (.start r 0)).Ends Disk.world d _ _ :=
      Program.ends_run _ d
    exact ⟨events, r, d, _, _, run, of_decide_eq_true runs, ends,
      (scenario_enacts goldMoments goldFile (.start r 0) run).1 _ _ ends⟩

end Scenario

end QoSFabric
