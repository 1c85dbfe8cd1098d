import QoSFabric.Model.Commands
import QoSFabric.Proof.Registry.Script
import QoSFabric.Proof.Store.Verify

/-!
# Commands on one store

Whatever commands are run on a directory one after the other, each of them to its end or killed at any
point, is one run of the registry. Scenarios that succeeded therefore never contradict each other.
-/

namespace QoSFabric

open Interaction FileSystem

variable {openings : Openings} {events : List Event} {r : Registry} {d d' : Disk FileName} {kind : EntityKind}
  {id : Text}

namespace CliCommand

variable {environment : Environment} {command : CliCommand}

/-- The contents a command publishes of an identifier when it succeeds. -/
def published (kind : EntityKind) (id : Text) (environment : Environment) :
    CliCommand → Option (List (Generation × Digest256))
  | scenario (.ok file) => contents kind id (environment.moments 0).clock
      ((Scenario.statements 1 (splitText 10 file)).map Prod.snd)
  | _ => some []

def Goes (openings : Openings) (events : List Event) (d : Disk FileName) : Prop :=
  ∃ more, Run openings (events ++ more) (.down d)

def Succeeds (openings : Openings) (events : List Event) (environment : Environment) (command : CliCommand)
    (d : Disk FileName) : Prop :=
  ∃ more, Run openings (events ++ more) (.down d) ∧
    ∀ kind id, command.published kind id environment = some (settlements kind id more)

theorem Goes.here (run : Run openings events (.up r d)) : Goes openings events d :=
  ⟨_, run.cut 0⟩

theorem Goes.behind {more : List Event} (goes : Goes openings (events ++ more) d) :
    Goes openings events d := by
  obtain ⟨later, run⟩ := goes
  rw [List.append_assoc] at run
  exact ⟨_, run⟩

theorem Goes.of_stops {nowMs : UInt64} {statements : List (List Text)}
    (stops : Stops openings events nowMs statements d) : Goes openings events d := by
  obtain ⟨-, -, more, run, -⟩ := stops
  exact ⟨more, run⟩

/-- How a command ends. -/
def Ends (openings : Openings) (events : List Event) (environment : Environment) (command : CliCommand)
    (outcome : UInt32 × List Text) (d : Disk FileName) : Prop :=
  Goes openings events d ∧ (outcome.1 = 0 → Succeeds openings events environment command d)

theorem wp_close (run : Run openings events (.up r d)) {post : Result Unit × Registry → Disk FileName → Prop}
    (done : ∀ result r' d', Run openings (events ++ [.closed]) (.down d') → post (result, r') d') :
    r.close.wp Disk.world (Goes openings events) post d := by
  refine Program.wp_mono (Program.wp_strongest r.close d) ?_ ?_
  · intro d' crashes
    exact ⟨_, run.next (@Step.cutClosing _ _ _ _ 0 crashes) trivial⟩
  · rintro ⟨result, r'⟩ d' ends
    exact done result r' d' (run.next (.closed ends) trivial)

theorem wp_closing (run : Run openings events (.up r d)) (printed more : List Text)
    {post : UInt32 × List Text → Disk FileName → Prop}
    (done : ∀ outcome d', Run openings (events ++ [.closed]) (.down d') → post outcome d') :
    (closing r printed more).wp Disk.world (Goes openings events) post d := by
  refine Program.wp_bind.mpr (wp_close run ?_)
  intro result r' d' closed
  cases result with
  | error e => exact ⟨⟨_, closed⟩, done _ d' closed⟩
  | ok => exact ⟨⟨_, closed⟩, done _ d' closed⟩

theorem wp_closing_behind {more : List Event} (run : Run openings (events ++ more) (.up r d))
    (printed lines : List Text) {post : UInt32 × List Text → Disk FileName → Prop}
    (done : ∀ outcome d', Run openings (events ++ (more ++ [.closed])) (.down d') → post outcome d') :
    (closing r printed lines).wp Disk.world (Goes openings events) post d := by
  refine Program.wp_mono (wp_closing run printed lines fun outcome d' closed => ?_)
    (fun _ => Goes.behind) fun _ _ ends => ends
  rw [List.append_assoc] at closed
  exact done outcome d' closed

theorem ends_silent {more : List Event} (run : Run openings (events ++ more) (.down d))
    (silent : ∀ kind id, settlements kind id more = [])
    (nothing : ∀ kind id, command.published kind id environment = some [])
    (outcome : UInt32 × List Text) : Ends openings events environment command outcome d := by
  refine ⟨⟨more, run⟩, fun _ => ⟨more, run, fun kind id => ?_⟩⟩
  rw [nothing, silent]

theorem ends_failed (goes : Goes openings events d) (printed : List Text) :
    Ends openings events environment command (1, printed) d :=
  ⟨goes, fun failed => absurd failed (show (1 : UInt32) ≠ 0 by decide)⟩

theorem wp_compact (run : Run openings events (.up r d))
    {post : Result Unit × Registry → Disk FileName → Prop}
    (done : ∀ result r' d',
      Run openings (events ++ [.called 0 .compact (.finished result)]) (.up r' d') →
        post (result, r') d') :
    r.compactLocked.wp Disk.world (Goes openings events) post d := by
  have called : (r.call 0 .compact).wp Disk.world (Goes openings events)
      (fun outcome d' => Run openings (events ++ [.called 0 .compact outcome.1]) (.up outcome.2 d')) d := by
    refine Program.wp_mono (Program.wp_strongest _ d) ?_ ?_
    · intro d' crashes
      exact ⟨_, run.next (.cutCall crashes) trivial⟩
    · rintro ⟨answer, r'⟩ d' ends
      exact run.next (.called ends) trivial
  refine Program.wp_mono (Program.wp_bind.mp called) (fun _ goes => goes) ?_
  rintro ⟨result, r'⟩ d' ⟨-, ends⟩
  exact done result r' d' ends

theorem reading_verify (s : Store) : Disk.Reading s.verify := by
  apply Disk.Reading.bind reading_verifyManifest
  rintro (e | -)
  · exact .done _
  apply Disk.Reading.bind (reading_verifySnapshot s)
  rintro (e | -)
  · exact .done _
  apply Disk.Reading.exists_
  rintro (- | -)
  · exact .done _
  apply Disk.Reading.bind (reading_readFile _ _)
  rintro (e | bytes)
  · exact .done _
  · exact .done _

theorem wp_scenario (run : Run openings events (.up r d)) (environment : Environment)
    (file : Result Text) :
    (work environment r (scenario file)).wp Disk.world (Goes openings events)
      (Ends openings events environment (scenario file)) d := by
  cases file with
  | error e =>
      refine Program.wp_bind.mpr ⟨.here run, Program.wp_bind.mpr (wp_close run ?_)⟩
      intro result r' d' closed
      exact ⟨⟨_, closed⟩, ends_failed ⟨_, closed⟩ _⟩
  | ok file =>
      have runs := Scenario.wp_runLines environment.moments (splitText 10 file) 1
        (s := .start r (environment.moments 0).clock) run
      refine Program.wp_bind.mpr (Program.wp_mono runs (fun _ => Goes.of_stops) ?_)
      rintro ⟨executed, s⟩ d' ⟨done, rest, split, stops, more, run', settles⟩
      cases executed with
      | error e =>
          have closes : s.registry.close.wp Disk.world (Goes openings (events ++ more))
              (fun _ => Goes openings (events ++ more)) d' :=
            wp_close run' fun _ _ _ closed => ⟨_, closed⟩
          refine Program.wp_bind.mpr (Program.wp_mono closes (fun _ => Goes.behind) ?_)
          intro closed d'' goes
          exact ⟨goes.behind, ends_failed goes.behind _⟩
      | ok =>
          refine wp_closing_behind run' _ _ fun outcome d'' closed => ?_
          refine ⟨⟨_, closed⟩, fun _ => ⟨_, closed, fun kind id => ?_⟩⟩
          obtain rfl : rest = [] := stops
          rw [List.append_nil] at split
          show contents kind id _ ((Scenario.statements 1 (splitText 10 file)).map Prod.snd) = _
          rw [split, settlements_append]
          exact (settles kind id).trans (congrArg some (List.append_nil _).symm)

theorem wp_work (run : Run openings events (.up r d)) (environment : Environment)
    (command : CliCommand) :
    (work environment r command).wp Disk.world (Goes openings events)
      (Ends openings events environment command) d := by
  cases command with
  | init =>
      exact wp_closing run _ _ fun outcome d' closed =>
        ends_silent closed (fun _ _ => rfl) (fun _ _ => rfl) outcome
  | status =>
      exact wp_closing run _ _ fun outcome d' closed =>
        ends_silent closed (fun _ _ => rfl) (fun _ _ => rfl) outcome
  | verify =>
      refine Program.wp_bind.mpr (Disk.Reading.wp (reading_verify r.store) (.here run) ?_)
      intro verified _
      cases verified with
      | error e => exact ⟨.here run, ends_failed (.here run) _⟩
      | ok =>
          exact wp_closing run _ _ fun outcome d' closed =>
            ends_silent closed (fun _ _ => rfl) (fun _ _ => rfl) outcome
  | compact =>
      refine Program.wp_bind.mpr (wp_compact run ?_)
      intro result r' d' compacted
      cases result with
      | error e => exact ⟨(Goes.here compacted).behind, ends_failed (Goes.here compacted).behind _⟩
      | ok =>
          exact wp_closing_behind compacted _ _ fun outcome d'' closed =>
            ends_silent closed (fun _ _ => rfl) (fun _ _ => rfl) outcome
  | scenario file => exact wp_scenario run environment file

theorem Ends.behind {more : List Event} {outcome : UInt32 × List Text}
    (ends : Ends openings (events ++ more) environment command outcome d)
    (silent : ∀ kind id, settlements kind id more = []) :
    Ends openings events environment command outcome d := by
  refine ⟨ends.1.behind, fun succeeded => ?_⟩
  obtain ⟨later, run, publishes⟩ := ends.2 succeeded
  rw [List.append_assoc] at run
  refine ⟨_, run, fun kind id => ?_⟩
  rw [publishes, settlements_append, silent, List.nil_append]

theorem wp_run (run : Run .largest events (.down d)) (environment : Environment)
    (command : CliCommand) :
    (CliCommand.run environment command).wp Disk.world (Goes .largest events)
      (Ends .largest events environment command) d := by
  have here : Goes .largest events d := by
    refine ⟨[], ?_⟩
    rw [List.append_nil]
    exact run
  have largest : Openings.largest command.options d := rfl
  refine Program.wp_bind.mpr ?_
  unfold openRegistry
  split
  · exact ⟨here, here, ends_failed here _⟩
  refine Program.wp_mono (Program.wp_strongest _ d) ?_ ?_
  · intro d' crashes
    exact ⟨_, run.next (@Step.cutOpening _ command.options environment.clock _ _ _ largest crashes) trivial⟩
  · intro result d' opened
    cases result with
    | error e =>
        have refused := run.next (.refused largest opened) trivial
        exact ⟨⟨_, refused⟩, ends_failed ⟨_, refused⟩ _⟩
    | ok r =>
        refine Program.wp_mono (wp_work (run.next (.opened largest opened) trivial) environment command)
          (fun _ => Goes.behind) fun _ _ ends => ends.behind fun _ _ => rfl

end CliCommand

open CliCommand

/-- A command that was run, and its exit code, unless it was killed. -/
structure Invocation where
  environment : Environment
  command : CliCommand
  exit : Option UInt32

/-- Commands that are run one behind the other on a directory that held nothing at first. -/
inductive Shell : List Invocation → Disk FileName → Prop where
  | start : Shell [] Disk.empty
  | finished {ran : List Invocation} {d d' : Disk FileName} {environment : Environment}
      {command : CliCommand} {code : UInt32} {printed : List Text} (before : Shell ran d)
      (ends : (CliCommand.run environment command).Ends Disk.world d (code, printed) d') :
      Shell (ran ++ [⟨environment, command, some code⟩]) d'
  | killed {ran : List Invocation} {d d' : Disk FileName} {environment : Environment}
      {command : CliCommand} (before : Shell ran d)
      (crashes : (CliCommand.run environment command).Crashes Disk.world d d') :
      Shell (ran ++ [⟨environment, command, none⟩]) d'

namespace Invocation

/-- The contents that a command published when it succeeded. -/
def written (kind : EntityKind) (id : Text) (invocation : Invocation) : List (Generation × Digest256) :=
  if invocation.exit = some 0 then
    (invocation.command.published kind id invocation.environment).getD []
  else []

/-- Every statement of a scenario that succeeded is one. -/
def Sound (invocation : Invocation) : Prop :=
  invocation.exit = some 0 → ∀ kind id,
    (invocation.command.published kind id invocation.environment).isSome

end Invocation

structure Accounted (ran : List Invocation) (events : List Event) : Prop where
  sound : ∀ invocation ∈ ran, invocation.Sound
  settled : ∀ kind id,
    (ran.flatMap (Invocation.written kind id)).Sublist (settlements kind id events)

theorem Accounted.concat {ran : List Invocation} (accounted : Accounted ran events)
    {invocation : Invocation} {more : List Event}
    (publishes : invocation.exit = some 0 → ∀ kind id,
      invocation.command.published kind id invocation.environment =
        some (settlements kind id more)) :
    Accounted (ran ++ [invocation]) (events ++ more) where
  sound other mem := by
    rcases List.mem_append.mp mem with old | last
    · exact accounted.sound other old
    · obtain rfl := List.mem_singleton.mp last
      intro succeeded kind id
      rw [publishes succeeded]
      rfl
  settled kind id := by
    rw [List.flatMap_append, List.flatMap_singleton, settlements_append]
    refine (accounted.settled kind id).append ?_
    unfold Invocation.written
    split
    next succeeded => rw [publishes succeeded, Option.getD_some]
    next => exact List.nil_sublist _

theorem Shell.run {ran : List Invocation} (shell : Shell ran d) :
    ∃ events, Run .largest events (.down d) ∧ Accounted ran events := by
  induction shell with
  | start => exact ⟨[], .start, fun _ mem => (List.not_mem_nil mem).elim, fun _ _ => .slnil⟩
  | @finished ran d d' environment command code printed before ends ih =>
      obtain ⟨events, run, accounted⟩ := ih
      obtain ⟨⟨more, went⟩, succeeds⟩ := Program.wp_ends (wp_run run environment command) ends
      by_cases zero : code = 0
      · obtain ⟨more, went, publishes⟩ := succeeds zero
        exact ⟨_, went, accounted.concat fun _ => publishes⟩
      · exact ⟨_, went, accounted.concat fun succeeded => absurd (Option.some.inj succeeded) zero⟩
  | @killed ran d d' environment command before crashes ih =>
      obtain ⟨events, run, accounted⟩ := ih
      obtain ⟨more, went⟩ := Program.wp_crashes (wp_run run environment command) crashes
      exact ⟨_, went, accounted.concat fun succeeded => by cases succeeded⟩

/-- Scenarios that succeeded on one store agree with each other: whatever commands were run between
them, and wherever those were killed, the generations that they publish of an identifier never fall,
and one generation has one content. -/
theorem scenarios_agree {ran : List Invocation} (shell : Shell ran d) (kind : EntityKind) (id : Text) :
    (∀ invocation ∈ ran, invocation.Sound) ∧
      (ran.flatMap (Invocation.written kind id)).Pairwise Agrees := by
  obtain ⟨events, run, accounted⟩ := shell.run
  obtain ⟨D, -, turns⟩ := run.reading.turns
  exact ⟨accounted.sound, (Turns.settlements_agree turns kind id).sublist (accounted.settled kind id)⟩

def goldEnvironment : Environment :=
  ⟨text "store", 0, List.replicate 16 7, Scenario.goldMoments⟩

def laterFile : Text := text "class gold 2 min_rate=6\nclass gold 3 min_rate=7\n"

def goldCommands : List CliCommand :=
  [.scenario (.ok Scenario.goldFile), .compact, .scenario (.ok laterFile)]

def succeed (environment : Environment) : List CliCommand → Disk FileName → Option (Disk FileName)
  | [], d => some d
  | command :: commands, d =>
      match execute (CliCommand.run environment command) d with
      | ((code, _), d) => if code = 0 then succeed environment commands d else none

theorem Shell.succeeded {environment : Environment} {commands : List CliCommand}
    {ran : List Invocation} (shell : Shell ran d) (done : succeed environment commands d = some d') :
    Shell (ran ++ commands.map (⟨environment, ·, some 0⟩)) d' := by
  induction commands generalizing ran d with
  | nil =>
      cases done
      rw [List.map_nil, List.append_nil]
      exact shell
  | cons command commands ih =>
      cases executed : execute (CliCommand.run environment command) d with
      | mk outcome d₁ =>
          obtain ⟨code, printed⟩ := outcome
          rw [succeed, executed] at done
          dsimp only at done
          split at done
          case isFalse => cases done
          next zero =>
            subst zero
            have further := ih (shell.finished (ends_of_execute executed)) done
            rw [List.append_assoc] at further
            exact further

set_option maxRecDepth 4000 in
theorem scenarios_agree_gold : ∃ ran d, Shell ran d ∧
    (ran.flatMap (Invocation.written .class (text "gold"))).map Prod.fst = [1, 2, 2, 3] ∧
    (∀ invocation ∈ ran, invocation.Sound) ∧
    (ran.flatMap (Invocation.written .class (text "gold"))).Pairwise Agrees := by
  have succeeds : (succeed goldEnvironment goldCommands Disk.empty).isSome := by decide +kernel
  have written : ((goldCommands.map (⟨goldEnvironment, ·, some 0⟩)).flatMap
      (Invocation.written .class (text "gold"))).map Prod.fst = [1, 2, 2, 3] := by decide +kernel
  obtain ⟨d, done⟩ := Option.isSome_iff_exists.mp succeeds
  have shell := Shell.start.succeeded done
  exact ⟨_, d, shell, written, scenarios_agree shell .class (text "gold")⟩

end QoSFabric
