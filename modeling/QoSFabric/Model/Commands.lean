import QoSFabric.Model.Interpreter
import QoSFabric.Model.Server

/-!
# Commands

The commands of `qosfabric_cli.cpp` that open the registry, work on it and close it: what each does
to the directory, the lines it prints and its exit code. Only `serve` is left to the server.
-/

namespace QoSFabric

/-- A command, and for a scenario what `read_file` returns of its file. -/
inductive CliCommand where
  | init
  | status
  | verify
  | compact
  | scenario (file : Result Text)

namespace CliCommand

/-- What a process finds outside the directory. -/
structure Environment where
  store : Text
  clock : UInt64
  boot : Bytes
  moments : Nat → Instant

def claimsAuthority : CliCommand → Bool
  | status | verify => false
  | init | compact | scenario _ => true

def options (command : CliCommand) : RegistryOptions :=
  { RegistryOptions.default with claimAuthority := command.claimsAuthority }

/-- `open_registry`. -/
def openRegistry (environment : Environment) (command : CliCommand) : Files (Result Registry) :=
  if environment.store.isEmpty then
    pure (.error (makeError .invalidArgument "--store DIR is required"))
  else Registry.open command.options environment.clock environment.boot

def initLine (environment : Environment) (r : Registry) : Text :=
  text "INIT " ++ environment.store ++ text " store=" ++ r.store.storeId ++ text " epoch=" ++
    decimal r.currentEpoch.toNat

/-- A truth value as `%d` prints it. -/
def digit (condition : Bool) : Text := decimal condition.toNat

def statusLines (r : Registry) : List Text :=
  let counts := r.counts
  let recovery := r.store.recovery
  [text "STORE " ++ r.store.storeId,
    text "EPOCH current=" ++ decimal r.currentEpoch.toNat ++ text " durable=" ++
      decimal r.durableEpoch.toNat,
    text "COUNTS classes=" ++ decimal counts.classes ++ text " policies=" ++
      decimal counts.policies ++ text " paths=" ++ decimal counts.paths ++ text " capabilities=" ++
      decimal counts.capabilities ++ text " reservations=" ++ decimal counts.reservations,
    text "COUNTS publishers=" ++ decimal counts.publishers ++ text " decisions=" ++
      decimal counts.decisions ++ text " conflicts=" ++ decimal counts.conflicts ++
      text " leases=" ++ decimal counts.liveLeases,
    text "RECOVERY clean=" ++ digit recovery.openedClean ++ text " manifest_rebuilt=" ++
      digit recovery.manifestRebuilt ++ text " snapshot_loaded=" ++ digit recovery.snapshotLoaded ++
      text " replayed=" ++ decimal recovery.replayedRecords ++ text " truncated=" ++
      decimal recovery.truncatedTailBytes ++ text " unfinished=" ++
      decimal recovery.unfinishedIntents ++ text " discarded=" ++ decimal recovery.discardedIntents]

def closing (r : Registry) (printed more : List Text) : Files (UInt32 × List Text) := do
  let (closed, _) ← r.close
  match closed with
  | .error _ => pure (1, printed)
  | .ok () => pure (0, printed ++ more)

def work (environment : Environment) (r : Registry) : CliCommand → Files (UInt32 × List Text)
  | init => closing r [] [initLine environment r]
  | status => closing r (statusLines r) []
  | verify => do
      let verified ← r.store.verify
      match verified with
      | .error _ => pure (1, [])
      | .ok () => closing r [text "VERIFY OK store=" ++ r.store.storeId] []
  | compact => do
      let (compacted, r) ← r.compactLocked
      match compacted with
      | .error _ => pure (1, [])
      | .ok () => closing r [text "COMPACT OK epoch=" ++ decimal r.currentEpoch.toNat] []
  | scenario file => do
      let (executed, s) ← Scenario.run environment.moments file
        (.start r (environment.moments 0).clock)
      match executed with
      | .error _ => do
          let _ ← s.registry.close
          pure (1, s.printed)
      | .ok () => closing s.registry s.printed [text "SCENARIO OK"]

/-- `main` for a command: its exit code, and what it printed. -/
def run (environment : Environment) (command : CliCommand) : Files (UInt32 × List Text) := do
  match ← openRegistry environment command with
  | .error _ => pure (1, [])
  | .ok r => work environment r command

end CliCommand

end QoSFabric
