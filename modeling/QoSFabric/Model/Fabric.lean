import QoSFabric.Model.Authority

/-!
# Runs of a registry

One registry at a time works on a directory. Between two openings the process may crash at any
point of an operation, which keeps the directory as the operation had left it; a registry that has
been closed is given up. Every read of the system clock is an input. Each opening has options of its
own.
-/

namespace QoSFabric

open FileSystem Interaction

/-- The operations that change a registry or its files. -/
inductive Call where
  | publishClass (value : QoSClass) (origin : Text)
  | publishPolicy (value : Policy) (origin : Text)
  | publishPath (value : Path) (origin : Text)
  | publishCapability (value : ResourceCapability)
  | publishReservation (value : Reservation)
  | registerPublisher (publisher : Text) (incarnation : PublisherIncarnation) (boot : BootId)
      (ttlMs : UInt64) (origin : Text)
  | revokePublisher (publisher : Text) (incarnation : PublisherIncarnation)
  | expireLeases
  | advanceEpoch (reason : Text)
  | evaluate (request : ContractRequest)
  | compact
  | setNowMillis (value : UInt64)

inductive Answer where
  | published (result : Result Registry.PublicationResult)
  | granted (result : Result PublisherLease)
  | advanced (result : Result FabricEpoch)
  | decided (result : Result ContractDecision)
  | finished (result : Result Unit)
  deriving DecidableEq

namespace Registry

def call (r : Registry) (clock : UInt64) : Call → Files (Answer × Registry)
  | .publishClass value origin => do
      let (result, r) ← r.publishClass value origin
      pure (.published result, r)
  | .publishPolicy value origin => do
      let (result, r) ← r.publishPolicy value origin
      pure (.published result, r)
  | .publishPath value origin => do
      let (result, r) ← r.publishPath value origin
      pure (.published result, r)
  | .publishCapability value => do
      let (result, r) ← r.publishCapability value
      pure (.published result, r)
  | .publishReservation value => do
      let (result, r) ← r.publishReservation value
      pure (.published result, r)
  | .registerPublisher publisher incarnation boot ttlMs origin => do
      let (result, r) ← r.registerPublisher clock publisher incarnation boot ttlMs origin
      pure (.granted result, r)
  | .revokePublisher publisher incarnation => do
      let (result, r) ← r.revokePublisher clock publisher incarnation
      pure (.finished result, r)
  | .expireLeases => pure (.finished (.ok ()), r.expireLeases clock)
  | .advanceEpoch reason => do
      let (result, r) ← r.advanceEpochLocked reason
      pure (.advanced result, r)
  | .evaluate request => do
      let (result, r) ← r.evaluate clock request
      pure (.decided result, r)
  | .compact => do
      let (result, r) ← r.compactLocked
      pure (.finished result, r)
  | .setNowMillis value => pure (.finished (.ok ()), r.setNowMillis value)

end Registry

inductive Site where
  | down (d : Disk FileName)
  | up (r : Registry) (d : Disk FileName)

inductive Event where
  | opened (options : RegistryOptions) (clock : UInt64) (boot : Bytes) (result : Result FabricEpoch)
  | called (clock : UInt64) (call : Call) (answer : Answer)
  | closed
  | crashed (clock : UInt64) (inside : Option Call)

abbrev Openings := RegistryOptions → Disk FileName → Prop

/-- One event. -/
inductive Step (openings : Openings) : Site → Event → Site → Prop where
  | opened {options : RegistryOptions} {clock : UInt64} {boot : Bytes} {r : Registry}
      {d d' : Disk FileName} (admitted : openings options d)
      (run : (Registry.open options clock boot).Ends Disk.world d (.ok r) d') :
      Step openings (.down d) (.opened options clock boot (.ok r.currentEpoch)) (.up r d')
  | refused {options : RegistryOptions} {clock : UInt64} {boot : Bytes} {e : Error}
      {d d' : Disk FileName} (admitted : openings options d)
      (run : (Registry.open options clock boot).Ends Disk.world d (.error e) d') :
      Step openings (.down d) (.opened options clock boot (.error e)) (.down d')
  | cutOpening {options : RegistryOptions} {clock : UInt64} {boot : Bytes}
      {d d' : Disk FileName} (admitted : openings options d)
      (run : (Registry.open options clock boot).Crashes Disk.world d d') :
      Step openings (.down d) (.crashed clock none) (.down d')
  | called {r r' : Registry} {d d' : Disk FileName} {clock : UInt64} {call : Call}
      {answer : Answer} (run : (r.call clock call).Ends Disk.world d (answer, r') d') :
      Step openings (.up r d) (.called clock call answer) (.up r' d')
  | cutCall {r : Registry} {d d' : Disk FileName} {clock : UInt64} {call : Call}
      (run : (r.call clock call).Crashes Disk.world d d') :
      Step openings (.up r d) (.crashed clock (some call)) (.down d')
  | closed {r r' : Registry} {d d' : Disk FileName} {result : Result Unit}
      (run : r.close.Ends Disk.world d (result, r') d') :
      Step openings (.up r d) .closed (.down d')
  | cutClosing {r : Registry} {d d' : Disk FileName} {clock : UInt64}
      (run : r.close.Crashes Disk.world d d') :
      Step openings (.up r d) (.crashed clock none) (.down d')

/-- The runs from a directory that holds nothing yet, each step of which meets a condition. -/
inductive RunWhere (openings : Openings) (meets : Site → Event → Prop) : List Event → Site → Prop where
  | start : RunWhere openings meets [] (.down Disk.empty)
  | next {events : List Event} {event : Event} {site site' : Site}
      (run : RunWhere openings meets events site) (step : Step openings site event site')
      (met : meets site event) : RunWhere openings meets (events ++ [event]) site'

abbrev Run (openings : Openings) : List Event → Site → Prop := RunWhere openings fun _ _ => True

end QoSFabric
