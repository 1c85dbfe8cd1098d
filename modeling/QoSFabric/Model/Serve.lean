import QoSFabric.Model.Fabric
import QoSFabric.Model.Messages

/-!
# Serving publications

The branch of the serve loop of `qosfabric_cli.cpp` that answers a published capability or
reservation. The first byte of a body asks the server to choose the generation.
-/

namespace QoSFabric

/-- `status_from_error`. -/
def WireStatus.ofError : ErrorCode → WireStatus
  | .invalidArgument | .malformed => rejected
  | .fenced => fenced
  | .unauthorized => unauthorized
  | .stale => stale
  | .conflict | .duplicate => conflict
  | .tooLarge => tooLarge
  | .notFound => notFound
  | _ => internal

namespace PublishAckMessage

def start : PublishAckMessage := ⟨.internal, 0, 0, .zero, []⟩

def refuse (ack : PublishAckMessage) (error : Error) : PublishAckMessage :=
  { ack with status := .ofError error.code, detail := error.detail }

def answer (ack : PublishAckMessage) : Result Registry.PublicationResult → PublishAckMessage
  | .error error => ack.refuse error
  | .ok published =>
      { ack with
        status := .ok
        generation := published.generation
        sequence := published.sequence
        digest := published.digest }

end PublishAckMessage

/-- The record of a publication frame. -/
inductive Submission where
  | capability (value : ResourceCapability)
  | reservation (value : Reservation)

namespace Submission

def kind : Submission → EntityKind
  | capability _ => .capability
  | reservation _ => .reservation

def value : (s : Submission) → s.kind.Carrier
  | capability value => value
  | reservation value => value

def decode (type : MessageType) (payload : Bytes) : Result Submission :=
  if type = .publishCapability then
    (decodeCapability (.ofBytes payload)).map fun decoded => capability decoded.1
  else (decodeReservation (.ofBytes payload)).map fun decoded => reservation decoded.1

def numbered (next : Generation) : Submission → Submission
  | capability value => capability { value with generation := next }
  | reservation value => reservation { value with generation := next }

def call : Submission → Call
  | capability value => .publishCapability value
  | reservation value => .publishReservation value

end Submission

namespace Registry

/-- The generation after the one that was found; the last one stays, and the acknowledgement says
so until the publication is answered. -/
def nextGeneration (ack : PublishAckMessage) : Option Generation → Generation × PublishAckMessage
  | none => (1, ack)
  | some latest =>
      match Store.tryIncrement latest with
      | some next => (next, ack)
      | none =>
          (latest, { ack with status := .internal, detail := text "generation space exhausted" })

def found (r : Registry) : Submission → Option Generation
  | .capability value =>
      (r.findLatest .capability value.resource).toOption.map ResourceCapability.generation
  | .reservation value =>
      (r.findEntity .reservation value.resource value.generation).toOption.map
        Reservation.generation

def assign (r : Registry) (flags : UInt8) (ack : PublishAckMessage) (s : Submission) :
    Submission × PublishAckMessage :=
  if flags &&& 0x01 ≠ 0 then
    let (next, ack) := nextGeneration ack (r.found s)
    (s.numbered next, ack)
  else (s, ack)

def publishSubmission (r : Registry) : Submission → Files (Result PublicationResult × Registry)
  | .capability value => r.publishCapability value
  | .reservation value => r.publishReservation value

def servePublication (r : Registry) (type : MessageType) (body : Bytes) :
    Files (Option PublishAckMessage × Registry) :=
  match body with
  | [] => pure (none, r)
  | flags :: payload =>
      match Submission.decode type payload with
      | .error error => pure (some (PublishAckMessage.start.refuse error), r)
      | .ok submission => do
          let (asked, ack) := r.assign flags .start submission
          let (result, r) ← r.publishSubmission asked
          pure (some (ack.answer result), r)

end Registry

end QoSFabric
