import QoSFabric.Model.Wire
import QoSFabric.Model.Store
import QoSFabric.Foundation.Stream

/-!
# Sockets

The transport of `net.cpp`: whole buffers and whole frames over a connection that moves as many
bytes at a time as it likes. A socket is open as long as its owner uses it.
-/

namespace QoSFabric

open Interaction

abbrev Connected (α : Type) := Party (FileSystem.Request FileName) FileSystem.Reply α

/-- What one call of `send` or `recv` is asked to move. -/
abbrev maxChunk : Nat := 1048576

/-- An error with the text of `last_socket_error`. -/
def socketError (reason : Text) : Error := ⟨.ioError, reason.take Limits.maxErrorDetailBytes⟩

def sendAll (bytes : Bytes) : Connected (Result Unit) :=
  if _more : bytes = [] then pure (.ok ())
  else do
    match ← Party.send (bytes.take maxChunk) with
    | .error reason => pure (.error (socketError reason))
    | .ok ⟨written, _positive⟩ => sendAll (bytes.drop written)
termination_by bytes.length
decreasing_by
  have := List.length_pos_iff.mpr _more
  rw [List.length_drop]
  omega

def recvExact (count : Nat) : Connected (Result Bytes) :=
  if _more : count = 0 then pure (.ok [])
  else do
    match ← Party.receive (min count maxChunk) with
    | .error reason => pure (.error (socketError reason))
    | .ok ⟨got, _filled⟩ =>
        match ← recvExact (count - got.length) with
        | .error e => pure (.error e)
        | .ok rest => pure (.ok (got ++ rest))
termination_by count
decreasing_by
  have := List.length_pos_iff.mpr _filled
  omega

def recvFrame : Connected (Result Bytes) := do
  match ← recvExact Wire.frameHeaderBytes with
  | .error e => pure (.error e)
  | .ok header =>
      let length := LittleEndian.decode (header.take 4)
      if length > Limits.maxWireFrameBytes then
        pure (.error (makeError .tooLarge "peer declared a frame beyond the wire budget"))
      else if length > 0 then
        match ← recvExact length with
        | .error e => pure (.error e)
        | .ok body => pure (.ok (header ++ body))
      else pure (.ok header)

end QoSFabric
