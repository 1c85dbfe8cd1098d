import QoSFabric.Model.Server
import QoSFabric.Proof.Wire.Receiving
import QoSFabric.Proof.Wire.Messages
import QoSFabric.Proof.Registry.Serving

/-!
# Connections to the server

The server asks the registry for at most one call for each frame and answers the frames in the order
of the stream, each once, so that whatever a client sends and however the network moves it, a
connection is a part of a run of the registry. A connection may be cut off at any point of a call.
-/

namespace QoSFabric

open Interaction FileSystem

/-! ## Reactions -/

inductive Reaction where
  | respond (response : Response)
  | call (call : Call) (respond : Answer → Registry → Response)

namespace Response

def ofGrant : Answer → Registry → Response
  | .granted lease, r =>
      let ack := HelloAckMessage.ofGrant r.currentEpoch lease
      answer .helloAck (Wire.encodeHelloAck ack) (ack.status != .ok)
  | _, _ => leave

def ofPublication (ack : PublishAckMessage) : Answer → Registry → Response
  | .published result, _ => answer .publishAck (Wire.encodePublishAck (ack.answer result)) false
  | _, _ => leave

end Response

namespace Registry

def reactToHello (frame : WireFrame) : Reaction :=
  match Wire.decodeHello frame.body with
  | .error _ => .respond .leave
  | .ok hello =>
      .call (.registerPublisher hello.publisher hello.incarnation hello.boot hello.ttlMs.toUInt64
        hello.origin) Response.ofGrant

def reactToSubmission (r : Registry) (frame : WireFrame) : Reaction :=
  match frame.body with
  | [] => .respond .leave
  | flags :: payload =>
      match Submission.decode frame.type payload with
      | .error error =>
          .respond (.answer .publishAck
            (Wire.encodePublishAck (PublishAckMessage.start.refuse error)) false)
      | .ok submission =>
          let asked := r.assign flags .start submission
          .call asked.1.call (Response.ofPublication asked.2)

def react (r : Registry) (frame : WireFrame) : Reaction :=
  match frame.type with
  | .ping => .respond (.reply (Wire.encodeFrame .pong []) false false)
  | .hello => reactToHello frame
  | .publishCapability | .publishReservation => r.reactToSubmission frame
  | .registryStatus =>
      .respond (.answer .registryStatus (Wire.encodeRegistryStatus r.status) false)
  | .unknown | .helloAck | .publishAck | .revoke | .bye | .pong => .respond .leave

def perform (r : Registry) (clock : UInt64) : Reaction → Files (Response × Registry)
  | .respond response => pure (response, r)
  | .call call respond => do
      let (answer, r') ← r.call clock call
      pure (respond answer r', r')

theorem perform_hello (r : Registry) (clock : UInt64) (frame : WireFrame)
    (hello : frame.type = .hello) :
    r.serveFrame clock frame = r.perform clock (reactToHello frame) := by
  unfold serveFrame reactToHello
  rw [hello]
  dsimp only
  cases Wire.decodeHello frame.body with
  | error e => rfl
  | ok message =>
      show (r.registerPublisher _ _ _ _ _ _ >>= _) >>= _ = (r.registerPublisher _ _ _ _ _ _ >>= _) >>= _
      rw [Program.bind_assoc, Program.bind_assoc]
      rfl

theorem perform_submission (r : Registry) (clock : UInt64) (frame : WireFrame)
    (publishes : frame.type = .publishCapability ∨ frame.type = .publishReservation) :
    r.serveFrame clock frame = r.perform clock (r.reactToSubmission frame) := by
  have served : r.serveFrame clock frame =
      (r.servePublication frame.type frame.body >>= fun x => pure (Response.ofAck x.1, x.2)) := by
    unfold serveFrame
    rcases publishes with type | type <;> simp only [type]
  rw [served]
  unfold servePublication reactToSubmission
  cases frame.body with
  | nil => rfl
  | cons flags payload =>
      dsimp only
      cases Submission.decode frame.type payload with
      | error e => rfl
      | ok submission =>
          dsimp only [perform]
          rw [call_submission, Program.bind_assoc, Program.bind_assoc]
          rfl

theorem serveFrame_eq (r : Registry) (clock : UInt64) (frame : WireFrame) :
    r.serveFrame clock frame = r.perform clock (r.react frame) := by
  cases type : frame.type with
  | hello =>
      rw [perform_hello r clock frame type, react, type]
  | publishCapability =>
      rw [perform_submission r clock frame (.inl type), react, type]
  | publishReservation =>
      rw [perform_submission r clock frame (.inr type), react, type]
  | _ =>
      unfold serveFrame react
      rw [type]
      rfl

end Registry

/-! ## Conversations -/

inductive Handles (clock : UInt64) (r : Registry) (d : Disk FileName) (frame : WireFrame) :
    Response → List Event → Registry → Disk FileName → Prop where
  | aside {response : Response} (reacts : r.react frame = .respond response) :
      Handles clock r d frame response [] r d
  | called {call : Call} {respond : Answer → Registry → Response} {answer : Answer} {r' : Registry}
      {d' : Disk FileName} (reacts : r.react frame = .call call respond)
      (run : (r.call clock call).Ends Disk.world d (answer, r') d') :
      Handles clock r d frame (respond answer r') [.called clock call answer] r' d'

structure Served where
  frame : WireFrame
  reply : Bytes
  sent : Bytes

/-- The frames that are answered in turn, the events at the registry, and whether the server goes on
to another frame. -/
inductive Conversation (r : Registry) (d : Disk FileName) :
    Bool → List Served → List Event → Registry → Disk FileName → Prop where
  | start : Conversation r d true [] [] r d
  | next {served : List Served} {events more : List Event} {r' r'' : Registry}
      {d' d'' : Disk FileName} {clock : UInt64} {frame : WireFrame} {reply sent : Bytes}
      {insists last : Bool} (before : Conversation r d true served events r' d')
      (fits : frame.Fits)
      (handles : Handles clock r' d' frame (.reply reply insists last) more r'' d'')
      (part : sent <+: reply) :
      Conversation r d ((!insists || sent == reply) && !last) (served ++ [⟨frame, reply, sent⟩])
        (events ++ more) r'' d''

theorem encodeFrame_ne_nil_of_within {type : MessageType} {bound : Nat}
    {emit : ByteWriter Limits.maxWireFrameBytes → ByteWriter Limits.maxWireFrameBytes}
    (within : (emit .empty).Within bound)
    (small : Wire.envelopeBytes + bound ≤ Limits.maxWireFrameBytes) :
    Wire.encodeFrame type (Wire.encodeBody emit) ≠ [] := by
  obtain ⟨bytes, data, size⟩ := within
  have body : Wire.encodeBody emit = bytes := by
    rw [Wire.encodeBody, data]
    rfl
  apply Wire.encodeFrame_ne_nil (f := ⟨type, Wire.encodeBody emit⟩).mpr
  show Wire.envelopeBytes + (Wire.encodeBody emit).length ≤ _
  rw [body]
  omega

theorem Response.answer_of_within {type : MessageType} {bound : Nat} {last : Bool}
    {emit : ByteWriter Limits.maxWireFrameBytes → ByteWriter Limits.maxWireFrameBytes}
    (within : (emit .empty).Within bound)
    (small : Wire.envelopeBytes + bound ≤ Limits.maxWireFrameBytes) :
    Response.answer type (Wire.encodeBody emit) last =
      .reply (Wire.encodeFrame type (Wire.encodeBody emit)) true last := by
  have encodes : Wire.encodeFrame type (Wire.encodeBody emit) ≠ [] :=
    encodeFrame_ne_nil_of_within within small
  rw [answer, if_neg (by simpa using encodes)]

theorem Response.answer_helloAck (ack : HelloAckMessage) (last : Bool) :
    Response.answer .helloAck (Wire.encodeHelloAck ack) last =
      .reply (Wire.encodeFrame .helloAck (Wire.encodeHelloAck ack)) true last :=
  answer_of_within ack.within (by decide)

theorem Response.answer_publishAck (ack : PublishAckMessage) (last : Bool) :
    Response.answer .publishAck (Wire.encodePublishAck ack) last =
      .reply (Wire.encodeFrame .publishAck (Wire.encodePublishAck ack)) true last :=
  answer_of_within ack.within (by decide)

theorem Registry.react_answered {clock : UInt64} {r r' : Registry} {d d' : Disk FileName}
    {frame : WireFrame} {call : Call} {respond : Answer → Registry → Response} {answer : Answer}
    (reacts : r.react frame = .call call respond)
    (run : (r.call clock call).Ends Disk.world d (answer, r') d') :
    ∃ reply last, respond answer r' = .reply reply true last := by
  have submitted (reacts : r.reactToSubmission frame = .call call respond) :
      ∃ reply last, respond answer r' = .reply reply true last := by
    unfold reactToSubmission at reacts
    split at reacts
    · cases reacts
    · split at reacts
      · cases reacts
      · cases reacts
        rw [call_submission] at run
        obtain ⟨⟨result, r₁⟩, m, -, ended⟩ := Program.ends_bind.mp run
        cases ended
        exact ⟨_, _, Response.answer_publishAck _ false⟩
  unfold react at reacts
  split at reacts
  · cases reacts
  · unfold reactToHello at reacts
    split at reacts
    · cases reacts
    · cases reacts
      obtain ⟨⟨lease, r₁⟩, m, -, ended⟩ := Program.ends_bind.mp run
      cases ended
      exact ⟨_, _, Response.answer_helloAck _ _⟩
  · exact submitted reacts
  · exact submitted reacts
  all_goals cases reacts

theorem Handles.aside_of_leave {clock : UInt64} {r r' : Registry} {d d' : Disk FileName}
    {frame : WireFrame} {events : List Event} (handles : Handles clock r d frame .leave events r' d') :
    events = [] ∧ r' = r ∧ d' = d := by
  generalize left : Response.leave = response at handles
  cases handles with
  | aside _ => exact ⟨rfl, rfl, rfl⟩
  | called reacts run =>
      obtain ⟨reply, last, answered⟩ := Registry.react_answered reacts run
      rw [answered] at left
      cases left

theorem Handles.run {openings : Openings} {events more : List Event} {clock : UInt64} {r r' : Registry}
    {d d' : Disk FileName} {frame : WireFrame} {response : Response}
    (handles : Handles clock r d frame response more r' d') (run : Run openings events (.up r d)) :
    Run openings (events ++ more) (.up r' d') := by
  cases handles with
  | aside _ =>
      rw [List.append_nil]
      exact run
  | called _ called => exact run.next (.called called) trivial

section Run

variable {r r' : Registry} {d d' : Disk FileName} {goesOn : Bool} {served : List Served}
  {more : List Event}

theorem Conversation.run {openings : Openings} {events : List Event} (run : Run openings events (.up r d))
    (conversation : Conversation r d goesOn served more r' d') :
    Run openings (events ++ more) (.up r' d') := by
  induction conversation with
  | start =>
      rw [List.append_nil]
      exact run
  | next _ _ handles _ ih =>
      rw [← List.append_assoc]
      exact handles.run ih

end Run

/-! ## Connections -/

def handled (served : List Served) : Bytes := served.flatMap fun s => s.frame.bytes

/-- The bytes that have been sent in answer. -/
def replied (served : List Served) : Bytes := served.flatMap Served.sent

/-- What has been taken off a stream are the frames that were answered, and behind them no more than
one frame, and nothing when the conversation has come to its end. -/
def Consumed (inbound : Bytes) (goesOn : Bool) (served : List Served) (rest : Bytes) : Prop :=
  ∃ taken, InFrame taken ∧ (goesOn = false → taken = []) ∧ inbound = handled served ++ taken ++ rest

/-- Where a connection stands: the conversation so far accounts for all that has been sent and for
the front of what has been taken off the stream, and at most one call is under way. -/
structure Underway (r₀ : Registry) (d₀ : Disk FileName) (inbound : Bytes)
    (at_ : Disk FileName × Stream.Pipe) (goesOn : Bool) (served : List Served) (events : List Event)
    (r : Registry) (d : Disk FileName) : Prop where
  conversation : Conversation r₀ d₀ goesOn served events r d
  front : Consumed inbound goesOn served at_.2.inbound
  answered : at_.2.outbound = replied served
  disk : at_.1 = d ∨ ∃ clock call, (r.call clock call).Crashes Disk.world d at_.1

def Passes (r₀ : Registry) (d₀ : Disk FileName) (inbound : Bytes) (at_ : Disk FileName × Stream.Pipe) :
    Prop :=
  ∃ goesOn served events r d, Underway r₀ d₀ inbound at_ goesOn served events r d

def Parts (r₀ : Registry) (d₀ : Disk FileName) (inbound : Bytes) (turns : Nat)
    (result : Option Registry) (at_ : Disk FileName × Stream.Pipe) : Prop :=
  ∃ goesOn served events r, Underway r₀ d₀ inbound at_ goesOn served events r at_.1 ∧
    (result = some r ∨ result = none ∧ goesOn = true ∧ served.length = turns)

def Turned (r₀ : Registry) (d₀ : Disk FileName) (inbound : Bytes) (turns : Nat)
    (result : Bool × Registry) (at_ : Disk FileName × Stream.Pipe) : Prop :=
  ∃ goesOn served events, Underway r₀ d₀ inbound at_ goesOn served events result.2 at_.1 ∧
    (result.1 = true → goesOn = true ∧ served.length = turns + 1 ∧
      inbound = handled served ++ at_.2.inbound)

def Registry.turn (r : Registry) (clock : UInt64) : Connected (Bool × Registry) := do
  match ← recvFrame with
  | .error _ => pure (false, r)
  | .ok raw =>
      match Wire.decodeFrame raw with
      | .error _ => pure (false, r)
      | .ok frame => do
          let (response, r) ← (r.serveFrame clock frame).lift
          let goesOn ← response.send
          pure (goesOn, r)

theorem Registry.serveConnection_succ (r : Registry) (clock : Nat → UInt64) (fuel : Nat) :
    r.serveConnection clock (fuel + 1) = r.turn (clock fuel) >>= fun turned =>
      if turned.1 then turned.2.serveConnection clock fuel else pure (some turned.2) := by
  rw [serveConnection, turn, Program.bind_assoc]
  refine congrArg _ (funext fun received => ?_)
  cases received with
  | error e => rfl
  | ok raw =>
      dsimp only
      cases Wire.decodeFrame raw with
      | error e => rfl
      | ok frame =>
          dsimp only
          rw [Program.bind_assoc]
          refine congrArg _ (funext fun responded => ?_)
          rw [Program.bind_assoc]
          rfl

section Connection

variable {r₀ r r' : Registry} {d₀ d d' : Disk FileName} {inbound₀ inbound outbound : Bytes}
  {served : List Served} {events more : List Event} {clock : UInt64} {frame : WireFrame}
  {insists last : Bool} {reply sent : Bytes}

theorem handled_concat (served : List Served) (s : Served) :
    handled (served ++ [s]) = handled served ++ s.frame.bytes := by
  unfold handled
  rw [List.flatMap_append, List.flatMap_singleton]

theorem replied_concat (served : List Served) (s : Served) :
    replied (served ++ [s]) = replied served ++ s.sent := by
  unfold replied
  rw [List.flatMap_append, List.flatMap_singleton]

theorem wp_send_reply {State : Type} {V : Program.World (Request FileName) Reply State} {s : State}
    {crash : State × Stream.Pipe → Prop} {post : Bool → State × Stream.Pipe → Prop}
    (cut : ∀ sent, sent <+: reply → crash (s, ⟨inbound, outbound ++ sent⟩))
    (done : ∀ sent, sent <+: reply →
      post ((!insists || sent == reply) && !last) (s, ⟨inbound, outbound ++ sent⟩)) :
    (Response.reply reply insists last).send.wp (Party.world V) crash post
      (s, ⟨inbound, outbound⟩) := by
  unfold Response.send
  rw [Program.wp_bind]
  apply wp_sendAll cut
  · intro reason sent part ne
    have unsent := done sent part
    rw [beq_false_of_ne ne] at unsent
    exact ⟨cut sent part, unsent⟩
  · have whole := done reply List.prefix_rfl
    rw [beq_self_eq_true] at whole
    exact ⟨cut reply List.prefix_rfl, whole⟩

structure Keeping (r₀ : Registry) (d₀ : Disk FileName) (inbound₀ : Bytes) (served : List Served)
    (events : List Event) (r : Registry) (d : Disk FileName) (inbound outbound : Bytes) : Prop where
  conversation : Conversation r₀ d₀ true served events r d
  front : inbound₀ = handled served ++ inbound
  answered : outbound = replied served

namespace Keeping

theorem waits {taken rest : Bytes}
    (keeping : Keeping r₀ d₀ inbound₀ served events r d inbound outbound)
    (split : inbound = taken ++ rest) (within : InFrame taken) :
    Underway r₀ d₀ inbound₀ (d, ⟨rest, outbound⟩) true served events r d where
  conversation := keeping.conversation
  front := ⟨taken, within, nofun, by rw [keeping.front, split, List.append_assoc]⟩
  answered := keeping.answered
  disk := .inl rfl

theorem cut (keeping : Keeping r₀ d₀ inbound₀ served events r d (frame.bytes ++ inbound) outbound)
    (within : InFrame frame.bytes) {call : Call} (crashes : (r.call clock call).Crashes Disk.world d d') :
    Underway r₀ d₀ inbound₀ (d', ⟨inbound, outbound⟩) true served events r d :=
  { keeping.waits rfl within with disk := .inr ⟨_, _, crashes⟩ }

theorem answers (keeping : Keeping r₀ d₀ inbound₀ served events r d (frame.bytes ++ inbound) outbound)
    (fits : frame.Fits) (handles : Handles clock r d frame (.reply reply insists last) more r' d')
    (part : sent <+: reply) :
    Underway r₀ d₀ inbound₀ (d', ⟨inbound, outbound ++ sent⟩) ((!insists || sent == reply) && !last)
      (served ++ [⟨frame, reply, sent⟩]) (events ++ more) r' d' where
  conversation := keeping.conversation.next fits handles part
  front := by
    refine ⟨[], .of_length_le (Nat.zero_le _), fun _ => rfl, ?_⟩
    rw [List.append_nil, handled_concat, keeping.front, List.append_assoc]
  answered := by rw [replied_concat, keeping.answered]
  disk := .inl rfl

theorem wp_send {response : Response}
    (keeping : Keeping r₀ d₀ inbound₀ served events r d (frame.bytes ++ inbound) outbound)
    (fits : frame.Fits) (within : InFrame frame.bytes)
    (handles : Handles clock r d frame response more r' d') :
    (response.send >>= fun goesOn => pure (goesOn, r')).wp (Party.world Disk.world)
      (Passes r₀ d₀ inbound₀) (Turned r₀ d₀ inbound₀ served.length) (d', ⟨inbound, outbound⟩) := by
  rw [Program.wp_bind]
  cases response with
  | leave =>
      obtain ⟨-, rfl, rfl⟩ := handles.aside_of_leave
      have waits := keeping.waits rfl within
      exact ⟨⟨_, _, _, _, _, waits⟩, ⟨_, _, _, _, _, waits⟩, _, _, _, waits, nofun⟩
  | reply reply insists last =>
      apply wp_send_reply fun sent part => ⟨_, _, _, _, _, keeping.answers fits handles part⟩
      intro sent part
      have answers := keeping.answers fits handles part
      refine ⟨⟨_, _, _, _, _, answers⟩, _, _, _, answers, fun goesOn => ⟨goesOn, ?_, ?_⟩⟩
      · rw [List.length_append, List.length_singleton]
      · rw [handled_concat, keeping.front, List.append_assoc]

theorem wp_turn (keeping : Keeping r₀ d₀ inbound₀ served events r d inbound outbound)
    (clock : UInt64) :
    (r.turn clock).wp (Party.world Disk.world) (Passes r₀ d₀ inbound₀)
      (Turned r₀ d₀ inbound₀ served.length) (d, ⟨inbound, outbound⟩) := by
  have passes {taken rest : Bytes} (split : inbound = taken ++ rest) (within : InFrame taken) :
      Passes r₀ d₀ inbound₀ (d, ⟨rest, outbound⟩) := ⟨_, _, _, _, _, keeping.waits split within⟩
  have parts {taken rest : Bytes} (split : inbound = taken ++ rest) (within : InFrame taken) :
      Turned r₀ d₀ inbound₀ served.length (false, r) (d, ⟨rest, outbound⟩) :=
    ⟨_, _, _, keeping.waits split within, nofun⟩
  unfold Registry.turn
  rw [Program.wp_bind]
  apply wp_recvFrame
  · exact fun taken rest split within => passes split within
  intro result rest receipt
  obtain ⟨⟨taken, split, within⟩, -⟩ := receipt.taken
  cases result with
  | error e => exact ⟨passes split within, parts split within⟩
  | ok raw =>
      dsimp only
      cases decoded : Wire.decodeFrame raw with
      | error e => exact ⟨passes split within, parts split within⟩
      | ok frame =>
          obtain ⟨fits, rfl⟩ := Wire.decodeFrame_eq_ok.mp decoded
          have whole := (receipt.decodes (f := frame)).1
          obtain rfl : taken = frame.bytes := List.append_cancel_right (split.symm.trans whole)
          subst split
          dsimp only
          rw [Program.wp_bind, Program.wp_lift, Registry.serveFrame_eq]
          cases reacts : r.react frame with
          | respond response =>
              have handles : Handles clock r d frame response [] r d := .aside reacts
              exact ⟨passes rfl within, keeping.wp_send fits within handles⟩
          | call call respond =>
              show ((r.call clock call) >>= _).wp _ _ _ _
              rw [Program.wp_bind]
              apply Program.wp_mono (Program.wp_strongest _ d)
              · exact fun e crashes => ⟨_, _, _, _, _, keeping.cut within crashes⟩
              · rintro ⟨answer, r'⟩ d' ends
                have sends := keeping.wp_send fits within (.called reacts ends)
                exact ⟨Program.crash_of_wp sends, sends⟩

theorem wp_serveConnection (clock : Nat → UInt64) (fuel : Nat)
    (keeping : Keeping r₀ d₀ inbound₀ served events r d inbound outbound) :
    (r.serveConnection clock fuel).wp (Party.world Disk.world) (Passes r₀ d₀ inbound₀)
      (Parts r₀ d₀ inbound₀ (served.length + fuel)) (d, ⟨inbound, outbound⟩) := by
  induction fuel generalizing r d inbound outbound served events with
  | zero =>
      have here := keeping.waits (List.nil_append inbound).symm (.of_length_le (Nat.zero_le _))
      exact ⟨⟨_, _, _, _, _, here⟩, true, served, events, r, here, .inr ⟨rfl, rfl, rfl⟩⟩
  | succ fuel ih =>
      rw [Registry.serveConnection_succ, Program.wp_bind]
      apply Program.wp_mono (keeping.wp_turn (clock fuel)) fun _ passes => passes
      rintro ⟨goesOn, r'⟩ ⟨d', pipe⟩ ⟨_, served', events', underway, onward⟩
      dsimp only at underway onward ⊢
      split
      next goes =>
        obtain ⟨rfl, longer, front⟩ := onward goes
        have rest := ih ⟨underway.conversation, front, underway.answered⟩
        rw [longer, Nat.add_assoc, Nat.add_comm 1] at rest
        exact rest
      next stops => exact ⟨⟨_, _, _, _, _, underway⟩, _, _, _, _, underway, .inl rfl⟩

end Keeping

theorem length_le_handled (served : List Served) : served.length ≤ (handled served).length := by
  induction served with
  | nil => exact Nat.zero_le _
  | cons s served ih =>
      have positive := List.length_pos_iff.mpr s.frame.bytes_ne_nil
      rw [handled, List.flatMap_cons, List.length_append, List.length_cons, Nat.add_comm]
      exact Nat.add_le_add positive ih

end Connection

theorem Registry.wp_serveConnection (r : Registry) (d : Disk FileName) (clock : Nat → UInt64)
    (fuel : Nat) (inbound : Bytes) : (r.serveConnection clock fuel).wp (Party.world Disk.world)
      (Passes r d inbound) (Parts r d inbound fuel) (d, ⟨inbound, []⟩) := by
  have keeping : Keeping r d inbound [] [] r d inbound [] := ⟨.start, (List.nil_append _).symm, rfl⟩
  have serves := keeping.wp_serveConnection clock fuel
  rwa [List.length_nil, Nat.zero_add] at serves

/-- Whatever a client sends, and wherever the network or a crash cuts it off, a connection is a part
of a run of the registry: the frames at the front of the stream are handled once each and in order,
and what has been sent are the replies to them in the same order. -/
theorem connection_serves {openings : Openings} {events : List Event} {r : Registry} {d : Disk FileName}
    (run : Run openings events (.up r d)) (clock : Nat → UInt64) (fuel : Nat) (inbound : Bytes) :
    (∀ result d' pipe,
      (r.serveConnection clock fuel).Ends (Party.world Disk.world) (d, ⟨inbound, []⟩) result
        (d', pipe) →
      ∃ goesOn served more r', Conversation r d goesOn served more r' d' ∧
        Run openings (events ++ more) (.up r' d') ∧
        Consumed inbound goesOn served pipe.inbound ∧
        pipe.outbound = replied served ∧ (inbound.length < fuel → result = some r')) ∧
    ∀ d' pipe,
      (r.serveConnection clock fuel).Crashes (Party.world Disk.world) (d, ⟨inbound, []⟩)
        (d', pipe) →
      ∃ goesOn served more r' d'', Conversation r d goesOn served more r' d'' ∧
        Run openings (events ++ more) (.up r' d'') ∧
        Consumed inbound goesOn served pipe.inbound ∧
        pipe.outbound = replied served ∧
        (d' = d'' ∨ ∃ clock call,
          Run openings (events ++ more ++ [.crashed clock (some call)]) (.down d')) := by
  have serves := r.wp_serveConnection d clock fuel inbound
  refine ⟨fun result d' pipe ends => ?_, fun d' pipe crashes => ?_⟩
  · obtain ⟨goesOn, served, more, r', underway, finished⟩ := Program.wp_ends serves ends
    refine ⟨goesOn, served, more, r', underway.conversation, underway.conversation.run run,
      underway.front, underway.answered, fun enough => ?_⟩
    rcases finished with finished | ⟨-, -, turns⟩
    · exact finished
    · -- every turn takes at least one byte
      obtain ⟨taken, -, -, front⟩ := underway.front
      have long := length_le_handled served
      have size := congrArg List.length front
      rw [List.length_append, List.length_append] at size
      omega
  · obtain ⟨goesOn, served, more, r', d'', underway⟩ := Program.wp_crashes serves crashes
    have runs := underway.conversation.run run
    refine ⟨goesOn, served, more, r', d'', underway.conversation, runs, underway.front,
      underway.answered, underway.disk.imp_right ?_⟩
    rintro ⟨clock, call, cut⟩
    exact ⟨clock, call, runs.next (.cutCall cut) trivial⟩

def Registry.answerTo (r : Registry) (clock : UInt64) (frame : WireFrame) (d : Disk FileName) :
    Option (WireFrame × List Event × Registry × Disk FileName) :=
  match r.react frame with
  | .respond _ => none
  | .call call respond =>
      let ((answer, r'), d') := execute (r.call clock call) d
      match respond answer r' with
      | .reply reply true false =>
          (Wire.decodeFrame reply).toOption.map fun g => (g, [.called clock call answer], r', d')
      | _ => none

section Serving

variable {r r' : Registry} {d d' : Disk FileName} {clock : UInt64} {frame g : WireFrame}
  {more : List Event} {inbound outbound : Bytes}

theorem handles_of_answerTo (answers : r.answerTo clock frame d = some (g, more, r', d')) :
    g.Fits ∧ Handles clock r d frame (.reply g.bytes true false) more r' d' := by
  unfold Registry.answerTo at answers
  split at answers
  · cases answers
  next call respond reacts =>
    cases executed : execute (r.call clock call) d with
    | mk outcome d₁ =>
        obtain ⟨answer, r₁⟩ := outcome
        rw [executed] at answers
        dsimp only at answers
        split at answers
        case h_2 => cases answers
        next reply replies =>
          obtain ⟨g, decoded, same⟩ := Option.map_eq_some_iff.mp answers
          cases same
          cases decodes : Wire.decodeFrame reply with
          | error e =>
              rw [decodes] at decoded
              cases decoded
          | ok g' =>
              rw [decodes] at decoded
              cases decoded
              obtain ⟨fits, rfl⟩ := Wire.decodeFrame_eq_ok.mp decodes
              have handles := Handles.called reacts (ends_of_execute executed)
              rw [replies] at handles
              exact ⟨fits, handles⟩

theorem turn_ends (fits : frame.Fits)
    (handles : Handles clock r d frame (.reply g.bytes true false) more r' d') :
    (r.turn clock).Ends (Party.world Disk.world) (d, ⟨frame.bytes ++ inbound, outbound⟩) (true, r')
      (d', ⟨inbound, outbound ++ g.bytes⟩) := by
  have performed : (r.serveFrame clock frame).Ends Disk.world d (.reply g.bytes true false, r') d' := by
    rw [Registry.serveFrame_eq]
    generalize Response.reply g.bytes true false = response at handles
    cases handles with
    | aside reacts =>
        rw [reacts]
        exact .done
    | called reacts run =>
        rw [reacts]
        exact Program.ends_bind.mpr ⟨_, _, run, .done⟩
  unfold Registry.turn
  refine Program.ends_bind.mpr ⟨_, _, recvFrame_ends fits inbound, ?_⟩
  dsimp only
  rw [Wire.decodeFrame_eq_ok.mpr ⟨fits, rfl⟩]
  refine Program.ends_bind.mpr ⟨_, _, Program.ends_lift performed, ?_⟩
  exact Program.ends_bind.mpr
    ⟨true, _, Program.ends_bind.mpr ⟨_, _, sendAll_ends g.bytes, .done⟩, .done⟩

theorem turn_unreceived : (r.turn clock).Ends (Party.world Disk.world) (d, ⟨[], outbound⟩) (false, r)
    (d, ⟨[], outbound⟩) := by
  exact Program.ends_bind.mpr ⟨_, _, recvFrame_unreceived, .done⟩

theorem serveConnection_answered {clock : Nat → UInt64} {fuel : Nat} {result : Option Registry}
    {e : Disk FileName × Stream.Pipe} (fits : frame.Fits)
    (answers : r.answerTo (clock fuel) frame d = some (g, more, r', d'))
    (rest : (r'.serveConnection clock fuel).Ends (Party.world Disk.world)
      (d', ⟨inbound, outbound ++ g.bytes⟩) result e) :
    (r.serveConnection clock (fuel + 1)).Ends (Party.world Disk.world)
      (d, ⟨frame.bytes ++ inbound, outbound⟩) result e := by
  rw [Registry.serveConnection_succ]
  exact Program.ends_bind.mpr ⟨_, _, turn_ends fits (handles_of_answerTo answers).2, rest⟩

end Serving

def greeting : WireFrame :=
  ⟨.hello, Wire.encodeHello ⟨text "p1", 1, ⟨List.replicate 16 1, BootId.size_ones⟩, 1000, []⟩⟩

def offer : WireFrame :=
  ⟨.publishCapability, 0x01 :: ((encodeCapability leasedCapability
    (.empty : ByteWriter Limits.maxCanonicalRecordBytes)).data.getD [])⟩

def servesOffer : Bool :=
  match (Site.down Disk.empty).rehearse [.open .default 0 (List.replicate 16 7)] with
  | some (_, .up r d) =>
      (r.latest .capability (text "r1")).isNone &&
        match r.answerTo 0 greeting d with
        | some (_, _, r₁, d₁) =>
            match r₁.answerTo 0 offer d₁ with
            | some (_, _, r₂, _) => (r₂.latest .capability (text "r1")).isSome
            | none => false
        | none => false
  | _ => false

/-- A publisher is granted its lease, publishes a capability, and sends no more. -/
theorem connection_serves_offer : ∃ events r d inbound fuel r' d' pipe,
    Run .any events (.up r d) ∧ inbound.length < fuel ∧
    (r.serveConnection (fun _ => 0) fuel).Ends (Party.world Disk.world) (d, ⟨inbound, []⟩) (some r')
      (d', pipe) ∧
    r.latest .capability (text "r1") = none ∧ (r'.latest .capability (text "r1")).isSome ∧
    ∃ goesOn served more, Conversation r d goesOn served more r' d' ∧
      Run .any (events ++ more) (.up r' d') ∧ Consumed inbound goesOn served pipe.inbound ∧
      pipe.outbound = replied served := by
  have serves : servesOffer = true := by decide +kernel
  unfold servesOffer at serves
  split at serves
  case h_2 => cases serves
  next events r d rehearsed =>
    obtain ⟨none, serves⟩ := (Bool.and_eq_true ..).mp serves
    split at serves
    case h_2 => cases serves
    next g₁ more₁ r₁ d₁ greeted =>
      split at serves
      case h_2 => cases serves
      next g₂ more₂ r₂ d₂ offered =>
        have run : Run .any events (.up r d) := run_of_rehearse rehearsed
        have greetingFits : greeting.Fits := show _ ≤ _ by decide +kernel
        have offerFits : offer.Fits := show _ ≤ _ by decide +kernel
        have ends (fuel : Nat) : (r.serveConnection (fun _ => 0) (fuel + 3)).Ends
            (Party.world Disk.world) (d, ⟨greeting.bytes ++ (offer.bytes ++ []), []⟩) (some r₂)
            (d₂, ⟨[], [] ++ g₁.bytes ++ g₂.bytes⟩) := by
          refine serveConnection_answered greetingFits greeted ?_
          refine serveConnection_answered offerFits offered ?_
          rw [Registry.serveConnection_succ]
          exact Program.ends_bind.mpr ⟨_, _, turn_unreceived, .done⟩
        have enough (n : Nat) : n < n + 3 := Nat.lt_add_of_pos_right (by decide)
        obtain ⟨goesOn, served, more, r', conversation, continues, consumed, answered, finished⟩ :=
          (connection_serves run (fun _ => 0) _ _).1 _ _ _ (ends _)
        obtain rfl := Option.some.inj (finished (enough _))
        exact ⟨events, r, d, _, _, r₂, d₂, _, run, enough _, ends _, Option.isNone_iff_eq_none.mp none,
          serves, goesOn, served, more, conversation, continues, consumed, answered⟩

end QoSFabric
