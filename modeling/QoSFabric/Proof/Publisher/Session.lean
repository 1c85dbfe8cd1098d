import QoSFabric.Model.Publisher
import QoSFabric.Proof.Server.Connection
import QoSFabric.Proof.Registry.Publication

namespace QoSFabric

open Interaction FileSystem Wire

def stream (frames : List WireFrame) : Bytes := frames.flatMap WireFrame.bytes

theorem stream_append (fs gs : List WireFrame) : stream (fs ++ gs) = stream fs ++ stream gs :=
  List.flatMap_append

theorem stream_singleton (f : WireFrame) : stream [f] = f.bytes := List.flatMap_singleton ..

theorem bytes_inj_of_prefix {f g : WireFrame} {bytes : Bytes} (fits : f.Fits) (gits : g.Fits)
    (first : f.bytes <+: bytes) (second : g.bytes <+: bytes) : f = g := by
  have f' := decodeFramePrefix_eq_ok.mpr ⟨fits, rfl, first⟩
  rw [decodeFramePrefix_eq_ok.mpr ⟨gits, rfl, second⟩] at f'
  exact (Prod.mk.inj (Except.ok.inj f')).1.symm

theorem isPrefix_of_stream {fs gs : List WireFrame} (fit : ∀ f ∈ fs, f.Fits) (git : ∀ g ∈ gs, g.Fits)
    (pre : stream fs <+: stream gs) : fs <+: gs := by
  induction fs generalizing gs with
  | nil => exact List.nil_prefix
  | cons f fs ih =>
      have first : f.bytes <+: stream gs := (List.prefix_append f.bytes (stream fs)).trans pre
      cases gs with
      | nil => exact absurd (List.prefix_nil.mp first) f.bytes_ne_nil
      | cons g gs =>
          obtain rfl := bytes_inj_of_prefix (fit f List.mem_cons_self) (git g List.mem_cons_self) first
            (List.prefix_append g.bytes (stream gs))
          have rest : stream fs <+: stream gs := (List.prefix_append_right_inj f.bytes).mp pre
          exact (List.prefix_cons_inj f).mpr (ih (fun f mem => fit f (List.mem_cons_of_mem _ mem))
            (fun g mem => git g (List.mem_cons_of_mem _ mem)) rest)

section Exchange

variable {State : Type} {V : Program.World (Request FileName) Reply State} {s : State}
  {inbound outbound : Bytes}

theorem wp_exchange {frame : Bytes} {type : MessageType}
    {post : Option Bytes → State × Stream.Pipe → Prop}
    (failed : ∀ sent taken rest, sent <+: frame → inbound = taken ++ rest →
      post none (s, ⟨rest, outbound ++ sent⟩))
    (answered : ∀ (reply : WireFrame) rest, reply.Fits → reply.type = type →
      inbound = reply.bytes ++ rest → post (some reply.body) (s, ⟨rest, outbound ++ frame⟩)) :
    (exchange frame type).wp (Party.world V) (fun _ => True) post (s, ⟨inbound, outbound⟩) := by
  unfold exchange
  rw [Program.wp_bind]
  apply wp_sendAll
  · exact fun _ _ => trivial
  · exact fun reason sent part _ => ⟨trivial, failed sent [] inbound part rfl⟩
  dsimp only
  rw [Program.wp_bind]
  apply wp_recvFrame
  · exact fun _ _ _ _ => trivial
  intro result rest receipt
  obtain ⟨taken, split, -⟩ := receipt.taken.1
  have lost := failed frame taken rest List.prefix_rfl split
  cases result with
  | error e => exact ⟨trivial, lost⟩
  | ok raw =>
      dsimp only
      cases decoded : decodeFrame raw with
      | error e => exact ⟨trivial, lost⟩
      | ok reply =>
          obtain ⟨fits, rfl⟩ := decodeFrame_eq_ok.mp decoded
          refine ⟨trivial, ?_⟩
          show post (if reply.type = type then some reply.body else none) _
          split
          next same => exact answered reply rest fits same (receipt.decodes (f := reply)).1
          next other => exact lost

end Exchange

structure Exchanged where
  value : ResourceCapability
  encoded : Bytes
  reply : WireFrame
  ack : PublishAckMessage

def publicationFrame (encoded : Bytes) : WireFrame := ⟨.publishCapability, 0x01 :: encoded⟩

structure Publication (p : Declarant) (value : ResourceCapability) (encoded : Bytes) : Prop where
  declared : ∃ now, p.declaration now = some value
  written : (encodeCapability value (.empty : ByteWriter Limits.maxCanonicalRecordBytes)).data =
    some encoded
  fits : (publicationFrame encoded).Fits

structure Exchanged.Sound (p : Declarant) (x : Exchanged) : Prop where
  publication : Publication p x.value x.encoded
  fits : x.reply.Fits
  read : decodePublishAck x.reply.body = .ok x.ack

theorem Declarant.publication_eq_some {p : Declarant} {now : UInt64} {frame : Bytes}
    (publication : p.publication now = some frame) :
    ∃ value encoded, Publication p value encoded ∧ frame = (publicationFrame encoded).bytes := by
  unfold Declarant.publication at publication
  obtain ⟨value, declared, publication⟩ := Option.bind_eq_some_iff.mp publication
  obtain ⟨body, written, publication⟩ := Option.bind_eq_some_iff.mp publication
  obtain ⟨encoded, data, rfl⟩ := Option.map_eq_some_iff.mp written
  dsimp only at publication
  split at publication
  · cases publication
  next filled =>
    have fits : (publicationFrame encoded).Fits :=
      Wire.encodeFrame_ne_nil.mp fun empty => filled (List.isEmpty_iff.mpr empty)
    obtain rfl := Option.some.inj publication
    exact ⟨value, encoded, ⟨⟨now, declared⟩, data, fits⟩, encodeFrame_of_fits fits⟩

def Final (p : Declarant) (frame : WireFrame) : Prop :=
  frame.Fits ∧ (frame = ⟨.bye, []⟩ ∨ ∃ value encoded, Publication p value encoded ∧
    frame = publicationFrame encoded)

structure Dialogue (p : Declarant) (turns : Nat) (inbound outbound : Bytes)
    (result : Nat × List PublishAckMessage) (pipe : Stream.Pipe) (xs : List Exchanged)
    (last : WireFrame) : Prop where
  sound : ∀ x ∈ xs, x.Sound p
  acks : result.2 = xs.map Exchanged.ack
  final : Final p last
  sent : ∃ sent, sent <+: last.bytes ∧
    pipe.outbound = outbound ++ stream (xs.map fun x => publicationFrame x.encoded) ++ sent
  taken : ∃ taken, inbound = stream (xs.map Exchanged.reply) ++ taken ++ pipe.inbound
  finished : result.1 = 0 → xs.length = turns ∧ ∀ x ∈ xs, x.ack.status = .ok

theorem final_bye (p : Declarant) : Final p ⟨.bye, []⟩ := ⟨show _ ≤ _ by decide, .inl rfl⟩

theorem nothing_exchanged {p : Declarant} {turns code : Nat} {frame : WireFrame}
    {inbound outbound sent taken rest : Bytes} (final : Final p frame) (part : sent <+: frame.bytes)
    (split : inbound = taken ++ rest) (finished : code = 0 → 0 = turns) :
    Dialogue p turns inbound outbound (code, []) ⟨rest, outbound ++ sent⟩ [] frame where
  sound _ mem := absurd mem List.not_mem_nil
  acks := rfl
  final := final
  sent := ⟨sent, part, by rw [List.map_nil, stream, List.flatMap_nil, List.append_nil]⟩
  taken := ⟨taken, split⟩
  finished done := ⟨finished done, fun _ mem => absurd mem List.not_mem_nil⟩

section Publisher

variable {State : Type} {V : Program.World (Request FileName) Reply State} {s : State}
  {inbound outbound : Bytes} {p : Declarant}

theorem wp_publishAll (clock : Nat → UInt64) (turns : Nat) :
    (p.publishAll clock turns).wp (Party.world V) (fun _ => True)
      (fun result at_ => ∃ xs last, Dialogue p turns inbound outbound result at_.2 xs last)
      (s, ⟨inbound, outbound⟩) := by
  induction turns generalizing inbound outbound with
  | zero =>
      unfold Declarant.publishAll
      rw [Program.wp_bind]
      -- whatever is sent of the farewell
      have parting (sent : Bytes) (part : sent <+: WireFrame.bytes ⟨.bye, []⟩) :
          Dialogue p 0 inbound outbound (0, []) ⟨inbound, outbound ++ sent⟩ [] ⟨.bye, []⟩ :=
        nothing_exchanged (final_bye p) part (List.nil_append inbound).symm fun _ => rfl
      rw [show Wire.encodeFrame .bye [] = WireFrame.bytes ⟨.bye, []⟩ from
        encodeFrame_of_fits (f := ⟨.bye, []⟩) (show _ ≤ _ by decide)]
      apply wp_sendAll
      · exact fun _ _ => trivial
      · exact fun reason sent part _ => ⟨trivial, [], _, parting sent part⟩
      · exact ⟨trivial, [], _, parting _ List.prefix_rfl⟩
  | succ turns ih =>
      unfold Declarant.publishAll
      -- a process that gives up before its next publication is answered
      have gives (frame : WireFrame) (final : Final p frame) (sent taken rest : Bytes)
          (part : sent <+: frame.bytes) (split : inbound = taken ++ rest) :
          Dialogue p (turns + 1) inbound outbound (1, []) ⟨rest, outbound ++ sent⟩ [] frame :=
        nothing_exchanged final part split fun done => absurd done (by decide)
      cases publication : p.publication (clock turns) with
      | none =>
          have nothing := gives _ (final_bye p) [] [] inbound List.nil_prefix rfl
          rw [List.append_nil] at nothing
          exact ⟨trivial, [], _, nothing⟩
      | some frame =>
          obtain ⟨value, encoded, published, rfl⟩ := Declarant.publication_eq_some publication
          have final : Final p (publicationFrame encoded) :=
            ⟨published.fits, .inr ⟨value, encoded, published, rfl⟩⟩
          dsimp only
          rw [Program.wp_bind]
          apply wp_exchange
          · intro sent taken rest part split
            exact ⟨trivial, [], _, gives _ final sent taken rest part split⟩
          intro reply rest fits type split
          dsimp only
          cases read : decodePublishAck reply.body with
          | error e =>
              exact ⟨trivial, [], _, gives _ final _ _ rest List.prefix_rfl split⟩
          | ok ack =>
              have sound : Exchanged.Sound p ⟨value, encoded, reply, ack⟩ := ⟨published, fits, read⟩
              dsimp only
              split
              next refused =>
                refine ⟨trivial, [⟨value, encoded, reply, ack⟩], ⟨.bye, []⟩, ?_⟩
                constructor
                · intro x mem
                  obtain rfl := List.mem_singleton.mp mem
                  exact sound
                · rfl
                · exact final_bye p
                · exact ⟨[], List.nil_prefix, by
                    rw [List.map_singleton, stream_singleton, List.append_nil]⟩
                · exact ⟨[], by rw [List.map_singleton, stream_singleton, List.append_nil, split]⟩
                · exact fun done => absurd done (Nat.succ_ne_zero 1)
              next accepted =>
                rw [Program.wp_bind]
                refine Program.wp_mono ih (fun _ _ => trivial) ?_
                rintro ⟨code, acks⟩ ⟨t, pipe⟩ ⟨xs, last, dialogue⟩
                refine ⟨trivial, ⟨value, encoded, reply, ack⟩ :: xs, last, ?_⟩
                obtain ⟨sent, part, outbound'⟩ := dialogue.sent
                obtain ⟨taken, rest'⟩ := dialogue.taken
                constructor
                · intro x mem
                  rcases List.mem_cons.mp mem with rfl | mem
                  · exact sound
                  · exact dialogue.sound x mem
                · exact congrArg (ack :: ·) dialogue.acks
                · exact dialogue.final
                · refine ⟨sent, part, outbound'.trans ?_⟩
                  rw [List.map_cons, List.append_assoc outbound]
                  rfl
                · refine ⟨taken, ?_⟩
                  rw [split, rest', List.map_cons, ← List.append_assoc, ← List.append_assoc]
                  rfl
                · intro done
                  obtain ⟨count, all⟩ := dialogue.finished done
                  refine ⟨congrArg (· + 1) count, fun x mem => ?_⟩
                  rcases List.mem_cons.mp mem with rfl | mem
                  · exact not_not.mp accepted
                  · exact all x mem

structure Said (o : PublisherOptions) (inbound : Bytes) (report : SessionReport)
    (pipe : Stream.Pipe) (p : Declarant) (greeting : List (WireFrame × WireFrame))
    (xs : List Exchanged) (last : WireFrame) : Prop where
  options : p.options = o
  publisher : p.publisher = o.publisherId
  greets : ∀ g ∈ greeting, g.1.type = .hello ∧ g.1.Fits ∧ g.2.Fits
  sound : ∀ x ∈ xs, x.Sound p
  acks : report.acks = xs.map Exchanged.ack
  final : last.type = .hello ∧ last.Fits ∨ Final p last
  sent : ∃ sent, sent <+: last.bytes ∧ pipe.outbound =
    stream (greeting.map Prod.fst ++ xs.map fun x => publicationFrame x.encoded) ++ sent
  taken : ∃ taken, inbound =
    stream (greeting.map Prod.snd ++ xs.map Exchanged.reply) ++ taken ++ pipe.inbound
  finished : report.exitCode = 0 → xs.length = o.publishes.toNat ∧ ∀ x ∈ xs, x.ack.status = .ok

theorem Said.early {o : PublisherOptions} {report : SessionReport} {last : WireFrame}
    {sent taken rest : Bytes} (acks : report.acks = []) (failed : report.exitCode ≠ 0)
    (final : last.type = .hello ∧ last.Fits ∨ Final ⟨o, o.publisherId, 0, 0⟩ last)
    (part : sent <+: last.bytes) (split : inbound = taken ++ rest) :
    Said o inbound report ⟨rest, sent⟩ ⟨o, o.publisherId, 0, 0⟩ [] [] last where
  options := rfl
  publisher := rfl
  greets _ mem := absurd mem List.not_mem_nil
  sound _ mem := absurd mem List.not_mem_nil
  acks := acks
  final := final
  sent := ⟨sent, part, rfl⟩
  taken := ⟨taken, split⟩
  finished done := absurd done failed

theorem wp_session (o : PublisherOptions) (boot : BootId) (clock : Nat → UInt64)
    (incarnation : PublisherIncarnation) :
    (o.session boot clock incarnation).wp (Party.world V) (fun _ => True)
      (fun report at_ => ∃ p greeting xs last, Said o inbound report at_.2 p greeting xs last)
      (s, ⟨inbound, []⟩) := by
  -- a process that ends without any publication
  have gives {report : SessionReport} {last : WireFrame} (acks : report.acks = [])
      (failed : report.exitCode ≠ 0)
      (final : last.type = .hello ∧ last.Fits ∨ Final ⟨o, o.publisherId, 0, 0⟩ last)
      {sent taken rest : Bytes} (part : sent <+: last.bytes) (split : inbound = taken ++ rest) :
      ∃ p greeting xs last, Said o inbound report ⟨rest, sent⟩ p greeting xs last :=
    ⟨_, _, _, _, Said.early acks failed final part split⟩
  have silent : ∃ p greeting xs last, Said o inbound ⟨1, none, []⟩ ⟨inbound, []⟩ p greeting xs last :=
    gives rfl (by decide) (.inr (final_bye ⟨o, o.publisherId, 0, 0⟩)) List.nil_prefix
      (List.nil_append inbound).symm
  unfold PublisherOptions.session
  cases parsed : parseStringId o.publisherId Limits.maxIdentifierLen with
  | error e => exact ⟨trivial, silent⟩
  | ok publisher =>
      have named : publisher = o.publisherId := by
        unfold parseStringId at parsed
        split at parsed
        · exact (Except.ok.inj parsed).symm
        · cases parsed
      subst named
      dsimp only
      split
      next => exact ⟨trivial, silent⟩
      next filled =>
        generalize encodeHello _ = body at filled ⊢
        have fits : WireFrame.Fits ⟨.hello, body⟩ :=
          Wire.encodeFrame_ne_nil.mp fun empty => filled (List.isEmpty_iff.mpr empty)
        have hello : WireFrame.type ⟨.hello, body⟩ = .hello ∧ WireFrame.Fits ⟨.hello, body⟩ :=
          ⟨rfl, fits⟩
        rw [Program.wp_bind, show Wire.encodeFrame .hello body = WireFrame.bytes ⟨.hello, body⟩ from
          encodeFrame_of_fits fits]
        apply wp_exchange
        · intro sent taken rest part split
          exact ⟨trivial, gives rfl (by decide) (.inl hello) part split⟩
        intro reply rest replyFits type split
        dsimp only
        rw [List.nil_append]
        cases read : decodeHelloAck reply.body with
        | error e =>
            exact ⟨trivial, gives rfl (by decide) (.inl hello) List.prefix_rfl split⟩
        | ok ack =>
            dsimp only
            split
            next refused =>
              exact ⟨trivial, gives rfl (Nat.succ_ne_zero 1) (.inl hello) List.prefix_rfl split⟩
            next granted =>
              rw [Program.wp_bind]
              refine Program.wp_mono (wp_publishAll clock _) (fun _ _ => trivial) ?_
              rintro ⟨code, acks⟩ ⟨t, pipe⟩ ⟨xs, last, dialogue⟩
              refine ⟨trivial, _, [(⟨.hello, body⟩, reply)], xs, last, rfl, rfl, ?_, dialogue.sound,
                dialogue.acks, .inr dialogue.final, ?_, ?_, dialogue.finished⟩
              · intro g mem
                obtain rfl := List.mem_singleton.mp mem
                exact ⟨rfl, fits, replyFits⟩
              · obtain ⟨sent, part, outbound⟩ := dialogue.sent
                exact ⟨sent, part, outbound⟩
              · obtain ⟨taken, rest'⟩ := dialogue.taken
                refine ⟨taken, ?_⟩
                rw [split, rest', ← List.append_assoc, ← List.append_assoc]
                rfl

theorem wp_run (o : PublisherOptions) (boot : BootId) (clock : Nat → UInt64) :
    (o.run boot clock).wp (Party.world V) (fun _ => True)
      (fun report at_ => ∃ p greeting xs last, Said o inbound report at_.2 p greeting xs last)
      (s, ⟨inbound, []⟩) := by
  unfold PublisherOptions.run
  rw [Program.wp_bind, Program.wp_lift]
  refine Program.wp_mono (Program.wp_strongest _ s) (fun _ _ => trivial) ?_
  intro claimed s' _
  cases claimed with
  | error e =>
      exact ⟨trivial, _, _, _, _, Said.early rfl (by decide)
        (.inr (final_bye ⟨o, o.publisherId, 0, 0⟩)) List.nil_prefix
          (List.nil_append inbound).symm⟩
  | ok incarnation => exact wp_session o boot clock incarnation

end Publisher

end QoSFabric
