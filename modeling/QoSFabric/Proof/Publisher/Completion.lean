import QoSFabric.Proof.Publisher.Session

namespace QoSFabric

open Interaction FileSystem

section Completion

variable {α State : Type} {V : Program.World (Request FileName) Reply State} {s : State}
  {r r' : Registry} {d d' : Disk FileName} {frame g : WireFrame} {more : List Event} {fuel : Nat}
  {clock clock' : Nat → UInt64}

theorem meets_exchange {k : Option Bytes → Connected α} (fits : frame.Fits)
    (answers : r.answerTo (clock' fuel) frame d = some (g, more, r', d')) :
    Relation.ReflTransGen (Meets V Disk.world)
      ⟨exchange frame.bytes g.type >>= k, r.serveConnection clock' (fuel + 1), s, d, [], []⟩
      ⟨k (some g.body), r'.serveConnection clock' fuel, s, d', [], []⟩ := by
  obtain ⟨gits, handles⟩ := handles_of_answerTo answers
  rw [exchange, Program.bind_assoc, Registry.serveConnection_succ]
  refine (Meets.left_ends (sendAll_ends frame.bytes)).trans ?_
  have turned : (r.turn (clock' fuel)).Ends (Party.world Disk.world) (d, ⟨frame.bytes ++ [], []⟩)
      (true, r') (d', ⟨[], [] ++ g.bytes⟩) := turn_ends fits handles
  rw [List.append_nil] at turned
  refine (Meets.right_ends turned).trans ?_
  dsimp only
  rw [if_pos rfl, Program.bind_assoc]
  have received : recvFrame.Ends (Party.world V) (s, ⟨g.bytes ++ [], []⟩) (.ok g.bytes)
      (s, ⟨[], []⟩) := recvFrame_ends gits []
  rw [List.append_nil] at received
  refine (Meets.left_ends received).trans ?_
  dsimp only
  rw [Wire.decodeFrame_eq_ok.mpr ⟨gits, rfl⟩]
  dsimp only
  rw [if_pos rfl]
  exact .refl

def Declarant.rehearse (p : Declarant) (clock clock' : Nat → UInt64) :
    Nat → Nat → Registry → Disk FileName → Option (List PublishAckMessage)
  | 0, _, _, _ => some []
  | left + 1, fuel + 1, r, d => do
      let bytes ← p.publication (clock left)
      let frame ← (Wire.decodeFrame bytes).toOption
      let (g, _, r, d) ← r.answerTo (clock' fuel) frame d
      let ack ← (Wire.decodePublishAck g.body).toOption
      if g.type = .publishAck ∧ ack.status = .ok then
        (p.rehearse clock clock' left fuel r d).map (ack :: ·)
      else none
  | _, _, _, _ => none

theorem eq_ok_of_toOption {β : Type} {result : Result β} {b : β} (some : result.toOption = some b) :
    result = .ok b := by
  cases result with
  | error e => cases some
  | ok b' =>
      cases some
      rfl

theorem meets_of_rehearse {p : Declarant} {left : Nat} {acks : List PublishAckMessage}
    (rehearsed : p.rehearse clock clock' left fuel r d = some acks)
    (k : Nat × List PublishAckMessage → Connected α) : ∃ q d' toRight toLeft,
      Relation.ReflTransGen (Meets V Disk.world)
        ⟨p.publishAll clock left >>= k, r.serveConnection clock' fuel, s, d, [], []⟩
        ⟨k (0, acks), q, s, d', toRight, toLeft⟩ := by
  induction left generalizing fuel r d acks k with
  | zero =>
      obtain rfl : acks = [] := (Option.some.inj (by cases fuel <;> exact rehearsed)).symm
      rw [Declarant.publishAll, Program.bind_assoc]
      exact ⟨_, _, _, _, Meets.left_ends (sendAll_ends _)⟩
  | succ left ih =>
      cases fuel with
      | zero => cases rehearsed
      | succ fuel =>
          unfold Declarant.rehearse at rehearsed
          obtain ⟨bytes, published, rehearsed⟩ := Option.bind_eq_some_iff.mp rehearsed
          obtain ⟨frame, decoded, rehearsed⟩ := Option.bind_eq_some_iff.mp rehearsed
          obtain ⟨⟨g, more, r', d'⟩, answers, rehearsed⟩ := Option.bind_eq_some_iff.mp rehearsed
          obtain ⟨ack, read, rehearsed⟩ := Option.bind_eq_some_iff.mp rehearsed
          split at rehearsed
          case isFalse => cases rehearsed
          next accepted =>
            obtain ⟨type, status⟩ := accepted
            obtain ⟨acks, rest, rfl⟩ := Option.map_eq_some_iff.mp rehearsed
            obtain ⟨fits, rfl⟩ := Wire.decodeFrame_eq_ok.mp (eq_ok_of_toOption decoded)
            obtain ⟨q, d'', toRight, toLeft, meets⟩ := ih rest fun x => k (x.1, ack :: x.2)
            refine ⟨q, d'', toRight, toLeft, .trans ?_ meets⟩
            rw [Declarant.publishAll, published]
            dsimp only
            rw [Program.bind_assoc, ← type]
            refine (meets_exchange fits answers).trans ?_
            dsimp only
            rw [eq_ok_of_toOption read]
            dsimp only
            rw [if_neg (not_not.mpr status), Program.bind_assoc]
            exact .refl

def PublisherOptions.rehearse (o : PublisherOptions) (boot : BootId) (clock clock' : Nat → UInt64) :
    Nat → Registry → Disk FileName → Option SessionReport
  | fuel + 1, r, d => do
      let publisher ← (parseStringId o.publisherId Limits.maxIdentifierLen).toOption
      let frame ← (Wire.decodeFrame (Wire.encodeFrame .hello (Wire.encodeHello
        ⟨publisher, 1, boot, o.ttlMs, text "qosfabric_publisher/1.0.0"⟩))).toOption
      let (g, _, r, d) ← r.answerTo (clock' fuel) frame d
      let ack ← (Wire.decodeHelloAck g.body).toOption
      if g.type = .helloAck ∧ ack.status = .ok then
        (Declarant.rehearse ⟨o, publisher, 1, ack.epoch⟩ clock clock' o.publishes.toNat fuel r d).map
          fun acks => ⟨0, some ack, acks⟩
      else none
  | 0, _, _ => none

theorem session_meets {o : PublisherOptions} {boot : BootId} {report : SessionReport}
    (unbooted : o.bootFile = []) (rehearsed : o.rehearse boot clock clock' fuel r d = some report) :
    ∃ q d' toRight toLeft, Relation.ReflTransGen (Meets V Disk.world)
      ⟨o.run boot clock, r.serveConnection clock' fuel, s, d, [], []⟩
      ⟨.done report, q, s, d', toRight, toLeft⟩ := by
  cases fuel with
  | zero => cases rehearsed
  | succ fuel =>
      unfold PublisherOptions.rehearse at rehearsed
      obtain ⟨publisher, parsed, rehearsed⟩ := Option.bind_eq_some_iff.mp rehearsed
      obtain ⟨frame, decoded, rehearsed⟩ := Option.bind_eq_some_iff.mp rehearsed
      obtain ⟨⟨g, more, r', d'⟩, answers, rehearsed⟩ := Option.bind_eq_some_iff.mp rehearsed
      obtain ⟨ack, read, rehearsed⟩ := Option.bind_eq_some_iff.mp rehearsed
      split at rehearsed
      case isFalse => cases rehearsed
      next accepted =>
        obtain ⟨type, status⟩ := accepted
        obtain ⟨acks, published, rfl⟩ := Option.map_eq_some_iff.mp rehearsed
        obtain ⟨fits, whole⟩ := Wire.decodeFrame_eq_ok.mp (eq_ok_of_toOption decoded)
        obtain ⟨q, d'', toRight, toLeft, meets⟩ := meets_of_rehearse published
          fun x => pure (SessionReport.mk x.1 (some ack) x.2)
        refine ⟨q, d'', toRight, toLeft, .trans ?_ meets⟩
        -- without a boot file, every process is the first
        have first : o.run boot clock = o.session boot clock 1 := by
          unfold PublisherOptions.run
          rw [unbooted]
          rfl
        rw [first, PublisherOptions.session, eq_ok_of_toOption parsed]
        dsimp only
        rw [whole, if_neg (by simpa using frame.bytes_ne_nil), ← type]
        refine (meets_exchange fits answers).trans ?_
        dsimp only
        rw [eq_ok_of_toOption read]
        dsimp only
        rw [if_neg (not_not.mpr status)]

end Completion

end QoSFabric
