import QoSFabric.Model.Net
import QoSFabric.Proof.Wire.Framing

/-!
# Frames over a network

A buffer is sent and received whole, whatever the portions in which the network moves it. A frame
that is received is the one the decoder finds at the front of the stream, and no more of the stream
is taken than its bytes.
-/

namespace QoSFabric

open Interaction Wire

variable {State : Type} {V : Program.World (FileSystem.Request FileName) FileSystem.Reply State}
  {s : State} {inbound outbound : Bytes}

section Weakest

variable {crash : State × Stream.Pipe → Prop}

theorem wp_sendAll {post : Result Unit → State × Stream.Pipe → Prop} {bytes : Bytes}
    (cut : ∀ sent, sent <+: bytes → crash (s, ⟨inbound, outbound ++ sent⟩))
    (failed : ∀ reason sent, sent <+: bytes → sent ≠ bytes →
      post (.error (socketError reason)) (s, ⟨inbound, outbound ++ sent⟩))
    (done : post (.ok ()) (s, ⟨inbound, outbound ++ bytes⟩)) :
    (sendAll bytes).wp (Party.world V) crash post (s, ⟨inbound, outbound⟩) := by
  induction size : bytes.length using Nat.strong_induction_on generalizing bytes outbound with
  | _ n ih =>
      have before : crash (s, ⟨inbound, outbound⟩) := by
        have nothing := cut [] List.nil_prefix
        rwa [List.append_nil] at nothing
      rw [sendAll]
      split
      next ended =>
        subst ended
        rw [List.append_nil] at done
        exact ⟨before, done⟩
      next more =>
        have positive := List.length_pos_iff.mpr more
        rw [Party.wp_send]
        refine ⟨before, fun reason => ?_, fun written some fits => ?_⟩
        · have nothing := failed reason [] List.nil_prefix (Ne.symm more)
          rw [List.append_nil] at nothing
          exact ⟨before, nothing⟩
        · have part : (bytes.take maxChunk).take written = bytes.take written := by
            rw [List.take_take, Nat.min_eq_left]
            exact Nat.le_trans fits (List.length_take_le ..)
          have whole := List.take_append_drop written bytes
          rw [part]
          -- what is sent of the rest is sent behind the portion
          have behind {sent : Bytes} (pre : sent <+: bytes.drop written) :
              outbound ++ bytes.take written ++ sent = outbound ++ (bytes.take written ++ sent) ∧
                bytes.take written ++ sent <+: bytes := by
            refine ⟨List.append_assoc .., ?_⟩
            have := (List.prefix_append_right_inj (bytes.take written)).mpr pre
            rwa [whole] at this
          refine ih (bytes.drop written).length ?_ (fun sent pre => ?_) (fun reason sent pre ne => ?_)
            ?_ rfl
          · rw [List.length_drop]
            omega
          · rw [(behind pre).1]
            exact cut _ (behind pre).2
          · rw [(behind pre).1]
            refine failed reason _ (behind pre).2 fun all => ne ?_
            exact List.append_cancel_left (all.trans whole.symm)
          · rw [List.append_assoc, whole]
            exact done

theorem wp_recvExact {post : Result Bytes → State × Stream.Pipe → Prop} {count : Nat}
    (cut : ∀ got rest, inbound = got ++ rest → got.length ≤ count → crash (s, ⟨rest, outbound⟩))
    (failed : ∀ reason got rest, inbound = got ++ rest → got.length < count →
      post (.error (socketError reason)) (s, ⟨rest, outbound⟩))
    (done : ∀ got rest, inbound = got ++ rest → got.length = count →
      post (.ok got) (s, ⟨rest, outbound⟩)) :
    (recvExact count).wp (Party.world V) crash post (s, ⟨inbound, outbound⟩) := by
  induction count using Nat.strong_induction_on generalizing inbound post with
  | _ count ih =>
      have before : crash (s, ⟨inbound, outbound⟩) := cut [] inbound rfl (Nat.zero_le _)
      rw [recvExact]
      split
      next ended =>
        subst ended
        exact ⟨before, done [] inbound rfl rfl⟩
      next more =>
        rw [Party.wp_receive]
        refine ⟨before, fun reason => ⟨before, failed reason [] inbound rfl (Nat.pos_of_ne_zero more)⟩, ?_⟩
        intro chunk rest filled taken fits
        have positive := List.length_pos_iff.mpr filled
        obtain rfl : inbound = chunk ++ rest := taken
        dsimp only
        rw [Program.wp_bind]
        have behind {got rest' : Bytes} (split : rest = got ++ rest') :
            chunk ++ rest = chunk ++ got ++ rest' := by rw [split, List.append_assoc]
        refine ih (count - chunk.length) (by omega) ?_ ?_ ?_
        · intro got rest' split short
          exact cut _ _ (behind split) (by rw [List.length_append]; omega)
        · intro reason got rest' split short
          refine ⟨cut _ _ (behind split) (by rw [List.length_append]; omega), ?_⟩
          exact failed reason _ _ (behind split) (by rw [List.length_append]; omega)
        · intro got rest' split all
          refine ⟨cut _ _ (behind split) (by rw [List.length_append]; omega), ?_⟩
          exact done _ _ (behind split) (by rw [List.length_append]; omega)

def InFrame (taken : Bytes) : Prop :=
  Wire.frameHeaderBytes < taken.length →
    LittleEndian.decode (taken.take 4) ≤ Limits.maxWireFrameBytes ∧
    taken.length ≤ Wire.frameHeaderBytes + LittleEndian.decode (taken.take 4)

theorem InFrame.of_length_le {taken : Bytes} (short : taken.length ≤ Wire.frameHeaderBytes) :
    InFrame taken := fun long => absurd short (Nat.not_le.mpr long)

theorem InFrame.of_header {header body : Bytes} (size : header.length = Wire.frameHeaderBytes)
    (fits : LittleEndian.decode (header.take 4) ≤ Limits.maxWireFrameBytes)
    (declared : body.length ≤ LittleEndian.decode (header.take 4)) : InFrame (header ++ body) := by
  intro _
  rw [List.take_append_of_le_length (by rw [size]; decide), List.length_append, size]
  exact ⟨fits, Nat.add_le_add_left declared _⟩

theorem InFrame.length_le {taken : Bytes} (within : InFrame taken) :
    taken.length ≤ Wire.frameHeaderBytes + Limits.maxWireFrameBytes := by
  by_cases long : Wire.frameHeaderBytes < taken.length
  · obtain ⟨fits, declared⟩ := within long
    omega
  · omega

inductive Receipt (inbound : Bytes) : Result Bytes → Bytes → Prop where
  | framed {header body rest : Bytes} (split : inbound = header ++ body ++ rest)
      (size : header.length = Wire.frameHeaderBytes)
      (declared : LittleEndian.decode (header.take 4) = body.length)
      (budget : body.length ≤ Limits.maxWireFrameBytes) :
      Receipt inbound (.ok (header ++ body)) rest
  | tooLarge {header rest : Bytes} (split : inbound = header ++ rest)
      (size : header.length = Wire.frameHeaderBytes)
      (declared : Limits.maxWireFrameBytes < LittleEndian.decode (header.take 4)) :
      Receipt inbound
        (.error (makeError .tooLarge "peer declared a frame beyond the wire budget")) rest
  | failed (reason : Text) {taken rest : Bytes} (split : inbound = taken ++ rest)
      (within : InFrame taken) :
      Receipt inbound (.error (socketError reason)) rest

theorem wp_recvFrame {post : Result Bytes → State × Stream.Pipe → Prop}
    (cut : ∀ taken rest, inbound = taken ++ rest → InFrame taken → crash (s, ⟨rest, outbound⟩))
    (done : ∀ result rest, Receipt inbound result rest → post result (s, ⟨rest, outbound⟩)) :
    recvFrame.wp (Party.world V) crash post (s, ⟨inbound, outbound⟩) := by
  have ended {result : Result Bytes} {taken rest : Bytes} (split : inbound = taken ++ rest)
      (within : InFrame taken) (receipt : Receipt inbound result rest) :
      (pure result : Connected (Result Bytes)).wp (Party.world V) crash post
        (s, ⟨rest, outbound⟩) := ⟨cut taken rest split within, done result rest receipt⟩
  unfold recvFrame
  rw [Program.wp_bind]
  apply wp_recvExact
  · exact fun got rest split short => cut got rest split (.of_length_le short)
  · intro reason got rest split short
    have within := InFrame.of_length_le (Nat.le_of_lt short)
    exact ended split within (.failed reason split within)
  · rintro header behind rfl size
    dsimp only
    split
    next long => exact ended rfl (.of_length_le size.le) (.tooLarge rfl size long)
    next fits =>
      have fits := Nat.not_lt.mp fits
      split
      next positive =>
        rw [Program.wp_bind]
        apply wp_recvExact
        · intro got rest split short
          exact cut (header ++ got) rest (by rw [split, List.append_assoc]) (.of_header size fits short)
        · intro reason got rest split short
          have split : header ++ behind = header ++ got ++ rest := by rw [split, List.append_assoc]
          have within := InFrame.of_header size fits (Nat.le_of_lt short)
          exact ended split within (.failed reason split within)
        · intro body rest split all
          have split : header ++ behind = header ++ body ++ rest := by rw [split, List.append_assoc]
          exact ended split (.of_header size fits all.le) (.framed split size all.symm (all ▸ fits))
      next empty =>
        have none : LittleEndian.decode (header.take 4) = ([] : Bytes).length := by
          rw [List.length_nil]
          omega
        have receipt : Receipt (header ++ behind) (.ok (header ++ [])) behind :=
          .framed (by rw [List.append_nil]) size none (Nat.zero_le _)
        rw [List.append_nil] at receipt
        exact ended rfl (.of_length_le size.le) receipt

end Weakest

variable {result : Result Bytes} {rest : Bytes} {f : WireFrame}

theorem declared_bytes (fits : f.Fits) : LittleEndian.decode (f.bytes.take 4) = f.payload.length := by
  rw [WireFrame.bytes, frameHeader, List.append_assoc,
    List.take_left' (LittleEndian.length_encode ..)]
  exact LittleEndian.decode_encode_of_lt fits.payload_lt

theorem Receipt.of_bytes (receipt : Receipt inbound result rest) (fits : f.Fits)
    (front : f.bytes <+: inbound) :
    (result = .ok f.bytes ∧ inbound = f.bytes ++ rest) ∨ ∃ reason, result = .error (socketError reason) := by
  have long : Wire.frameHeaderBytes ≤ f.bytes.length := by
    rw [WireFrame.length_bytes]
    exact Nat.le_add_right _ _
  -- the first bytes of the stream are those of the frame
  have same {header behind : Bytes} (split : inbound = header ++ behind)
      (size : header.length = Wire.frameHeaderBytes) :
      LittleEndian.decode (header.take 4) = f.payload.length := by
    obtain ⟨more, whole⟩ := front
    have taken : header.take 4 = f.bytes.take 4 := by
      rw [← @List.take_append_of_le_length _ _ behind _ (by rw [size]; decide), ← split, ← whole,
        List.take_append_of_le_length (Nat.le_trans (by decide) long)]
    rw [taken, declared_bytes fits]
  cases receipt with
  | @framed header body _ split size declared budget =>
      have length : (header ++ body).length = f.bytes.length := by
        rw [List.length_append, size, ← declared, same (by rw [split, List.append_assoc]) size,
          WireFrame.length_bytes]
      have pre : header ++ body <+: inbound := ⟨rest, split.symm⟩
      have whole : header ++ body = f.bytes :=
        (List.prefix_of_prefix_length_le pre front length.le).eq_of_length length
      exact .inl ⟨congrArg Except.ok whole, split.trans (congrArg (· ++ rest) whole)⟩
  | tooLarge split size declared =>
      have within : f.payload.length ≤ Limits.maxWireFrameBytes := by
        rw [WireFrame.length_payload]
        exact fits
      rw [same split size] at declared
      omega
  | failed reason split budget => exact .inr ⟨reason, rfl⟩

theorem Receipt.decodes {raw : Bytes} (receipt : Receipt inbound (.ok raw) rest) :
    inbound = raw ++ rest ∧
      (decodeFrame raw = .ok f ↔ decodeFramePrefix inbound = .ok (f, raw.length)) := by
  cases receipt with
  | framed split size declared budget =>
      refine ⟨split, ?_⟩
      rw [decodeFrame_eq_ok, decodeFramePrefix_eq_ok]
      refine and_congr_right fun fits => ⟨?_, ?_⟩
      · intro whole
        exact ⟨congrArg List.length whole, rest, by rw [← whole, split]⟩
      · rintro ⟨length, front⟩
        exact (List.prefix_of_prefix_length_le ⟨rest, split.symm⟩ front length.le).eq_of_length length

theorem sendAll_ends (bytes : Bytes) :
    (sendAll bytes).Ends (Party.world V) (s, ⟨inbound, outbound⟩) (.ok ())
      (s, ⟨inbound, outbound ++ bytes⟩) := by
  induction size : bytes.length using Nat.strong_induction_on generalizing bytes outbound with
  | _ n ih =>
      subst size
      rw [sendAll]
      split
      next ended =>
        rw [ended, List.append_nil]
        exact .done
      next more =>
        have positive := List.length_pos_iff.mpr more
        have portion : (bytes.take maxChunk).length ≠ 0 := by
          rw [List.length_take]
          exact (Nat.lt_min.mpr ⟨by decide, positive⟩).ne'
        have shorter : (bytes.drop (bytes.take maxChunk).length).length < bytes.length := by
          rw [List.length_drop]
          omega
        have whole : bytes.take maxChunk ++ bytes.drop (bytes.take maxChunk).length = bytes :=
          (List.prefix_append_drop (List.take_prefix ..)).symm
        have rest : (sendAll (bytes.drop (bytes.take maxChunk).length)).Ends (Party.world V)
            (s, ⟨inbound, outbound ++ bytes.take maxChunk⟩) (.ok ())
            (s, ⟨inbound, outbound ++ bytes.take maxChunk ++ _⟩) := ih _ shorter _ rfl
        rw [List.append_assoc, whole] at rest
        refine Party.ends_send portion le_rfl ?_
        rw [List.take_length]
        exact rest

theorem recvExact_ends (got rest : Bytes) :
    (recvExact got.length).Ends (Party.world V) (s, ⟨got ++ rest, outbound⟩) (.ok got)
      (s, ⟨rest, outbound⟩) := by
  induction size : got.length using Nat.strong_induction_on generalizing got with
  | _ n ih =>
      subst size
      rw [recvExact]
      split
      next ended =>
        obtain rfl := List.eq_nil_of_length_eq_zero ended
        exact .done
      next more =>
        have portion : got.take maxChunk ≠ [] := by
          intro none
          rcases List.take_eq_nil_iff.mp none with none | rfl
          · cases none
          · exact more rfl
        have whole := List.take_append_drop maxChunk got
        have left : got.length - (got.take maxChunk).length = (got.drop maxChunk).length := by
          rw [List.length_take, List.length_drop]
          omega
        have shorter : (got.drop maxChunk).length < got.length := by
          rw [List.length_drop]
          exact Nat.sub_lt (Nat.pos_of_ne_zero more) (by decide)
        have behind := ih _ shorter _ rfl
        rw [← left] at behind
        rw [show got ++ rest = _ by rw [← whole, List.append_assoc]]
        refine Party.ends_receive portion (by rw [List.length_take, Nat.min_comm]) ?_
        refine Program.ends_bind.mpr ⟨_, _, behind, ?_⟩
        dsimp only
        rw [whole]
        exact .done

theorem recvFrame_ends (fits : f.Fits) (rest : Bytes) :
    recvFrame.Ends (Party.world V) (s, ⟨f.bytes ++ rest, outbound⟩) (.ok f.bytes)
      (s, ⟨rest, outbound⟩) := by
  have header : (frameHeader f.payload).length = Wire.frameHeaderBytes := by
    rw [frameHeader, List.length_append, LittleEndian.length_encode, LittleEndian.length_encode]
  have declared := declared_bytes fits
  rw [WireFrame.bytes, List.take_append_of_le_length (by rw [header]; decide)] at declared
  have budget : ¬f.payload.length > Limits.maxWireFrameBytes := by
    rw [WireFrame.length_payload]
    exact Nat.not_lt.mpr fits
  have positive : f.payload.length > 0 := by
    rw [WireFrame.length_payload]
    exact Nat.add_pos_left (by decide) _
  unfold recvFrame
  have first : (recvExact (frameHeader f.payload).length).Ends (Party.world V)
      (s, ⟨frameHeader f.payload ++ (f.payload ++ rest), outbound⟩) _ (s, ⟨f.payload ++ rest, outbound⟩) :=
    recvExact_ends (frameHeader f.payload) (f.payload ++ rest)
  rw [header, ← List.append_assoc] at first
  refine Program.ends_bind.mpr ⟨_, _, first, ?_⟩
  dsimp only
  rw [declared, if_neg budget, if_pos positive]
  exact Program.ends_bind.mpr ⟨_, _, recvExact_ends f.payload rest, .done⟩

theorem recvFrame_unreceived {pipe : Stream.Pipe} :
    recvFrame.Ends (Party.world V) (s, pipe) (.error (socketError [])) (s, pipe) := by
  unfold recvFrame
  refine Program.ends_bind.mpr ⟨.error (socketError []), (s, pipe), ?_, .done⟩
  rw [recvExact, dif_neg (by decide)]
  exact Party.ends_unreceived [] .done

theorem Receipt.taken (receipt : Receipt inbound result rest) :
    (∃ taken, inbound = taken ++ rest ∧ InFrame taken) ∧
    ∀ e, result = .error e → (∃ reason, e = socketError reason) ∨
      e.code = .tooLarge ∧ rest = inbound.drop Wire.frameHeaderBytes := by
  cases receipt with
  | framed split size declared budget =>
      refine ⟨⟨_, split, .of_header size ?_ declared.symm.le⟩, fun e failed => by cases failed⟩
      rw [declared]
      exact budget
  | tooLarge split size declared =>
      refine ⟨⟨_, split, .of_length_le size.le⟩, fun e failed => ?_⟩
      cases failed
      exact .inr ⟨rfl, by rw [split, ← size, List.drop_left]⟩
  | failed reason split within =>
      refine ⟨⟨_, split, within⟩, fun e failed => ?_⟩
      cases failed
      exact .inl ⟨reason, rfl⟩

/-- Receiving a frame agrees with decoding the stream in memory, whatever the portions in which the
network moves it: nothing but the frame is taken, and nothing is sent. -/
theorem recvFrame_agrees {t : State} {pipe : Stream.Pipe}
    (ends : recvFrame.Ends (Party.world V) (s, ⟨inbound, outbound⟩) result (t, pipe)) :
    (t = s ∧ pipe.outbound = outbound ∧ ∃ taken, inbound = taken ++ pipe.inbound ∧
      taken.length ≤ Wire.frameHeaderBytes + Limits.maxWireFrameBytes) ∧
    (∀ raw, result = .ok raw → inbound = raw ++ pipe.inbound ∧
      ∀ f, decodeFrame raw = .ok f ↔ decodeFramePrefix inbound = .ok (f, raw.length)) ∧
    (∀ f n, decodeFramePrefix inbound = .ok (f, n) →
      result = .ok (inbound.take n) ∨ ∃ reason, result = .error (socketError reason)) ∧
    ∀ e, result = .error e → (∃ reason, e = socketError reason) ∨
      e.code = .tooLarge ∧ pipe.inbound = inbound.drop Wire.frameHeaderBytes := by
  have receives : recvFrame.wp (Party.world V) (fun _ => True)
      (fun result at_ => at_.1 = s ∧ at_.2.outbound = outbound ∧
        Receipt inbound result at_.2.inbound) (s, ⟨inbound, outbound⟩) :=
    wp_recvFrame (fun _ _ _ _ => trivial) fun _ _ receipt => ⟨rfl, rfl, receipt⟩
  obtain ⟨same, unsent, receipt⟩ := Program.wp_ends receives ends
  obtain ⟨⟨taken, split, within⟩, errors⟩ := receipt.taken
  refine ⟨⟨same, unsent, taken, split, within.length_le⟩, ?_, ?_, errors⟩
  · rintro raw rfl
    exact ⟨(receipt.decodes (f := ⟨.unknown, []⟩)).1, fun f => receipt.decodes.2⟩
  · intro f n decoded
    obtain ⟨fits, rfl, front⟩ := decodeFramePrefix_eq_ok.mp decoded
    refine (receipt.of_bytes fits front).imp_left fun received => ?_
    rw [received.1, List.prefix_iff_eq_take.mp front, List.length_take, Nat.min_eq_left]
    exact front.length_le

/-- A ping is received from a stream on which a byte waits behind it. -/
theorem recvFrame_agrees_ping :
    let ping : WireFrame := ⟨.ping, []⟩
    ∃ result t pipe, recvFrame.Ends (Party.world FileSystem.Disk.world)
        (FileSystem.Disk.empty, ⟨ping.bytes ++ [7], []⟩) result (t, pipe) ∧
      (t = FileSystem.Disk.empty ∧ pipe.outbound = [] ∧ pipe.inbound = [7]) ∧
      decodeFramePrefix (ping.bytes ++ [7]) = .ok (ping, ping.bytes.length) ∧
      result = .ok ((ping.bytes ++ [7]).take ping.bytes.length) := by
  intro ping
  have fits : ping.Fits := show _ ≤ _ by decide
  have ends : recvFrame.Ends (Party.world FileSystem.Disk.world)
      (FileSystem.Disk.empty, ⟨ping.bytes ++ [7], []⟩) _ _ := recvFrame_ends fits [7]
  obtain ⟨⟨same, unsent, -⟩, received, agrees, -⟩ := recvFrame_agrees ends
  obtain ⟨-, decodes⟩ := received ping.bytes rfl
  have decoded : decodeFramePrefix (ping.bytes ++ [7]) = .ok (ping, ping.bytes.length) :=
    (decodes ping).mp (decodeFrame_eq_ok.mpr ⟨fits, rfl⟩)
  refine ⟨_, _, _, ends, ⟨same, unsent, rfl⟩, decoded, ?_⟩
  rcases agrees _ _ decoded with whole | ⟨reason, failed⟩
  · exact whole
  · cases failed

end QoSFabric
