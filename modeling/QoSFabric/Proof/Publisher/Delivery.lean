import QoSFabric.Proof.Publisher.Completion

/-!
# Deliveries

What a session comes to at the registry: every publication that was acknowledged took effect exactly
once and under the generation, the sequence and the digest that its publisher read, in the order of
the session, and at most one more took effect that was not acknowledged.
-/

namespace QoSFabric

open Interaction FileSystem

variable {openings : Openings} {events more : List Event} {clock : UInt64} {r r' : Registry}
  {d d' : Disk FileName} {frame : WireFrame} {reply : Bytes} {insists last : Bool}

/-! ## Replies -/

theorem Response.answer_eq_reply {type : MessageType} {body : Bytes} {last' : Bool}
    (replies : answer type body last = .reply reply insists last') :
    insists = true ∧ WireFrame.Fits ⟨type, body⟩ ∧ reply = WireFrame.bytes ⟨type, body⟩ := by
  unfold answer at replies
  dsimp only at replies
  split at replies
  · cases replies
  next filled =>
    have fits : WireFrame.Fits ⟨type, body⟩ :=
      Wire.encodeFrame_ne_nil.mp fun empty => filled (List.isEmpty_iff.mpr empty)
    cases replies
    exact ⟨rfl, fits, Wire.encodeFrame_of_fits fits⟩

def Response.Insistent (response : Response) : Prop :=
  response = .leave ∨ ∃ type body last, response = .answer type body last

theorem Registry.insistent_respond {response : Response} (reacts : r.react frame = .respond response)
    (quiet : frame.type ≠ .ping) : response.Insistent := by
  unfold react at reacts
  split at reacts
  next ping => exact absurd ping quiet
  · unfold reactToHello at reacts
    split at reacts
    · cases reacts
      exact .inl rfl
    · cases reacts
  iterate 2
    · unfold reactToSubmission at reacts
      split at reacts
      · cases reacts
        exact .inl rfl
      · split at reacts
        · obtain rfl := Reaction.respond.inj reacts
          exact .inr ⟨_, _, _, rfl⟩
        · cases reacts
  · obtain rfl := Reaction.respond.inj reacts
    exact .inr ⟨_, _, _, rfl⟩
  all_goals
    cases reacts
    exact .inl rfl

theorem Registry.insistent_call {call : Call} {respond : Answer → Registry → Response}
    (reacts : r.react frame = .call call respond) (answer : Answer) :
    (respond answer r').Insistent := by
  have granted : (Response.ofGrant answer r').Insistent := by
    unfold Response.ofGrant
    split
    · exact .inr ⟨_, _, _, rfl⟩
    · exact .inl rfl
  have published (ack : PublishAckMessage) : (Response.ofPublication ack answer r').Insistent := by
    unfold Response.ofPublication
    split
    · exact .inr ⟨_, _, _, rfl⟩
    · exact .inl rfl
  unfold react at reacts
  split at reacts
  · cases reacts
  · unfold reactToHello at reacts
    split at reacts
    · cases reacts
    · cases reacts
      exact granted
  iterate 2
    · unfold reactToSubmission at reacts
      split at reacts
      · cases reacts
      · split at reacts
        · cases reacts
        · cases reacts
          exact published _
  all_goals cases reacts

theorem Handles.insisting (handles : Handles clock r d frame (.reply reply insists last) more r' d')
    (quiet : frame.type ≠ .ping) :
    insists = true ∧ ∃ g : WireFrame, g.Fits ∧ reply = g.bytes := by
  have insistent {response : Response} (insistent : response.Insistent)
      (replies : response = .reply reply insists last) :
      insists = true ∧ ∃ g : WireFrame, g.Fits ∧ reply = g.bytes := by
    rcases insistent with rfl | ⟨type, body, last', rfl⟩
    · cases replies
    · obtain ⟨must, fits, whole⟩ := Response.answer_eq_reply replies
      exact ⟨must, _, fits, whole⟩
  generalize replies : Response.reply reply insists last = response at handles
  cases handles with
  | aside reacts => exact insistent (Registry.insistent_respond reacts quiet) replies.symm
  | called reacts run => exact insistent (Registry.insistent_call reacts _) replies.symm

/-! ## Conversations -/

inductive Attends (openings : Openings) (s : Served) (more : List Event) : Prop where
  | handled {events : List Event} {clock : UInt64} {r r' : Registry} {d d' : Disk FileName}
      {insists last : Bool} (run : Run openings events (.up r d)) (fits : s.frame.Fits)
      (handles : Handles clock r d s.frame (.reply s.reply insists last) more r' d')

theorem Attends.fits {s : Served} (attends : Attends openings s more) : s.frame.Fits := by
  obtain ⟨-, fits, -⟩ := attends
  exact fits

theorem Conversation.parts {goesOn : Bool} {served : List Served} (run : Run openings events (.up r d))
    (conversation : Conversation r d goesOn served more r' d') :
    ∃ parts : List (List Event), more = parts.flatten ∧
      List.Forall₂ (Attends openings) served parts := by
  induction conversation with
  | start => exact ⟨[], rfl, .nil⟩
  | @next _ _ more _ _ _ _ _ _ _ _ _ _ before fits handles part ih =>
      obtain ⟨parts, rfl, attends⟩ := ih
      refine ⟨parts ++ [more], ?_, List.rel_append attends (.cons ?_ .nil)⟩
      · rw [List.flatten_append, List.flatten_singleton]
      · exact .handled (before.run run) fits handles

theorem Conversation.replied_isPrefix {goesOn : Bool} {served : List Served}
    (conversation : Conversation r d goesOn served more r' d')
    (quiet : ∀ s ∈ served, s.frame.type ≠ .ping) :
    replied served <+: served.flatMap Served.reply ∧
      (goesOn = true → replied served = served.flatMap Served.reply) := by
  induction conversation with
  | start => exact ⟨List.prefix_rfl, fun _ => rfl⟩
  | @next served _ _ _ _ _ _ _ frame reply sent insists last before fits handles part ih =>
      obtain ⟨-, whole⟩ := ih fun s mem => quiet s (List.mem_append_left _ mem)
      have insisting := handles.insisting (quiet _ (List.mem_append_right _ List.mem_cons_self))
      rw [replied_concat, whole rfl, List.flatMap_append, List.flatMap_singleton]
      refine ⟨(List.prefix_append_right_inj _).mpr part, fun goesOn => ?_⟩
      rw [insisting.1, Bool.not_true, Bool.false_or, Bool.and_eq_true] at goesOn
      rw [beq_iff_eq.mp goesOn.1]

/-! ## Acceptances -/

/-- The capability that an event published, and what was answered. -/
def Event.accepted : Event → Option (ResourceCapability × Registry.PublicationResult)
  | .called _ (.publishCapability value) (.published (.ok result)) => some (value, result)
  | _ => none

def acceptances (events : List Event) : List (ResourceCapability × Registry.PublicationResult) :=
  events.filterMap Event.accepted

inductive Tally (value : ResourceCapability) (ack : PublishAckMessage) :
    List (ResourceCapability × Registry.PublicationResult) → Prop where
  | refused (status : ack.status ≠ .ok) : Tally value ack []
  | accepted {result : Registry.PublicationResult} (status : ack.status = .ok)
      (generation : ack.generation = result.generation) (sequence : ack.sequence = result.sequence)
      (digest : ack.digest = result.digest)
      (content : result.digest =
        ({ value with generation := result.generation } : ResourceCapability).computeDigest) :
      Tally value ack [({ value with generation := result.generation }, result)]

def following (latest : Option Generation) : Generation :=
  (Registry.nextGeneration .start latest).1

inductive Ascends (latest : Option Generation) : List Generation → Option Generation → Prop where
  | start : Ascends latest [] latest
  | next {given : List Generation} {newest : Option Generation}
      (ascends : Ascends latest given newest) :
      Ascends latest (given ++ [following newest]) (some (following newest))

theorem Ascends.trans {latest newest newest' : Option Generation} {given given' : List Generation}
    (first : Ascends latest given newest) (second : Ascends newest given' newest') :
    Ascends latest (given ++ given') newest' := by
  induction second with
  | start =>
      rw [List.append_nil]
      exact first
  | next _ ih =>
      rw [← List.append_assoc]
      exact ih.next

/-- The newest generation of a resource. -/
def Registry.newestGeneration (r : Registry) (resource : Text) : Option Generation :=
  (r.latest .capability resource).map ResourceCapability.generation

theorem WireStatus.ofError_ne_ok (code : ErrorCode) : WireStatus.ofError code ≠ .ok := by
  cases code <;> decide

theorem Run.effect {call : Call} {answer : Answer} (run : Run openings events (.up r d))
    (called : (r.call clock call).Ends Disk.world d (answer, r') d') :
    ∃ D D', Faithful r D ∧ Effect clock r D call answer r' D' := by
  obtain ⟨D, refines, faithful⟩ := RunWhere.faithful run
  have step : Step openings (.up r d) (.called clock call answer) (.up r' d') := .called called
  obtain ⟨_, _, D', same, effect, -⟩ := step.effect refines
  cases same
  exact ⟨D, D', faithful, effect⟩

theorem Handles.hello {response : Response} (handles : Handles clock r d frame response more r' d')
    (run : Run openings events (.up r d)) (hello : frame.type = .hello) (resource : Text) :
    acceptances more = [] ∧ r'.newestGeneration resource = r.newestGeneration resource := by
  cases handles with
  | aside reacts => exact ⟨rfl, rfl⟩
  | called reacts called =>
      obtain ⟨D, D', faithful, effect⟩ := run.effect called
      unfold Registry.react at reacts
      rw [hello] at reacts
      dsimp only at reacts
      unfold Registry.reactToHello at reacts
      split at reacts
      · cases reacts
      · cases reacts
        refine ⟨rfl, ?_⟩
        unfold Registry.newestGeneration
        rw [effect.latest faithful rfl]

theorem tally_published {value : ResourceCapability} {number : Generation} {ack : PublishAckMessage}
    {result : Registry.PublicationResult} (generation : result.generation = number)
    (content : result.digest =
      ({ value with generation := number } : ResourceCapability).computeDigest) :
    Tally value (ack.answer (.ok result)) (acceptances [.called clock
      (.publishCapability { value with generation := number }) (.published (.ok result))]) := by
  subst generation
  exact .accepted rfl rfl rfl rfl content

theorem Handles.publication {value : ResourceCapability} {encoded : Bytes}
    (handles : Handles clock r d (publicationFrame encoded) (.reply reply insists last) more r' d')
    (run : Run openings events (.up r d))
    (written : (encodeCapability value (.empty : ByteWriter Limits.maxCanonicalRecordBytes)).data =
      some encoded) :
    ∃ ack, reply = WireFrame.bytes ⟨.publishAck, Wire.encodePublishAck ack⟩ ∧
      Tally value.readBack ack (acceptances more) ∧
      Ascends (r.newestGeneration value.resource) ((acceptances more).map fun x => x.2.generation)
        (r'.newestGeneration value.resource) := by
  have replied {ack : PublishAckMessage}
      (answers : Response.answer .publishAck (Wire.encodePublishAck ack) false =
        .reply reply insists last) :
      reply = WireFrame.bytes ⟨.publishAck, Wire.encodePublishAck ack⟩ :=
    (Response.answer_eq_reply answers).2.2
  generalize response : Response.reply reply insists last = given at handles
  cases handles with
  | aside reacts =>
      unfold Registry.react Registry.reactToSubmission at reacts
      dsimp only [publicationFrame] at reacts
      cases decoded : Submission.decode .publishCapability encoded with
      | error e =>
          rw [decoded] at reacts
          have answers := Reaction.respond.inj reacts
          rw [← response] at answers
          exact ⟨_, replied answers, .refused (WireStatus.ofError_ne_ok _), .start⟩
      | ok submission =>
          rw [decoded] at reacts
          cases reacts
  | @called call respond answer _ _ reacts called =>
      obtain ⟨D, D', faithful, effect⟩ := run.effect called
      unfold Registry.react Registry.reactToSubmission at reacts
      dsimp only [publicationFrame] at reacts
      cases decoded : Submission.decode .publishCapability encoded with
      | error e =>
          rw [decoded] at reacts
          cases reacts
      | ok submission =>
          rw [decoded] at reacts
          -- what is read is what was declared
          obtain rfl : submission = .capability value.readBack := by
            unfold Submission.decode at decoded
            rw [if_pos rfl] at decoded
            obtain ⟨⟨read, reader⟩, reads, rfl⟩ := Decode.map_eq_ok.mp decoded
            have codes := (codes_capability (G := False) value nofun nofun).reads written [] trivial
            rw [List.append_nil, show decodeCapability ⟨some encoded⟩ = _ from reads] at codes
            rcases codes with same | ⟨-, e, failed⟩
            · cases same
              rfl
            · cases failed
          obtain ⟨rfl, rfl⟩ := Reaction.call.inj reacts
          obtain ⟨number, ack, assigned, next⟩ : ∃ number ack,
              r.assign 0x01 .start (.capability value.readBack) =
                (.capability { value.readBack with generation := number }, ack) ∧
              number = following (r.newestGeneration value.resource) := by
            refine ⟨_, _, rfl, ?_⟩
            rw [found_capability faithful.sane.orderly]
            rfl
          rw [assigned] at effect response ⊢
          obtain ⟨result, rfl, publishes⟩ := effect.publishes faithful rfl
          refine ⟨_, replied response.symm, ?_⟩
          -- one more generation, when the resource is left with it
          have ascends (left : r'.newestGeneration value.resource = some number) :
              Ascends (r.newestGeneration value.resource) [number]
                (r'.newestGeneration value.resource) := by
            rw [left, next]
            exact .next .start
          cases publishes with
          | refused e abides =>
              refine ⟨.refused (WireStatus.ofError_ne_ok _), ?_⟩
              unfold Registry.newestGeneration
              rw [abides.latest]
              exact .start
          | held abides latest generation =>
              refine ⟨tally_published rfl rfl, ascends ?_⟩
              unfold Registry.newestGeneration
              rw [abides.latest]
              exact (congrArg _ latest).trans (congrArg some generation)
          | added _ _ _ newest =>
              refine ⟨tally_published rfl rfl, ascends ?_⟩
              unfold Registry.newestGeneration
              rw [show r'.latest .capability value.resource = _ from newest]
              rfl

theorem Handles.bye
    (handles : Handles clock r d ⟨.bye, []⟩ (.reply reply insists last) more r' d') : False := by
  generalize response : Response.reply reply insists last = given at handles
  cases handles with
  | aside reacts =>
      have left := Reaction.respond.inj reacts
      rw [← response] at left
      cases left
  | called reacts _ => cases reacts

/-! ## Sessions -/

def Spoken (p : Declarant) (frame : WireFrame) : Prop :=
  frame.type = .hello ∧ frame.Fits ∨ Final p frame

theorem Spoken.quiet {p : Declarant} (spoken : Spoken p frame) : frame.type ≠ .ping := by
  intro ping
  rcases spoken with ⟨hello, -⟩ | ⟨-, rfl | ⟨value, encoded, -, rfl⟩⟩
  · rw [hello] at ping
    cases ping
  · cases ping
  · cases ping

theorem Spoken.fits {p : Declarant} (spoken : Spoken p frame) : frame.Fits := by
  rcases spoken with ⟨-, fits⟩ | ⟨fits, -⟩ <;> exact fits

theorem Publication.resource {p : Declarant} {value : ResourceCapability} {encoded : Bytes}
    (publication : Publication p value encoded) : value.resource = p.options.resource := by
  obtain ⟨now, declared⟩ := publication.declared
  unfold Declarant.declaration at declared
  obtain ⟨_, -, declared⟩ := Option.bind_eq_some_iff.mp declared
  obtain ⟨_, -, declared⟩ := Option.bind_eq_some_iff.mp declared
  obtain ⟨_, -, declared⟩ := Option.bind_eq_some_iff.mp declared
  obtain ⟨_, -, declared⟩ := Option.bind_eq_some_iff.mp declared
  cases declared
  rfl

theorem Conversation.ascends {p : Declarant} {goesOn : Bool} {served : List Served}
    (run : Run openings events (.up r d))
    (conversation : Conversation r d goesOn served more r' d')
    (spoken : ∀ s ∈ served, Spoken p s.frame) :
    Ascends (r.newestGeneration p.options.resource)
      ((acceptances more).map fun x => x.2.generation)
      (r'.newestGeneration p.options.resource) := by
  induction conversation with
  | start => exact .start
  | @next served events' more r₁ r₂ d₁ d₂ clock frame reply sent insists last before fits handles
      part ih =>
      have earlier := ih fun s mem => spoken s (List.mem_append_left _ mem)
      have running := before.run run
      rw [acceptances, List.filterMap_append, List.map_append]
      refine earlier.trans ?_
      rcases spoken _ (List.mem_append_right _ List.mem_cons_self) with
        ⟨hello, -⟩ | ⟨-, rfl | ⟨value, encoded, publication, rfl⟩⟩
      · obtain ⟨none, same⟩ := handles.hello running hello p.options.resource
        rw [acceptances] at none
        rw [none, same]
        exact .start
      · exact handles.bye.elim
      · obtain ⟨-, -, -, ascends⟩ := handles.publication running publication.written
        rw [publication.resource] at ascends
        exact ascends

/-- The numbers of an acknowledgement. -/
def PublishAckMessage.numbers (ack : PublishAckMessage) : Registry.PublicationResult :=
  ⟨ack.generation, ack.sequence, ack.digest⟩

/-- What a publisher has been told of the publications that took effect. -/
def told (acks : List PublishAckMessage) : List Registry.PublicationResult :=
  (acks.filter fun ack => ack.status == .ok).map PublishAckMessage.numbers

theorem told_cons_of_ok {ack : PublishAckMessage} (status : ack.status = .ok)
    (acks : List PublishAckMessage) : told (ack :: acks) = ack.numbers :: told acks := by
  unfold told
  rw [List.filter_cons, if_pos (beq_iff_eq.mpr status), List.map_cons]

theorem told_cons_of_ne {ack : PublishAckMessage} (status : ack.status ≠ .ok)
    (acks : List PublishAckMessage) : told (ack :: acks) = told acks := by
  unfold told
  rw [List.filter_cons, if_neg fun is => status (beq_iff_eq.mp is)]

theorem decode_publishAck (ack : PublishAckMessage) :
    Wire.decodePublishAck (Wire.encodePublishAck ack) = .ok ack.clipped :=
  (Wire.reversible_of_codes (fun value _ => value.within) (fun value _ => value.codes)
    yields_anything PublishAckMessage.spells).decode_encode ack trivial

/-- A publication that took effect is that of a declaration. -/
def Declared (p : Declarant) (x : ResourceCapability × Registry.PublicationResult) : Prop :=
  (∃ now value, p.declaration now = some value ∧
    x.1 = { value.readBack with generation := x.2.generation }) ∧ x.2.digest = x.1.computeDigest

theorem Tally.declared {p : Declarant} {value : ResourceCapability} {encoded : Bytes}
    {ack : PublishAckMessage} {xs : List (ResourceCapability × Registry.PublicationResult)}
    (tally : Tally value.readBack ack xs) (publication : Publication p value encoded) :
    ∀ x ∈ xs, Declared p x := by
  intro x mem
  cases tally with
  | refused => cases mem
  | accepted _ _ _ _ content =>
      obtain rfl := List.mem_singleton.mp mem
      obtain ⟨now, declared⟩ := publication.declared
      exact ⟨⟨now, value, declared, rfl⟩, content⟩

theorem Tally.length_le {value : ResourceCapability} {ack : PublishAckMessage}
    {xs : List (ResourceCapability × Registry.PublicationResult)} (tally : Tally value ack xs) :
    xs.length ≤ 1 := by
  cases tally with
  | refused => exact Nat.zero_le _
  | accepted => exact le_rfl

def Answered (openings : Openings) (entry : WireFrame × WireFrame) (more : List Event) : Prop :=
  ∃ s, s.frame = entry.1 ∧ s.reply = entry.2.bytes ∧ Attends openings s more

theorem answered_front {served : List Served} {parts : List (List Event)}
    {entries : List (WireFrame × WireFrame)} (attends : List.Forall₂ (Attends openings) served parts)
    (frames : entries.map Prod.fst <+: served.map Served.frame)
    (replies : (entries.map fun e => e.2.bytes) <+: served.map Served.reply) :
    ∃ front rest, parts = front ++ rest ∧ List.Forall₂ (Answered openings) entries front ∧
      List.Forall₂ (Attends openings) (served.drop entries.length) rest := by
  induction entries generalizing served parts with
  | nil => exact ⟨[], parts, rfl, .nil, attends⟩
  | cons e entries ih =>
      cases attends with
      | nil => exact absurd (List.prefix_nil.mp frames) (List.cons_ne_nil _ _)
      | @cons s evs served parts attend attends =>
          obtain ⟨frame, frames⟩ := List.cons_prefix_cons.mp frames
          obtain ⟨reply, replies⟩ := List.cons_prefix_cons.mp replies
          obtain ⟨front, rest, rfl, answered, left⟩ := ih attends frames replies
          exact ⟨evs :: front, rest, rfl, .cons ⟨s, frame.symm, reply.symm, attend⟩ answered, left⟩

theorem forall₂_append_left {α β : Type} {R : α → β → Prop} {as as' : List α} {bs : List β}
    (related : List.Forall₂ R (as ++ as') bs) :
    ∃ front rest, bs = front ++ rest ∧ List.Forall₂ R as front ∧ List.Forall₂ R as' rest := by
  induction as generalizing bs with
  | nil => exact ⟨[], bs, rfl, .nil, related⟩
  | cons a as ih =>
      cases related with
      | @cons _ b _ _ first related =>
          obtain ⟨front, rest, rfl, before, behind⟩ := ih related
          exact ⟨b :: front, rest, rfl, .cons first before, behind⟩

theorem acceptances_greeting {greeting : List (WireFrame × WireFrame)} {parts : List (List Event)}
    (greets : ∀ g ∈ greeting, g.1.type = .hello)
    (answered : List.Forall₂ (Answered openings) greeting parts) : acceptances parts.flatten = [] := by
  induction answered with
  | nil => rfl
  | cons first _ ih =>
      obtain ⟨s, frame, -, ⟨run, -, handles⟩⟩ := first
      have hello := greets _ List.mem_cons_self
      rw [← frame] at hello
      rw [List.flatten_cons, acceptances, List.filterMap_append]
      exact List.append_eq_nil_iff.mpr ⟨(handles.hello run hello []).1,
        ih fun g mem => greets g (List.mem_cons_of_mem _ mem)⟩

theorem acceptances_exchanged {p : Declarant} {xs : List Exchanged} {parts : List (List Event)}
    (sound : ∀ x ∈ xs, x.Sound p)
    (answered : List.Forall₂ (Answered openings)
      (xs.map fun x => (publicationFrame x.encoded, x.reply)) parts) :
    told (xs.map Exchanged.ack) = (acceptances parts.flatten).map Prod.snd ∧
      ∀ x ∈ acceptances parts.flatten, Declared p x := by
  induction xs generalizing parts with
  | nil =>
      cases answered
      exact ⟨rfl, fun _ mem => absurd mem List.not_mem_nil⟩
  | cons x xs ih =>
      cases answered with
      | cons first answered =>
          obtain ⟨s, frame, replied, ⟨run, -, handles⟩⟩ := first
          obtain ⟨publication, fits, read⟩ := sound x List.mem_cons_self
          obtain ⟨rest, declared⟩ := ih (fun x mem => sound x (List.mem_cons_of_mem _ mem)) answered
          dsimp only at frame replied
          rw [frame] at handles
          obtain ⟨ack, reply, tally, -⟩ := handles.publication run publication.written
          -- the frame that was read is the one that was sent
          have same : x.reply = ⟨.publishAck, Wire.encodePublishAck ack⟩ := by
            have whole := replied.symm.trans reply
            exact bytes_inj_of_prefix fits (Wire.encodeFrame_ne_nil.mp
              (encodeFrame_ne_nil_of_within ack.within (by decide))) List.prefix_rfl
              (whole ▸ List.prefix_rfl)
          rw [same, decode_publishAck] at read
          have clipped := Except.ok.inj read
          rw [List.flatten_cons, acceptances, List.filterMap_append, List.map_append,
            List.map_cons]
          have published := tally.declared publication
          unfold acceptances at tally published rest
          generalize List.filterMap Event.accepted _ = accepted at tally published ⊢
          refine ⟨?_, fun y mem => ?_⟩
          · rw [← clipped]
            cases tally with
            | refused status =>
                have status : ack.clipped.status ≠ .ok := status
                rw [told_cons_of_ne status]
                exact rest
            | @accepted result status generation sequence digest =>
                have numbers : ack.clipped.numbers = result := by
                  unfold PublishAckMessage.numbers PublishAckMessage.clipped
                  rw [generation, sequence, digest]
                have status : ack.clipped.status = .ok := status
                rw [told_cons_of_ok status, numbers, rest]
                rfl
          · rcases List.mem_append.mp mem with mem | mem
            · exact published y mem
            · exact declared y mem

theorem acceptances_last {p : Declarant} {left : List Served} {parts : List (List Event)}
    (attends : List.Forall₂ (Attends openings) left parts) (single : left.length ≤ 1)
    (spoken : ∀ s ∈ left, Spoken p s.frame) :
    (acceptances parts.flatten).length ≤ 1 ∧ ∀ x ∈ acceptances parts.flatten, Declared p x := by
  cases attends with
  | nil => exact ⟨Nat.zero_le _, fun _ mem => absurd mem List.not_mem_nil⟩
  | @cons s more _ _ attend attends =>
      cases attends with
      | cons => exact absurd single (by rw [List.length_cons, List.length_cons]; omega)
      | nil =>
          obtain ⟨run, -, handles⟩ := attend
          rw [List.flatten_singleton]
          rcases spoken s List.mem_cons_self with
            ⟨hello, -⟩ | ⟨-, bye | ⟨value, encoded, publication, frame⟩⟩
          · rw [(handles.hello run hello []).1]
            exact ⟨Nat.zero_le _, fun _ mem => absurd mem List.not_mem_nil⟩
          · rw [bye] at handles
            exact handles.bye.elim
          · rw [frame] at handles
            obtain ⟨ack, -, tally, -⟩ := handles.publication run publication.written
            exact ⟨tally.length_le, tally.declared publication⟩

theorem exists_replies {served : List Served} {parts : List (List Event)}
    (attends : List.Forall₂ (Attends openings) served parts)
    (quiet : ∀ s ∈ served, s.frame.type ≠ .ping) :
    ∃ gs : List WireFrame, (∀ g ∈ gs, g.Fits) ∧ served.map Served.reply = gs.map WireFrame.bytes := by
  induction attends with
  | nil => exact ⟨[], fun _ mem => absurd mem List.not_mem_nil, rfl⟩
  | cons attend _ ih =>
      obtain ⟨gs, fit, replies⟩ := ih fun s mem => quiet s (List.mem_cons_of_mem _ mem)
      obtain ⟨-, -, handles⟩ := attend
      obtain ⟨-, g, fits, reply⟩ := handles.insisting (quiet _ List.mem_cons_self)
      refine ⟨g :: gs, fun h mem => ?_, by rw [List.map_cons, List.map_cons, reply, replies]⟩
      rcases List.mem_cons.mp mem with rfl | mem
      · exact fits
      · exact fit h mem

theorem handled_eq_stream (served : List Served) :
    handled served = stream (served.map Served.frame) := (List.flatMap_map ..).symm

theorem toNat_following (latest : Option Generation) :
    (following latest).toNat = min ((latest.map UInt64.toNat).getD 0 + 1) (2 ^ 64 - 1) := by
  cases latest with
  | none => rfl
  | some latest =>
      by_cases top : latest = maxUInt64
      · subst top
        decide
      · have next := nextGeneration_some .start top
        have bound := (following (some latest)).toNat_lt
        unfold following at bound ⊢
        rw [Option.map_some, Option.getD_some]
        omega

theorem Ascends.toNat {latest newest : Option Generation} {given : List Generation}
    (ascends : Ascends latest given newest) :
    given.map UInt64.toNat = (List.range given.length).map (fun i =>
        min ((latest.map UInt64.toNat).getD 0 + 1 + i) (2 ^ 64 - 1)) ∧
      (newest.map UInt64.toNat).getD 0 =
        min ((latest.map UInt64.toNat).getD 0 + given.length) (2 ^ 64 - 1) := by
  induction ascends with
  | start =>
      refine ⟨rfl, ?_⟩
      rw [List.length_nil, Nat.add_zero]
      cases latest with
      | none => rfl
      | some latest =>
          have bound := latest.toNat_lt
          rw [Option.map_some, Option.getD_some]
          omega
  | @next given newest _ ih =>
      obtain ⟨numbers, last⟩ := ih
      have next := toNat_following newest
      rw [last] at next
      rw [List.map_append, numbers, List.length_append, List.length_singleton, List.range_succ,
        List.map_append, List.map_singleton, List.map_singleton, Option.map_some,
        Option.getD_some, next]
      refine ⟨congrArg (_ ++ [·]) ?_, ?_⟩ <;> omega

/-! ## Publishers -/

def entries (greeting : List (WireFrame × WireFrame)) (xs : List Exchanged) :
    List (WireFrame × WireFrame) :=
  greeting ++ xs.map fun x => (publicationFrame x.encoded, x.reply)

namespace Said

variable {o : PublisherOptions} {inbound : Bytes} {report : SessionReport} {pipe : Stream.Pipe}
  {p : Declarant} {greeting : List (WireFrame × WireFrame)} {xs : List Exchanged} {final : WireFrame}
  {served : List Served} {parts : List (List Event)}

theorem asked : (entries greeting xs).map Prod.fst =
    greeting.map Prod.fst ++ xs.map fun x => publicationFrame x.encoded := by
  rw [entries, List.map_append, List.map_map]
  rfl

theorem replies : (entries greeting xs).map Prod.snd =
    greeting.map Prod.snd ++ xs.map Exchanged.reply := by
  rw [entries, List.map_append, List.map_map]
  rfl

theorem spoken (said : Said o inbound report pipe p greeting xs final) :
    ∀ f ∈ (entries greeting xs).map Prod.fst ++ [final], Spoken p f := by
  intro f mem
  rw [asked, List.append_assoc] at mem
  rcases List.mem_append.mp mem with mem | mem
  · obtain ⟨g, held, rfl⟩ := List.mem_map.mp mem
    exact .inl ⟨(said.greets g held).1, (said.greets g held).2.1⟩
  rcases List.mem_append.mp mem with mem | mem
  · obtain ⟨x, held, rfl⟩ := List.mem_map.mp mem
    have publication := (said.sound x held).publication
    exact .inr ⟨publication.fits, .inr ⟨_, _, publication, rfl⟩⟩
  · obtain rfl := List.mem_singleton.mp mem
    exact said.final

theorem fit (said : Said o inbound report pipe p greeting xs final) :
    ∀ g ∈ (entries greeting xs).map Prod.snd, g.Fits := by
  intro g mem
  rw [replies] at mem
  rcases List.mem_append.mp mem with mem | mem
  · obtain ⟨e, held, rfl⟩ := List.mem_map.mp mem
    exact (said.greets e held).2.2
  · obtain ⟨x, held, rfl⟩ := List.mem_map.mp mem
    exact (said.sound x held).fits

theorem handled_isPrefix (said : Said o inbound report pipe p greeting xs final)
    (attends : List.Forall₂ (Attends openings) served parts)
    (front : handled served <+: pipe.outbound) :
    served.map Served.frame <+: (entries greeting xs).map Prod.fst ++ [final] := by
  have fit : ∀ f ∈ served.map Served.frame, f.Fits := by
    have each := ((List.forall₂_and_left _ _).mp
      (attends.imp fun _ _ attend => ⟨attend.fits, attend⟩)).1
    intro f mem
    obtain ⟨s, held, rfl⟩ := List.mem_map.mp mem
    exact each s held
  obtain ⟨sent, part, outbound⟩ := said.sent
  rw [outbound, ← asked] at front
  apply isPrefix_of_stream fit fun f mem => (said.spoken f mem).fits
  rw [← handled_eq_stream, stream_append, stream_singleton]
  exact front.trans ((List.prefix_append_right_inj _).mpr part)

theorem read_isPrefix (said : Said o inbound report pipe p greeting xs final)
    (attends : List.Forall₂ (Attends openings) served parts)
    (quiet : ∀ s ∈ served, s.frame.type ≠ .ping)
    (sent : inbound <+: served.flatMap Served.reply) :
    ((entries greeting xs).map fun e => e.2.bytes) <+: served.map Served.reply := by
  obtain ⟨gs, fits, sends⟩ := exists_replies attends quiet
  obtain ⟨taken, split⟩ := said.taken
  have reads : (entries greeting xs).map Prod.snd <+: gs := by
    refine isPrefix_of_stream said.fit fits ?_
    rw [split, ← replies, List.flatMap_def, sends, ← List.flatMap_def] at sent
    exact .trans ⟨_, (List.append_assoc ..).symm⟩ sent
  rw [sends, show ((entries greeting xs).map fun e => e.2.bytes) =
    ((entries greeting xs).map Prod.snd).map WireFrame.bytes by rw [List.map_map]; rfl]
  exact reads.map _

theorem tallied (said : Said o inbound report pipe p greeting xs final)
    (attends : List.Forall₂ (Attends openings) served parts)
    (handles : served.map Served.frame <+: (entries greeting xs).map Prod.fst ++ [final])
    (answered : ((entries greeting xs).map fun e => e.2.bytes) <+: served.map Served.reply) :
    ∃ before behind, acceptances parts.flatten = before ++ behind ∧
      told report.acks = before.map Prod.snd ∧ behind.length ≤ 1 ∧
      ∀ x ∈ before ++ behind, Declared p x := by
  have count : (entries greeting xs).length ≤ served.length := by
    have short := answered.length_le
    rwa [List.length_map, List.length_map] at short
  have frames : (entries greeting xs).map Prod.fst <+: served.map Served.frame :=
    List.prefix_of_prefix_length_le (List.prefix_append _ _) handles
      (by rw [List.length_map, List.length_map]; exact count)
  obtain ⟨front, rest, rfl, before, behind⟩ := answered_front attends frames answered
  obtain ⟨hellos, exchanges, rfl, greeted, exchanged⟩ := forall₂_append_left before
  have nothing := acceptances_greeting (fun g mem => (said.greets g mem).1) greeted
  obtain ⟨tallied, declared⟩ := acceptances_exchanged said.sound exchanged
  have single : (served.drop (entries greeting xs).length).length ≤ 1 := by
    have most := handles.length_le
    rw [List.length_append, List.length_map, List.length_map, List.length_singleton] at most
    rw [List.length_drop]
    omega
  obtain ⟨one, lastDeclared⟩ := acceptances_last behind single fun s mem =>
    said.spoken _ (handles.subset (List.mem_map_of_mem (List.mem_of_mem_drop mem)))
  refine ⟨acceptances exchanges.flatten, acceptances rest.flatten, ?_, ?_, one, ?_⟩
  · unfold acceptances at nothing ⊢
    rw [List.flatten_append, List.flatten_append, List.filterMap_append, List.filterMap_append,
      nothing, List.nil_append]
  · rw [said.acks, tallied]
  · intro x mem
    rcases List.mem_append.mp mem with mem | mem
    · exact declared x mem
    · exact lastDeclared x mem

end Said

/-- Whatever the order in which a publisher and its server go on, and however the network moves what
they send: every publication that the publisher was told of took effect once, with the numbers that
it was told, in the order in which it was told, and at most one more took effect. The generations are
consecutive. -/
theorem session_delivered {State : Type} {V : Program.World (Request FileName) Reply State} {s : State}
    (run : Run openings events (.up r d)) (o : PublisherOptions) (boot : BootId)
    (clock clock' : Nat → UInt64) (fuel : Nat)
    {m : Meeting Reply Reply State (Disk FileName) SessionReport (Option Registry)}
    (meets : Relation.ReflTransGen (Meets V Disk.world)
      ⟨o.run boot clock, r.serveConnection clock' fuel, s, d, [], []⟩ m)
    {report : SessionReport} (ended : m.left = .done report) :
    ∃ p more r' d', p.options = o ∧ p.publisher = o.publisherId ∧
      Run openings (events ++ more) (.up r' d') ∧
      (m.rightState = d' ∨ ∃ clock call, (r'.call clock call).Crashes Disk.world d' m.rightState) ∧
      told report.acks <+: (acceptances more).map Prod.snd ∧
      (acceptances more).length ≤ (told report.acks).length + 1 ∧
      (∀ x ∈ acceptances more, Declared p x) ∧
      (acceptances more).map (fun x => x.2.generation.toNat) =
        (List.range (acceptances more).length).map (fun i =>
          min (((r.newestGeneration o.resource).map UInt64.toNat).getD 0 + 1 + i) (2 ^ 64 - 1)) ∧
      (report.exitCode = 0 → report.acks.length = o.publishes.toNat ∧
        ∀ ack ∈ report.acks, ack.status = .ok) := by
  obtain ⟨fromLeft, fromRight, left, right⟩ := Meets.apart meets
  -- what the publisher has said, and what the server has made of it
  have leftEnds := Program.wp_steps (wp_run o boot clock) left
  rw [ended] at leftEnds
  obtain ⟨-, p, greeting, xs, last, said⟩ := leftEnds
  have rightStands := Program.crash_of_wp (Program.wp_steps
    (r.wp_serveConnection d clock' fuel fromLeft) right)
  obtain ⟨goesOn, served, more, r', d', underway⟩ := rightStands
  obtain ⟨ahead, -, -, front⟩ := underway.front
  obtain ⟨parts, rfl, attends⟩ := underway.conversation.parts run
  have handles := said.handled_isPrefix attends ⟨_, (front.trans (List.append_assoc ..)).symm⟩
  have spoken : ∀ s ∈ served, Spoken p s.frame := fun s mem =>
    said.spoken _ (handles.subset (List.mem_map_of_mem mem))
  have quiet : ∀ s ∈ served, s.frame.type ≠ .ping := fun s mem => (spoken s mem).quiet
  have sent : fromRight <+: served.flatMap Served.reply := by
    rw [show fromRight = replied served from underway.answered]
    exact (underway.conversation.replied_isPrefix quiet).1
  obtain ⟨before, behind, all, known, one, declared⟩ :=
    said.tallied attends handles (said.read_isPrefix attends quiet sent)
  have ascends := (underway.conversation.ascends run spoken).toNat.1
  rw [List.map_map, List.length_map, said.options] at ascends
  refine ⟨p, _, r', d', said.options, said.publisher, underway.conversation.run run, underway.disk,
    ?_, ?_, all ▸ declared, ascends, ?_⟩
  · rw [all, known, List.map_append]
    exact List.prefix_append _ _
  · rw [all, known, List.length_append, List.length_map]
    exact Nat.add_le_add_left one _
  · intro done
    obtain ⟨turns, oks⟩ := said.finished done
    rw [said.acks, List.length_map]
    refine ⟨turns, fun ack mem => ?_⟩
    obtain ⟨x, held, rfl⟩ := List.mem_map.mp mem
    exact oks x held

/-- A publisher that publishes twice. -/
def twice : PublisherOptions := { publishes := 2 }

def publishesTwice : Bool :=
  match (Site.down Disk.empty).rehearse [.open .default 0 (List.replicate 16 7)] with
  | some (_, .up r d) =>
      (r.newestGeneration twice.resource).isNone &&
        match twice.rehearse ⟨List.replicate 16 1, BootId.size_ones⟩ (fun _ => 0) (fun _ => 0) 3 r d with
        | some report => report.exitCode == 0 && (told report.acks).length == 2
        | none => false
  | _ => false

set_option maxRecDepth 4000 in
/-- It is told of both publications, under the first two generations. -/
theorem session_delivered_twice : ∃ events r d, Run .any events (.up r d) ∧
    ∃ (m : Meeting Reply Reply (Disk FileName) (Disk FileName) SessionReport (Option Registry))
      (report : SessionReport),
      Relation.ReflTransGen (Meets Disk.world Disk.world)
        ⟨twice.run ⟨List.replicate 16 1, BootId.size_ones⟩ (fun _ => 0),
          r.serveConnection (fun _ => 0) 3, Disk.empty, d, [], []⟩ m ∧
      m.left = .done report ∧ report.exitCode = 0 ∧ (told report.acks).length = 2 ∧
      ∃ more r' d', Run .any (events ++ more) (.up r' d') ∧
        told report.acks <+: (acceptances more).map Prod.snd ∧
        (acceptances more).length ≤ 3 ∧
        (acceptances more).map (fun x => x.2.generation.toNat) =
          (List.range (acceptances more).length).map (1 + ·) := by
  have publishes : publishesTwice = true := by decide +kernel
  unfold publishesTwice at publishes
  split at publishes
  case h_2 => cases publishes
  next events r d rehearsed =>
    obtain ⟨none, publishes⟩ := (Bool.and_eq_true ..).mp publishes
    split at publishes
    case h_2 => cases publishes
    next report reported =>
      rw [Bool.and_eq_true, beq_iff_eq, beq_iff_eq] at publishes
      obtain ⟨finished, acknowledged⟩ := publishes
      have run : Run .any events (.up r d) := run_of_rehearse rehearsed
      obtain ⟨q, d'', toRight, toLeft, meets⟩ :=
        session_meets (V := Disk.world) (s := Disk.empty) rfl reported
      obtain ⟨p, more, r', d', -, -, continues, -, told, most, -, generations, -⟩ :=
        session_delivered run twice _ _ _ 3 meets rfl
      rw [acknowledged] at most
      rw [Option.isNone_iff_eq_none.mp none] at generations
      refine ⟨events, r, d, run, _, report, meets, rfl, finished, acknowledged, more, r', d', continues,
        told, most, generations.trans (List.map_congr_left fun i mem => ?_)⟩
      have small := List.mem_range.mp mem
      rw [Option.map_none, Option.getD_none]
      omega

end QoSFabric
