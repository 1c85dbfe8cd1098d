import QoSFabric.Foundation.Program
import Mathlib.Logic.Relation

/-!
# Programs joined by byte streams

A party of a connection issues requests of its own and requests to the stream that joins it to its
peer. A stream keeps the order of its bytes and moves as many of them at a time as it likes; any
request to it may fail. What two parties do together is taken apart into what each of them does on
its own, over a stream that holds what the other one sends.
-/

namespace Interaction

namespace Program

variable {Request Request' State State' : Type} {Reply : Request → Type}
  {Reply' : Request' → Type} {α β : Type}

def lift : Program Request Reply α → Program (Request ⊕ Request') (Sum.elim Reply Reply') α
  | done a => done a
  | ask r next => ask (.inl r) fun reply => (next reply).lift

def World.beside (V : World Request Reply State) (W : World Request' Reply' State') :
    World (Request ⊕ Request') (Sum.elim Reply Reply') (State × State') where
  answers
    | s, .inl r, reply, s' => V.answers s.1 r reply s'.1 ∧ s'.2 = s.2
    | s, .inr r, reply, s' => W.answers s.2 r reply s'.2 ∧ s'.1 = s.1
  breaks
    | s, .inl r, e => V.breaks s.1 r e.1 ∧ e.2 = s.2
    | s, .inr r, e => W.breaks s.2 r e.2 ∧ e.1 = s.1

variable {V : World Request Reply State} {W : World Request' Reply' State'}

theorem wp_lift {crash : State × State' → Prop} {post : α → State × State' → Prop}
    {p : Program Request Reply α} {s : State} {t : State'} :
    p.lift.wp (V.beside W) crash post (s, t) ↔
      p.wp V (fun e => crash (e, t)) (fun a e => post a (e, t)) s := by
  induction p generalizing s with
  | done a => exact Iff.rfl
  | ask r next ih =>
      refine and_congr_right fun _ => and_congr ⟨fun h e broken => h (e, t) ⟨broken, rfl⟩, ?_⟩ ⟨?_, ?_⟩
      · rintro h ⟨e, _⟩ ⟨broken, rfl⟩
        exact h e broken
      · intro h reply s' answer
        exact ih reply |>.mp (h reply (s', t) ⟨answer, rfl⟩)
      · rintro h reply ⟨s', _⟩ ⟨answer, rfl⟩
        exact (ih reply).mpr (h reply s' answer)

theorem ends_lift {p : Program Request Reply α} {s s' : State} {t : State'} {a : α}
    (ends : p.Ends V s a s') : p.lift.Ends (V.beside W) (s, t) a (s', t) := by
  induction ends with
  | done => exact .done
  | @answered r _ s s' _ reply _ answer _ ih =>
      have answer : (V.beside W).answers (s, t) (.inl r) reply (s', t) := ⟨answer, rfl⟩
      exact .answered answer ih

theorem wp_strongest (p : Program Request Reply α) (s : State) :
    p.wp V (p.Crashes V s) (p.Ends V s) s := by
  induction p generalizing s with
  | done a => exact ⟨.here, .done⟩
  | ask r next ih =>
      refine ⟨.here, fun e broken => .inside broken, fun reply s' answer => ?_⟩
      exact wp_mono (ih reply s') (fun e crashes => .answered answer crashes)
        fun a e ends => .answered answer ends

/-- One request of a program, answered. -/
inductive Step (W : World Request Reply State) :
    Program Request Reply α → State → Program Request Reply α → State → Prop where
  | answered {r : Request} {next : Reply r → Program Request Reply α} {s s' : State}
      {reply : Reply r} (answer : W.answers s r reply s') :
      Step W (ask r next) s (next reply) s'

/-- Some requests of a program, each of them answered. -/
inductive Steps (W : World Request Reply State) (p : Program Request Reply α) (s : State) :
    Program Request Reply α → State → Prop where
  | start : Steps W p s p s
  | next {q q' : Program Request Reply α} {t t' : State} (steps : Steps W p s q t)
      (step : Step W q t q' t') : Steps W p s q' t'

variable {crash : State → Prop} {post : α → State → Prop} {p q : Program Request Reply α}
  {s t : State}

theorem wp_step (h : p.wp V crash post s) (step : Step V p s q t) : q.wp V crash post t := by
  cases step with
  | answered answer => exact h.2.2 _ _ answer

theorem wp_steps (h : p.wp V crash post s) (steps : Steps V p s q t) : q.wp V crash post t := by
  induction steps with
  | start => exact h
  | next _ step ih => exact wp_step ih step

end Program

open Program

namespace Stream

inductive Request where
  | receive (limit : Nat)
  | send (bytes : List UInt8)

def Reply : Request → Type
  | .receive _ => Except (List UInt8) {chunk : List UInt8 // chunk ≠ []}
  | .send _ => Except (List UInt8) {sent : Nat // sent ≠ 0}

/-- Both directions of a connection as one of its ends sees them: the bytes that it has still to
receive, and the bytes that it has sent. -/
structure Pipe where
  inbound : List UInt8
  outbound : List UInt8

/-- A stream moves bytes in order, and as many of those asked for as it likes. -/
inductive Answers : Pipe → (r : Request) → Reply r → Pipe → Prop where
  | received {limit : Nat} {chunk inbound outbound : List UInt8} (filled : chunk ≠ [])
      (fits : chunk.length ≤ limit) :
      Answers ⟨chunk ++ inbound, outbound⟩ (.receive limit) (.ok ⟨chunk, filled⟩)
        ⟨inbound, outbound⟩
  | sent {bytes inbound outbound : List UInt8} {n : Nat} (positive : n ≠ 0)
      (fits : n ≤ bytes.length) :
      Answers ⟨inbound, outbound⟩ (.send bytes) (.ok ⟨n, positive⟩)
        ⟨inbound, outbound ++ bytes.take n⟩
  | unreceived {limit : Nat} {pipe : Pipe} (reason : List UInt8) :
      Answers pipe (.receive limit) (.error reason) pipe
  | unsent {bytes : List UInt8} {pipe : Pipe} (reason : List UInt8) :
      Answers pipe (.send bytes) (.error reason) pipe

def world : World Request Reply Pipe where
  answers := Answers
  breaks _ _ _ := False

theorem Answers.moves {pipe pipe' : Pipe} {r : Request} {reply : Reply r}
    (answers : Answers pipe r reply pipe') : ∃ taken given, pipe.inbound = taken ++ pipe'.inbound ∧
      pipe'.outbound = pipe.outbound ++ given ∧
      ∀ rest out, Answers ⟨taken ++ rest, out⟩ r reply ⟨rest, out ++ given⟩ := by
  cases answers with
  | @received _ chunk _ _ filled fits =>
      refine ⟨chunk, [], rfl, (List.append_nil _).symm, fun rest out => ?_⟩
      rw [List.append_nil]
      exact .received filled fits
  | @sent bytes _ _ n positive fits =>
      exact ⟨[], bytes.take n, rfl, rfl, fun rest out => .sent positive fits⟩
  | unreceived reason =>
      refine ⟨[], [], rfl, (List.append_nil _).symm, fun rest out => ?_⟩
      rw [List.append_nil]
      exact .unreceived reason
  | unsent reason =>
      refine ⟨[], [], rfl, (List.append_nil _).symm, fun rest out => ?_⟩
      rw [List.append_nil]
      exact .unsent reason

end Stream

abbrev Party (Request : Type) (Reply : Request → Type) (α : Type) :=
  Program (Request ⊕ Stream.Request) (Sum.elim Reply Stream.Reply) α

namespace Party

variable {Request State : Type} {Reply : Request → Type} {α : Type} {V : World Request Reply State}
  {p q : Party Request Reply α} {s t : State} {pipe pipe' : Stream.Pipe}

def receive (limit : Nat) :
    Party Request Reply (Except (List UInt8) {chunk : List UInt8 // chunk ≠ []}) :=
  ask (.inr (.receive limit)) done

def send (bytes : List UInt8) : Party Request Reply (Except (List UInt8) {sent : Nat // sent ≠ 0}) :=
  ask (.inr (.send bytes)) done

abbrev world (V : World Request Reply State) := V.beside Stream.world

theorem moves (step : Step (world V) p (s, pipe) q (t, pipe')) :
    ∃ taken given, pipe.inbound = taken ++ pipe'.inbound ∧
      pipe'.outbound = pipe.outbound ++ given ∧
      ∀ rest out, Step (world V) p (s, ⟨taken ++ rest, out⟩) q (t, ⟨rest, out ++ given⟩) := by
  cases step with
  | @answered r next _ _ reply answer =>
      cases r with
      | inl r =>
          obtain ⟨answer, same⟩ := answer
          obtain rfl : pipe' = pipe := same
          refine ⟨[], [], rfl, (List.append_nil _).symm, fun rest out => .answered ⟨answer, ?_⟩⟩
          rw [List.append_nil]
          rfl
      | inr r =>
          obtain ⟨answer, same⟩ := answer
          obtain ⟨taken, given, inbound, outbound, moves⟩ := Stream.Answers.moves answer
          exact ⟨taken, given, inbound, outbound, fun rest out => .answered ⟨moves rest out, same⟩⟩

section Weakest

variable {β : Type} {crash : State × Stream.Pipe → Prop} {post : β → State × Stream.Pipe → Prop}

theorem wp_receive {limit : Nat}
    {f : Except (List UInt8) {chunk : List UInt8 // chunk ≠ []} → Party Request Reply β} :
    (receive limit >>= f).wp (world V) crash post (s, pipe) ↔
      crash (s, pipe) ∧ (∀ reason, (f (.error reason)).wp (world V) crash post (s, pipe)) ∧
        ∀ chunk rest filled, pipe.inbound = chunk ++ rest → chunk.length ≤ limit →
          (f (.ok ⟨chunk, filled⟩)).wp (world V) crash post (s, ⟨rest, pipe.outbound⟩) := by
  constructor
  · rintro ⟨safe, -, answered⟩
    refine ⟨safe, fun reason => answered _ _ ⟨.unreceived reason, rfl⟩, ?_⟩
    intro chunk rest filled inbound fits
    obtain ⟨_, outbound⟩ := pipe
    obtain rfl := inbound
    exact answered _ (s, _) ⟨.received filled fits, rfl⟩
  · rintro ⟨safe, failed, received⟩
    refine ⟨safe, fun _ broken => broken.1.elim, ?_⟩
    rintro reply ⟨_, _⟩ ⟨answer, rfl⟩
    cases answer with
    | received filled fits => exact received _ _ filled rfl fits
    | unreceived reason => exact failed reason

theorem wp_send {bytes : List UInt8}
    {f : Except (List UInt8) {sent : Nat // sent ≠ 0} → Party Request Reply β} :
    (send bytes >>= f).wp (world V) crash post (s, pipe) ↔
      crash (s, pipe) ∧ (∀ reason, (f (.error reason)).wp (world V) crash post (s, pipe)) ∧
        ∀ n positive, n ≤ bytes.length →
          (f (.ok ⟨n, positive⟩)).wp (world V) crash post
            (s, ⟨pipe.inbound, pipe.outbound ++ bytes.take n⟩) := by
  constructor
  · rintro ⟨safe, -, answered⟩
    exact ⟨safe, fun reason => answered _ _ ⟨.unsent reason, rfl⟩,
      fun n positive fits => answered _ (s, _) ⟨.sent positive fits, rfl⟩⟩
  · rintro ⟨safe, failed, sent⟩
    refine ⟨safe, fun _ broken => broken.1.elim, ?_⟩
    rintro reply ⟨_, _⟩ ⟨answer, rfl⟩
    cases answer with
    | sent positive fits => exact sent _ positive fits
    | unsent reason => exact failed reason

end Weakest

section Ends

variable {β : Type} {b : β} {e : State × Stream.Pipe} {inbound outbound : List UInt8}

theorem ends_receive {limit : Nat}
    {f : Except (List UInt8) {chunk : List UInt8 // chunk ≠ []} → Party Request Reply β}
    {chunk : List UInt8} (filled : chunk ≠ []) (fits : chunk.length ≤ limit)
    (rest : (f (.ok ⟨chunk, filled⟩)).Ends (world V) (s, ⟨inbound, outbound⟩) b e) :
    (receive limit >>= f).Ends (world V) (s, ⟨chunk ++ inbound, outbound⟩) b e :=
  have answer : (world V).answers (s, ⟨chunk ++ inbound, outbound⟩) (.inr (.receive limit))
    (Except.ok ⟨chunk, filled⟩) (s, ⟨inbound, outbound⟩) := ⟨.received filled fits, rfl⟩
  .answered answer rest

theorem ends_unreceived {limit : Nat}
    {f : Except (List UInt8) {chunk : List UInt8 // chunk ≠ []} → Party Request Reply β}
    (reason : List UInt8) (rest : (f (.error reason)).Ends (world V) (s, pipe) b e) :
    (receive limit >>= f).Ends (world V) (s, pipe) b e :=
  have answer : (world V).answers (s, pipe) (.inr (.receive limit)) (Except.error reason) (s, pipe) :=
    ⟨.unreceived reason, rfl⟩
  .answered answer rest

theorem ends_send {bytes : List UInt8}
    {f : Except (List UInt8) {sent : Nat // sent ≠ 0} → Party Request Reply β} {n : Nat}
    (positive : n ≠ 0) (fits : n ≤ bytes.length)
    (rest : (f (.ok ⟨n, positive⟩)).Ends (world V) (s, ⟨inbound, outbound ++ bytes.take n⟩) b e) :
    (send bytes >>= f).Ends (world V) (s, ⟨inbound, outbound⟩) b e :=
  have answer : (world V).answers (s, ⟨inbound, outbound⟩) (.inr (.send bytes))
    (Except.ok ⟨n, positive⟩) (s, ⟨inbound, outbound ++ bytes.take n⟩) := ⟨.sent positive fits, rfl⟩
  .answered answer rest

end Ends

theorem extend (more : List UInt8)
    (steps : Steps (world V) p (s, pipe) q (t, pipe')) :
    Steps (world V) p (s, ⟨pipe.inbound ++ more, pipe.outbound⟩) q
      (t, ⟨pipe'.inbound ++ more, pipe'.outbound⟩) := by
  generalize behind : (t, pipe') = state at steps
  induction steps generalizing t pipe' with
  | start =>
      cases behind
      exact .start
  | @next _ _ between _ _ step ih =>
      subst behind
      obtain ⟨here, queues⟩ := between
      obtain ⟨taken, given, inbound, outbound, moves⟩ := moves step
      have before := ih rfl
      rw [inbound, List.append_assoc] at before
      rw [outbound]
      exact before.next (moves _ _)

end Party

section Meeting

variable {Request Request' State State' : Type} {Reply : Request → Type}
  {Reply' : Request' → Type} {α β : Type}

/-- Two parties and the bytes on their way from each to the other. -/
structure Meeting (Reply : Request → Type) (Reply' : Request' → Type) (State State' α β : Type) where
  left : Party Request Reply α
  right : Party Request' Reply' β
  leftState : State
  rightState : State'
  toRight : List UInt8
  toLeft : List UInt8

/-- One of the parties goes on. -/
inductive Meets (V : World Request Reply State) (W : World Request' Reply' State') :
    Meeting Reply Reply' State State' α β → Meeting Reply Reply' State State' α β → Prop where
  | left {p p' : Party Request Reply α} {q : Party Request' Reply' β} {s s' : State} {t : State'}
      {toRight toRight' toLeft toLeft' : List UInt8}
      (step : Step (Party.world V) p (s, ⟨toLeft, toRight⟩) p' (s', ⟨toLeft', toRight'⟩)) :
      Meets V W ⟨p, q, s, t, toRight, toLeft⟩ ⟨p', q, s', t, toRight', toLeft'⟩
  | right {p : Party Request Reply α} {q q' : Party Request' Reply' β} {s : State} {t t' : State'}
      {toRight toRight' toLeft toLeft' : List UInt8}
      (step : Step (Party.world W) q (t, ⟨toRight, toLeft⟩) q' (t', ⟨toRight', toLeft'⟩)) :
      Meets V W ⟨p, q, s, t, toRight, toLeft⟩ ⟨p, q', s, t', toRight', toLeft'⟩

/-- Whatever the order in which the parties go on, each does what it could do on its own, over a
stream that holds what the other one has sent. -/
theorem Meets.apart {V : World Request Reply State} {W : World Request' Reply' State'}
    {p : Party Request Reply α} {q : Party Request' Reply' β} {s : State} {t : State'}
    {m : Meeting Reply Reply' State State' α β}
    (run : Relation.ReflTransGen (Meets V W) ⟨p, q, s, t, [], []⟩ m) :
    ∃ fromLeft fromRight,
      Steps (Party.world V) p (s, ⟨fromRight, []⟩) m.left (m.leftState, ⟨m.toLeft, fromLeft⟩) ∧
      Steps (Party.world W) q (t, ⟨fromLeft, []⟩) m.right (m.rightState, ⟨m.toRight, fromRight⟩) := by
  induction run with
  | refl => exact ⟨[], [], .start, .start⟩
  | tail _ meets ih =>
      obtain ⟨fromLeft, fromRight, left, right⟩ := ih
      cases meets with
      | left step =>
          obtain ⟨taken, given, inbound, outbound, moves⟩ := Party.moves step
          dsimp only at inbound outbound left right
          subst inbound outbound
          exact ⟨fromLeft ++ given, fromRight, left.next (moves _ _), Party.extend given right⟩
      | right step =>
          obtain ⟨taken, given, inbound, outbound, moves⟩ := Party.moves step
          dsimp only at inbound outbound left right
          subst inbound outbound
          exact ⟨fromLeft, fromRight ++ given, Party.extend given left, right.next (moves _ _)⟩

variable {V : World Request Reply State} {W : World Request' Reply' State'}
  {p : Party Request Reply α} {q : Party Request' Reply' β} {s s' : State} {t t' : State'}
  {toRight toRight' toLeft toLeft' : List UInt8} {γ : Type} {c : γ}

theorem Meets.left_ends {p : Party Request Reply γ} {f : γ → Party Request Reply α}
    (ends : p.Ends (Party.world V) (s, ⟨toLeft, toRight⟩) c (s', ⟨toLeft', toRight'⟩)) :
    Relation.ReflTransGen (Meets V W) ⟨p >>= f, q, s, t, toRight, toLeft⟩
      ⟨f c, q, s', t, toRight', toLeft'⟩ := by
  generalize before : (s, Stream.Pipe.mk toLeft toRight) = state at ends
  generalize behind : (s', Stream.Pipe.mk toLeft' toRight') = state' at ends
  induction ends generalizing s toLeft toRight with
  | done =>
      cases before.trans behind.symm
      exact .refl
  | @answered r next _ between _ reply _ answer _ ih =>
      cases before
      have step : Step (Party.world V) (ask r fun reply => next reply >>= f) _ _ between :=
        .answered answer
      exact .head (.left step) (ih rfl behind)

theorem Meets.right_ends {q : Party Request' Reply' γ} {f : γ → Party Request' Reply' β}
    (ends : q.Ends (Party.world W) (t, ⟨toRight, toLeft⟩) c (t', ⟨toRight', toLeft'⟩)) :
    Relation.ReflTransGen (Meets V W) ⟨p, q >>= f, s, t, toRight, toLeft⟩
      ⟨p, f c, s, t', toRight', toLeft'⟩ := by
  generalize before : (t, Stream.Pipe.mk toRight toLeft) = state at ends
  generalize behind : (t', Stream.Pipe.mk toRight' toLeft') = state' at ends
  induction ends generalizing t toLeft toRight with
  | done =>
      cases before.trans behind.symm
      exact .refl
  | @answered r next _ between _ reply _ answer _ ih =>
      cases before
      have step : Step (Party.world W) (ask r fun reply => next reply >>= f) _ _ between :=
        .answered answer
      exact .head (.right step) (ih rfl behind)

end Meeting

end Interaction
