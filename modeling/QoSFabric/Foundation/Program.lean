import Mathlib.Init

/-!
# Programs of requests

A program issues requests to a world and goes on with each reply. Its weakest precondition asks
for a postcondition at the end and for a crash condition at every point on the way.
-/

namespace Interaction

inductive Program (Request : Type) (Reply : Request → Type) (α : Type) where
  | done (result : α)
  | ask (request : Request) (next : Reply request → Program Request Reply α)

namespace Program

variable {Request State : Type} {Reply : Request → Type} {α β : Type}

def bind : Program Request Reply α → (α → Program Request Reply β) → Program Request Reply β
  | done a, f => f a
  | ask r next, f => ask r fun reply => (next reply).bind f

instance : Monad (Program Request Reply) where
  pure := done
  bind := bind

def perform (r : Request) : Program Request Reply (Reply r) := ask r done

@[simp] theorem done_bind (a : α) (f : α → Program Request Reply β) : done a >>= f = f a := rfl

@[simp] theorem ask_bind (r : Request) (next : Reply r → Program Request Reply α)
    (f : α → Program Request Reply β) :
    ask r next >>= f = ask r fun reply => next reply >>= f := rfl

@[simp] theorem pure_eq_done (a : α) : (pure a : Program Request Reply α) = done a := rfl

@[simp] theorem perform_bind (r : Request) (f : Reply r → Program Request Reply β) :
    perform r >>= f = ask r f := rfl

theorem bind_assoc {γ : Type} (p : Program Request Reply α) (f : α → Program Request Reply β)
    (g : β → Program Request Reply γ) : p >>= f >>= g = p >>= fun a => f a >>= g := by
  induction p with
  | done a => rfl
  | ask r next ih =>
      simp only [ask_bind]
      exact congrArg (ask r) (funext fun reply => ih reply)

/-- What a world may do with a request: the replies it gives, with the state behind each, and the
states a crash inside the request leaves. -/
structure World (Request : Type) (Reply : Request → Type) (State : Type) where
  answers : State → (r : Request) → Reply r → State → Prop
  breaks : State → Request → State → Prop

def answering (answer : State → (r : Request) → Reply r × State)
    (breaks : State → Request → State → Prop) : World Request Reply State where
  answers s r reply s' := answer s r = (reply, s')
  breaks := breaks

inductive Ends (W : World Request Reply State) :
    Program Request Reply α → State → α → State → Prop where
  | done {a : α} {s : State} : Ends W (done a) s a s
  | answered {r : Request} {next : Reply r → Program Request Reply α} {s s' e : State}
      {reply : Reply r} {a : α} (answer : W.answers s r reply s')
      (rest : Ends W (next reply) s' a e) : Ends W (ask r next) s a e

/-- The states a crash during a run can leave. -/
inductive Crashes (W : World Request Reply State) :
    Program Request Reply α → State → State → Prop where
  | here {p : Program Request Reply α} {s : State} : Crashes W p s s
  | inside {r : Request} {next : Reply r → Program Request Reply α} {s e : State}
      (broken : W.breaks s r e) : Crashes W (ask r next) s e
  | answered {r : Request} {next : Reply r → Program Request Reply α} {s s' e : State}
      {reply : Reply r} (answer : W.answers s r reply s') (rest : Crashes W (next reply) s' e) :
      Crashes W (ask r next) s e

def wp (W : World Request Reply State) (crash : State → Prop) :
    Program Request Reply α → (α → State → Prop) → State → Prop
  | done a, post, s => crash s ∧ post a s
  | ask r next, post, s =>
      crash s ∧ (∀ e, W.breaks s r e → crash e) ∧
        ∀ reply s', W.answers s r reply s' → (next reply).wp W crash post s'

variable {W : World Request Reply State} {crash : State → Prop} {post : α → State → Prop}

theorem wp_done {a : α} {s : State} : (done a).wp W crash post s ↔ crash s ∧ post a s := Iff.rfl

theorem wp_ask {r : Request} {next : Reply r → Program Request Reply α} {s : State} :
    (ask r next).wp W crash post s ↔
      crash s ∧ (∀ e, W.breaks s r e → crash e) ∧
        ∀ reply s', W.answers s r reply s' → (next reply).wp W crash post s' := Iff.rfl

theorem crash_of_wp {p : Program Request Reply α} {s : State} (h : p.wp W crash post s) :
    crash s := by
  cases p with
  | done a => exact h.1
  | ask r next => exact h.1

theorem wp_bind {p : Program Request Reply α} {f : α → Program Request Reply β}
    {post : β → State → Prop} {s : State} :
    (p >>= f).wp W crash post s ↔ p.wp W crash (fun a s => (f a).wp W crash post s) s := by
  induction p generalizing s with
  | done a => exact ⟨fun h => ⟨crash_of_wp h, h⟩, And.right⟩
  | ask r next ih =>
      simp only [ask_bind, wp_ask]
      exact and_congr_right fun _ => and_congr_right fun _ => forall₃_congr fun reply s' _ => ih reply

theorem wp_mono {p : Program Request Reply α} {crash' : State → Prop} {post' : α → State → Prop}
    {s : State} (h : p.wp W crash post s) (weakerCrash : ∀ s, crash s → crash' s)
    (weakerPost : ∀ a s, post a s → post' a s) : p.wp W crash' post' s := by
  induction p generalizing s with
  | done a => exact ⟨weakerCrash _ h.1, weakerPost _ _ h.2⟩
  | ask r next ih =>
      exact ⟨weakerCrash _ h.1, fun e broken => weakerCrash e (h.2.1 e broken),
        fun reply s' answer => ih reply (h.2.2 reply s' answer)⟩

theorem wp_ends {p : Program Request Reply α} {s e : State} {a : α} (h : p.wp W crash post s)
    (run : p.Ends W s a e) : post a e := by
  induction run with
  | done => exact h.2
  | answered answer _ ih => exact ih (h.2.2 _ _ answer)

theorem ends_bind {p : Program Request Reply α} {f : α → Program Request Reply β} {s e : State}
    {b : β} : (p >>= f).Ends W s b e ↔ ∃ a m, p.Ends W s a m ∧ (f a).Ends W m b e := by
  constructor
  · intro run
    induction p generalizing s with
    | done a => exact ⟨a, s, .done, run⟩
    | ask r next ih =>
        cases run with
        | answered answer rest =>
            obtain ⟨a, m, first, second⟩ := ih _ rest
            exact ⟨a, m, .answered answer first, second⟩
  · rintro ⟨a, m, first, second⟩
    induction first with
    | done => exact second
    | answered answer _ ih => exact .answered answer (ih second)

theorem wp_crashes {p : Program Request Reply α} {s e : State} (h : p.wp W crash post s)
    (run : p.Crashes W s e) : crash e := by
  induction run with
  | here => exact crash_of_wp h
  | inside broken => exact h.2.1 _ broken
  | answered answer _ ih => exact ih (h.2.2 _ _ answer)

section Run

variable {answer : State → (r : Request) → Reply r × State}
  {breaks : State → Request → State → Prop}

def run (answer : State → (r : Request) → Reply r × State) :
    Program Request Reply α → State → α × State
  | done a, s => (a, s)
  | ask r next, s => (next (answer s r).1).run answer (answer s r).2

@[simp] theorem run_done (a : α) (s : State) :
    (done a : Program Request Reply α).run answer s = (a, s) := rfl

@[simp] theorem run_ask (r : Request) (next : Reply r → Program Request Reply α) (s : State) :
    (ask r next).run answer s = (next (answer s r).1).run answer (answer s r).2 := rfl

theorem run_bind (p : Program Request Reply α) (f : α → Program Request Reply β) (s : State) :
    (p >>= f).run answer s = (f (p.run answer s).1).run answer (p.run answer s).2 := by
  induction p generalizing s with
  | done a => rfl
  | ask r next ih => exact ih _ _

@[simp] theorem run_perform (r : Request) (s : State) :
    (perform r : Program Request Reply (Reply r)).run answer s = answer s r := rfl

theorem ends_run (p : Program Request Reply α) (s : State) :
    p.Ends (answering answer breaks) s (p.run answer s).1 (p.run answer s).2 := by
  induction p generalizing s with
  | done a => exact .done
  | ask r next ih => exact .answered rfl (ih _ _)

theorem run_of_ends {p : Program Request Reply α} {s e : State} {a : α}
    (ends : p.Ends (answering answer breaks) s a e) : p.run answer s = (a, e) := by
  induction ends with
  | done => rfl
  | @answered r next s s' e reply a answered rest ih =>
      have replied : answer s r = (reply, s') := answered
      rw [run_ask, replied]
      exact ih

theorem wp_ask_answering {r : Request} {next : Reply r → Program Request Reply α} {s : State} :
    (ask r next).wp (answering answer breaks) crash post s ↔
      crash s ∧ (∀ e, breaks s r e → crash e) ∧
        (next (answer s r).1).wp (answering answer breaks) crash post (answer s r).2 := by
  rw [wp_ask]
  refine and_congr_right fun _ => and_congr_right fun _ => ⟨fun h => h _ _ rfl, ?_⟩
  intro h reply s' (eq : answer s r = (reply, s'))
  rw [eq] at h
  exact h

theorem wp_of_run {p : Program Request Reply α} {s : State} {post' : α → State → Prop}
    (h : p.wp (answering answer breaks) crash post' s)
    (done : post (p.run answer s).1 (p.run answer s).2) :
    p.wp (answering answer breaks) crash post s := by
  induction p generalizing s with
  | done a => exact ⟨h.1, done⟩
  | ask r next ih =>
      rw [wp_ask_answering] at h ⊢
      exact ⟨h.1, h.2.1, ih _ h.2.2 done⟩

theorem wp_run {p : Program Request Reply α} {s : State}
    (h : p.wp (answering answer breaks) crash post s) :
    post (p.run answer s).1 (p.run answer s).2 :=
  wp_ends h (ends_run p s)

/-- Every request of a program is one of those allowed. -/
inductive Asks (allowed : Request → Prop) : Program Request Reply α → Prop where
  | done (a : α) : Asks allowed (done a)
  | ask {r : Request} {next : Reply r → Program Request Reply α} (asked : allowed r)
      (rest : ∀ reply, Asks allowed (next reply)) : Asks allowed (ask r next)

variable {allowed : Request → Prop}

theorem Asks.perform {r : Request} (asked : allowed r) :
    Asks allowed (Program.perform r : Program Request Reply (Reply r)) :=
  .ask asked fun reply => .done reply

theorem Asks.bind {p : Program Request Reply α} {f : α → Program Request Reply β}
    (first : Asks allowed p) (rest : ∀ a, Asks allowed (f a)) : Asks allowed (p >>= f) := by
  induction first with
  | done a => exact rest a
  | ask asked _ ih => exact .ask asked ih

theorem Asks.ite {p q : Program Request Reply α} {condition : Prop} [Decidable condition]
    (yes : Asks allowed p) (no : Asks allowed q) : Asks allowed (if condition then p else q) := by
  split
  · exact yes
  · exact no

theorem Asks.run {p : Program Request Reply α} {holds : State → Prop}
    (keeps : ∀ r, allowed r → ∀ s, holds s → holds (answer s r).2) (asks : Asks allowed p) {s : State}
    (h : holds s) : holds (p.run answer s).2 := by
  induction asks generalizing s with
  | done a => exact h
  | ask asked _ ih => exact ih _ (keeps _ asked s h)

def Always (P : α → Prop) : Program Request Reply α → Prop
  | done a => P a
  | ask _ next => ∀ reply, (next reply).Always P

variable {P : α → Prop} {Q : β → Prop}

theorem Always.mono {P' : α → Prop} {p : Program Request Reply α} (always : p.Always P)
    (weaker : ∀ a, P a → P' a) : p.Always P' := by
  induction p with
  | done a => exact weaker a always
  | ask r next ih => exact fun reply => ih reply (always reply)

theorem Always.bind {p : Program Request Reply α} {f : α → Program Request Reply β}
    (first : p.Always P) (rest : ∀ a, P a → (f a).Always Q) : (p >>= f).Always Q := by
  induction p with
  | done a => exact rest a first
  | ask r next ih => exact fun reply => ih reply (first reply)

theorem always_true (p : Program Request Reply α) : p.Always fun _ => True := by
  induction p with
  | done a => trivial
  | ask r next ih => exact ih

theorem Always.after {p : Program Request Reply α} {f : α → Program Request Reply β}
    (rest : ∀ a, (f a).Always Q) : (p >>= f).Always Q :=
  (always_true p).bind fun a _ => rest a

variable (answer) in
theorem Always.run {p : Program Request Reply α} (always : p.Always P) (s : State) :
    P (p.run answer s).1 := by
  induction p generalizing s with
  | done a => exact always
  | ask r next ih => exact ih _ (always _) _

end Run

end Program

end Interaction
