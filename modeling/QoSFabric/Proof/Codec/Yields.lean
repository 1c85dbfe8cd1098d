import QoSFabric.Model.Registry

namespace QoSFabric

namespace Decode

variable {α β σ : Type}

theorem map_eq_ok {result : Result α} {f : α → β} {b : β} :
    result.map f = .ok b ↔ ∃ a, result = .ok a ∧ f a = b := by
  cases result with
  | error e => simp [Except.map]
  | ok a => simp [Except.map]

structure Yields (p : Decode α) (post : α → Prop) : Prop where
  ok : ∀ reader a reader', p reader = .ok (a, reader') → post a

theorem Yields.pure {a : α} {post : α → Prop} (h : post a) : Yields (pure a) post := by
  constructor
  intro reader a' reader' eq
  cases eq
  exact h

theorem Yields.bind {p : Decode α} {f : α → Decode β} {M : α → Prop} {post : β → Prop}
    (h : Yields p M) (rest : ∀ a, M a → Yields (f a) post) : Yields (p >>= f) post := by
  constructor
  intro reader b reader' eq
  change (p reader >>= fun x => f x.1 x.2) = .ok (b, reader') at eq
  cases first : p reader with
  | error e =>
      rw [first] at eq
      cases eq
  | ok x =>
      rw [first] at eq
      exact (rest x.1 (h.ok _ _ _ first)).ok x.2 b reader' eq

theorem Yields.after {p : Decode α} {f : α → Decode β} {post : β → Prop}
    (rest : ∀ a, Yields (f a) post) : Yields (p >>= f) post :=
  have anything : Yields p fun _ => True := ⟨fun _ _ _ _ => trivial⟩
  anything.bind fun a _ => rest a

theorem Yields.refuse {code : ErrorCode} {detail : String} {post : α → Prop} :
    Yields (refuse code detail : Decode α) post := by
  constructor
  intro reader a reader' eq
  cases eq

theorem Yields.ite {c : Prop} [Decidable c] {p q : Decode α} {post : α → Prop}
    (yes : c → Yields p post) (no : ¬c → Yields q post) : Yields (if c then p else q) post := by
  split
  · next h => exact yes h
  · next h => exact no h

theorem Yields.loop {step : σ → Decode σ} {I : Nat → σ → Prop} (n : Nat)
    (keeps : ∀ i s, i < n → I i s → Yields (step s) (I (i + 1))) {s : σ} (start : I 0 s) :
    Yields (Decode.loop step n s) (I n) := by
  induction n generalizing I s with
  | zero => exact .pure start
  | succ n ih =>
      apply Yields.bind (keeps 0 s (Nat.zero_lt_succ n) start)
      intro s' h
      exact ih (I := fun i => I (i + 1))
        (fun i t lt inv => keeps (i + 1) t (Nat.succ_lt_succ lt) inv) h

theorem yields_count {maxCount : Nat} {detail : String} :
    Yields (decodeCount maxCount detail) (· ≤ maxCount) := by
  constructor
  intro reader count reader' eq
  unfold decodeCount at eq
  change (require .tooLarge detail (Read.count maxCount reader).1 (Read.count maxCount reader).2) =
    .ok (count, reader') at eq
  unfold Read.count at eq
  dsimp only at eq
  split at eq
  · cases eq
  split at eq
  · cases eq
  · next small =>
      cases eq
      exact Nat.le_of_not_lt small

end Decode

end QoSFabric
