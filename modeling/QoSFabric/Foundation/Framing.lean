import Mathlib.Data.List.Basic
import Mathlib.Data.List.Infix

/-!
# Framed logs

A log is the concatenation of the frames of its items. A cut leaves some whole frames and a torn
one, and a scan of what is left visits the items of the whole frames in order.
-/

namespace Framing

abbrev Bytes := List UInt8

/-- What the start of some bytes is. -/
inductive Outcome (α : Type) where
  | whole (item : α) (size : Nat)
  | incomplete
  | bad
  deriving DecidableEq

def Outcome.isWhole {α : Type} : Outcome α → Bool
  | .whole _ _ => true
  | _ => false

/-- Where a scan stopped: at the end, at bytes that are no frame, or at a frame it refused. -/
inductive Stop where
  | ended (rest : Bytes)
  | unparsed (rest : Bytes)
  | refused (rest after : Bytes)
  deriving DecidableEq

def Stop.rest : Stop → Bytes
  | .ended rest | .unparsed rest | .refused rest _ => rest

section Scan

variable {α σ : Type}

def scan (header : Nat) (parse : Bytes → Outcome α) (visit : σ → α → σ × Bool) :
    Nat → σ → Bytes → σ × Stop
  | 0, s, rest => (s, .ended rest)
  | fuel + 1, s, rest =>
      if rest.length < header then (s, .ended rest)
      else match parse rest with
        | .whole item size =>
            match visit s item with
            | (s, true) => scan header parse visit fuel s (rest.drop size)
            | (s, false) => (s, .refused rest (rest.drop size))
        | _ => (s, .unparsed rest)

theorem scan_keeps {header : Nat} {parse : Bytes → Outcome α} {visit : σ → α → σ × Bool}
    {P : σ → Prop} (keeps : ∀ s a, P s → P (visit s a).1) {fuel : Nat} {s : σ} {bytes : Bytes}
    (h : P s) : P (scan header parse visit fuel s bytes).1 := by
  induction fuel generalizing s bytes with
  | zero => exact h
  | succ fuel ih =>
      unfold scan
      split
      · exact h
      · split
        · next item size _ =>
            have step := keeps s item h
            split
            · next eq =>
                rw [eq] at step
                exact ih step
            · next eq =>
                rw [eq] at step
                exact step
        · exact h

theorem scan_simulates {τ : Type} {R : σ → τ → Prop} {header : Nat} {parse : Bytes → Outcome α}
    {visit : σ → α → σ × Bool} {visit' : τ → α → τ × Bool}
    (step : ∀ s t a, R s t → R (visit s a).1 (visit' t a).1 ∧ (visit s a).2 = (visit' t a).2)
    {fuel : Nat} {s : σ} {t : τ} {bytes : Bytes} (h : R s t) :
    R (scan header parse visit fuel s bytes).1 (scan header parse visit' fuel t bytes).1 ∧
      (scan header parse visit fuel s bytes).2 = (scan header parse visit' fuel t bytes).2 := by
  induction fuel generalizing s t bytes with
  | zero => exact ⟨h, rfl⟩
  | succ fuel ih =>
      unfold scan
      split
      · exact ⟨h, rfl⟩
      · split
        · next item size _ =>
            obtain ⟨related, refused⟩ := step s t item h
            cases left : visit s item with
            | mk u accepted =>
                cases right : visit' t item with
                | mk v accepted' =>
                    rw [left, right] at related refused
                    obtain rfl : accepted = accepted' := refused
                    cases accepted with
                    | true => exact ih related
                    | false => exact ⟨related, rfl⟩
        · exact ⟨h, rfl⟩

def extent (header : Nat) (parse : Bytes → Outcome α) (fuel : Nat) (bytes : Bytes) : Stop :=
  (scan header parse (fun u _ => (u, true)) fuel () bytes).2

def frames (header : Nat) (parse : Bytes → Outcome α) : Nat → Bytes → List (α × Bytes)
  | 0, _ => []
  | fuel + 1, rest =>
      if rest.length < header then []
      else match parse rest with
        | .whole item size => (item, rest) :: frames header parse fuel (rest.drop size)
        | _ => []

/-- What a scan comes to when its visitor judges each item alone: it passes them all, or stops at the
first it refuses. -/
inductive Scanned (header : Nat) (parse : Bytes → Outcome α) (visit : σ → α → σ × Bool)
    (accepts : α → Bool) (fuel : Nat) (s : σ) (bytes : Bytes) : Prop where
  | passed (accepted : ∀ p ∈ frames header parse fuel bytes, accepts p.1 = true)
      (eq : scan header parse visit fuel s bytes =
        ((frames header parse fuel bytes).foldl (fun s p => (visit s p.1).1) s,
          extent header parse fuel bytes))
  | stopped (done later : List (α × Bytes)) (item : α) (rest : Bytes) (size : Nat)
      (split : frames header parse fuel bytes = done ++ (item, rest) :: later)
      (accepted : ∀ p ∈ done, accepts p.1 = true) (refused : accepts item = false)
      (whole : parse rest = .whole item size)
      (eq : scan header parse visit fuel s bytes =
        ((done ++ [(item, rest)]).foldl (fun s p => (visit s p.1).1) s,
          .refused rest (rest.drop size)))

theorem scanned {header : Nat} {parse : Bytes → Outcome α} {visit : σ → α → σ × Bool}
    {accepts : α → Bool} (judged : ∀ s a, (visit s a).2 = accepts a) (fuel : Nat) (s : σ)
    (bytes : Bytes) : Scanned header parse visit accepts fuel s bytes := by
  induction fuel generalizing s bytes with
  | zero => exact .passed nofun rfl
  | succ fuel ih =>
      by_cases short : bytes.length < header
      · refine .passed ?_ ?_
        · rw [frames, if_pos short]
          exact nofun
        · rw [frames, extent, scan, scan, if_pos short, if_pos short, if_pos short]
          rfl
      cases parsed : parse bytes with
      | whole item size =>
          have framed : frames header parse (fuel + 1) bytes =
              (item, bytes) :: frames header parse fuel (bytes.drop size) := by
            rw [frames, if_neg short, parsed]
          have reaches : extent header parse (fuel + 1) bytes =
              extent header parse fuel (bytes.drop size) := by
            rw [extent, scan, if_neg short, parsed]
            rfl
          have judgement := judged s item
          cases visited : visit s item with
          | mk t accepted =>
              rw [visited] at judgement
              have moved : (visit s item).1 = t := by rw [visited]
              cases accepted with
              | true =>
                  have turned : scan header parse visit (fuel + 1) s bytes =
                      scan header parse visit fuel t (bytes.drop size) := by
                    rw [scan, if_neg short, parsed]
                    dsimp only
                    rw [visited]
                  rcases ih t (bytes.drop size) with
                    ⟨accepted, eq⟩ | ⟨done, later, a, rest, n, split, accepted, refused, whole, eq⟩
                  · refine .passed ?_ ?_
                    · rw [framed]
                      exact List.forall_mem_cons.mpr ⟨judgement.symm, accepted⟩
                    · rw [turned, eq, framed, reaches, List.foldl_cons, moved]
                  · refine .stopped ((item, bytes) :: done) later a rest n ?_ ?_ refused whole ?_
                    · rw [framed, split, List.cons_append]
                    · exact List.forall_mem_cons.mpr ⟨judgement.symm, accepted⟩
                    · rw [turned, eq, List.cons_append, List.foldl_cons, moved]
              | false =>
                  refine .stopped [] _ item bytes size framed nofun judgement.symm parsed ?_
                  rw [scan, if_neg short, parsed]
                  dsimp only
                  rw [visited, List.nil_append, List.foldl_cons, List.foldl_nil, moved]
      | incomplete =>
          refine .passed ?_ ?_
          · rw [frames, if_neg short, parsed]
            exact nofun
          · rw [frames, extent, scan, scan, if_neg short, if_neg short, if_neg short, parsed]
            rfl
      | bad =>
          refine .passed ?_ ?_
          · rw [frames, if_neg short, parsed]
            exact nofun
          · rw [frames, extent, scan, scan, if_neg short, if_neg short, if_neg short, parsed]
            rfl

theorem frames_behind {header : Nat} {parse : Bytes → Outcome α} {fuel : Nat} {bytes rest : Bytes}
    {done later : List (α × Bytes)} {item : α} {size : Nat} (positive : 0 < header)
    (ended : extent header parse fuel bytes = .ended [])
    (split : frames header parse fuel bytes = done ++ (item, rest) :: later)
    (whole : parse rest = .whole item size) :
    (later = [] ∧ rest.drop size = []) ∨
      (rest.drop size ≠ [] ∧ (parse (rest.drop size)).isWhole = true) := by
  induction fuel generalizing bytes done with
  | zero => simp [frames] at split
  | succ fuel ih =>
      by_cases short : bytes.length < header
      · rw [frames, if_pos short] at split
        simp at split
      cases parsed : parse bytes with
      | whole first length =>
          rw [frames, if_neg short, parsed] at split
          have reaches : extent header parse fuel (bytes.drop length) = .ended [] := by
            rw [extent, scan, if_neg short, parsed] at ended
            exact ended
          cases done with
          | nil =>
              obtain ⟨same, behind⟩ := List.cons.inj split
              obtain ⟨rfl, rfl⟩ := Prod.mk.inj same
              obtain ⟨-, rfl⟩ := Outcome.whole.inj (parsed.symm.trans whole)
              cases fuel with
              | zero =>
                  left
                  refine ⟨behind.symm, ?_⟩
                  exact Stop.ended.inj reaches
              | succ fuel =>
                  by_cases spent : (bytes.drop length).length < header
                  · rw [extent, scan, if_pos spent] at reaches
                    rw [frames, if_pos spent] at behind
                    exact .inl ⟨behind.symm, Stop.ended.inj reaches⟩
                  · right
                    refine ⟨?_, ?_⟩
                    · intro empty
                      rw [empty] at spent
                      exact spent positive
                    · rw [extent, scan, if_neg spent] at reaches
                      cases next : parse (bytes.drop length) with
                      | whole _ _ => rfl
                      | incomplete =>
                          rw [next] at reaches
                          cases reaches
                      | bad =>
                          rw [next] at reaches
                          cases reaches
          | cons p done =>
              obtain ⟨-, split⟩ := List.cons.inj split
              exact ih reaches split
      | incomplete =>
          rw [frames, if_neg short, parsed] at split
          simp at split
      | bad =>
          rw [frames, if_neg short, parsed] at split
          simp at split

def anyWhole (parse : Bytes → Outcome α) : Bytes → Bool
  | [] => false
  | b :: rest => (parse (b :: rest)).isWhole || anyWhole parse rest

theorem anyWhole_iff {parse : Bytes → Outcome α} {bytes : Bytes} :
    anyWhole parse bytes = true ↔ ∃ rest, rest ≠ [] ∧ rest <:+ bytes ∧ (parse rest).isWhole := by
  induction bytes with
  | nil =>
      simp only [anyWhole, Bool.false_eq_true, false_iff, not_exists, not_and]
      rintro rest ne suffix
      exact absurd (List.suffix_nil.mp suffix) ne
  | cons b bytes ih =>
      rw [anyWhole, Bool.or_eq_true, ih]
      constructor
      · rintro (here | ⟨rest, ne, suffix, whole⟩)
        · exact ⟨b :: bytes, List.cons_ne_nil _ _, List.suffix_refl _, here⟩
        · exact ⟨rest, ne, suffix.trans (List.suffix_cons _ _), whole⟩
      · rintro ⟨rest, ne, suffix, whole⟩
        rcases List.suffix_cons_iff.mp suffix with rfl | later
        · exact .inl whole
        · exact .inr ⟨rest, ne, later, whole⟩

end Scan

/-- A format whose frames are found again at the start of any bytes, and whose cut frames are
recognised as such. -/
structure Format (α : Type) where
  header : Nat
  encode : α → Bytes
  parse : Bytes → Outcome α
  Fits : α → Prop
  header_le : ∀ a, header ≤ (encode a).length
  header_pos : 0 < header
  parse_encode : ∀ a rest, Fits a → parse (encode a ++ rest) = .whole a (encode a).length
  parse_torn : ∀ a torn, Fits a → torn <+: encode a → torn ≠ encode a → parse torn = .incomplete

namespace Format

variable {α σ : Type} (format : Format α)

def log (items : List α) : Bytes := items.flatMap format.encode

@[simp] theorem log_nil : format.log [] = [] := rfl

@[simp] theorem log_cons (a : α) (items : List α) :
    format.log (a :: items) = format.encode a ++ format.log items := rfl

@[simp] theorem log_append (items more : List α) :
    format.log (items ++ more) = format.log items ++ format.log more := List.flatMap_append

theorem log_concat (items : List α) (a : α) :
    format.log (items ++ [a]) = format.log items ++ format.encode a := by simp

theorem length_le_log (items : List α) : items.length ≤ (format.log items).length := by
  induction items with
  | nil => simp
  | cons a items ih =>
      have := format.header_le a
      have := format.header_pos
      simp only [List.length_cons, log_cons, List.length_append]
      omega

def Torn (bytes : Bytes) : Prop :=
  bytes = [] ∨ ∃ a, format.Fits a ∧ bytes <+: format.encode a ∧ bytes ≠ format.encode a

def survivors : Nat → List α → List α
  | _, [] => []
  | n, a :: items =>
      if (format.encode a).length ≤ n then a :: survivors (n - (format.encode a).length) items else []

def tornPart (n : Nat) (items : List α) : Bytes :=
  ((format.log items).take n).drop (format.log (format.survivors n items)).length

theorem take_log (n : Nat) (items : List α) :
    (format.log items).take n = format.log (format.survivors n items) ++ format.tornPart n items := by
  have covered : format.log (format.survivors n items) <+: (format.log items).take n := by
    induction items generalizing n with
    | nil => simp [survivors]
    | cons a items ih =>
        unfold survivors
        split
        · next fit =>
            rw [log_cons, log_cons, List.take_append, List.take_of_length_le fit]
            exact (List.prefix_append_right_inj _).mpr (ih _)
        · simp
  obtain ⟨rest, eq⟩ := covered
  rw [tornPart, ← eq, List.drop_left]

theorem survivors_isPrefix (n : Nat) (items : List α) : format.survivors n items <+: items := by
  induction items generalizing n with
  | nil => exact List.prefix_refl _
  | cons a items ih =>
      unfold survivors
      split
      · exact (List.prefix_cons_inj a).mpr (ih _)
      · exact List.nil_prefix

theorem tornPart_torn {n : Nat} {items : List α} (fits : ∀ a ∈ items, format.Fits a) :
    format.Torn (format.tornPart n items) := by
  induction items generalizing n with
  | nil => exact .inl (by simp [tornPart])
  | cons a items ih =>
      have eq := format.take_log n (a :: items)
      rw [survivors] at eq
      split at eq
      · next fit =>
          have smaller := format.take_log (n - (format.encode a).length) items
          rw [log_cons, List.take_append, List.take_of_length_le fit, log_cons, List.append_assoc,
            List.append_cancel_left_eq, smaller, List.append_cancel_left_eq] at eq
          rw [← eq]
          exact ih fun b mem => fits b (List.mem_cons_of_mem _ mem)
      · next cut =>
          rw [log_nil, List.nil_append, log_cons, List.take_append_of_le_length (by omega)] at eq
          refine .inr ⟨a, fits a List.mem_cons_self, ?_, ?_⟩
          · rw [← eq]
            exact List.take_prefix _ _
          · intro whole
            have := congrArg List.length (eq.trans whole)
            rw [List.length_take] at this
            omega

theorem parse_log_ne {bytes : Bytes} (torn : format.Torn bytes) (ne : bytes ≠ []) :
    format.parse bytes = .incomplete := by
  obtain rfl | ⟨a, fit, pre, cut⟩ := torn
  · exact absurd rfl ne
  · exact format.parse_torn a bytes fit pre cut

def Unframed (bytes : Bytes) : Prop := bytes ≠ [] → ∀ a size, format.parse bytes ≠ .whole a size

theorem Torn.unframed {format : Format α} {bytes : Bytes} (torn : format.Torn bytes) :
    format.Unframed bytes := by
  intro ne a size whole
  rw [format.parse_log_ne torn ne] at whole
  cases whole

variable (visit : σ → α → σ × Bool)

def visitAll : σ → List α → Option σ
  | s, [] => some s
  | s, a :: items =>
      match visit s a with
      | (s, true) => visitAll s items
      | (_, false) => none

theorem visitAll_append {s : σ} {items more : List α} :
    visitAll visit s (items ++ more) = (visitAll visit s items).bind (visitAll visit · more) := by
  induction items generalizing s with
  | nil => rfl
  | cons a items ih =>
      simp only [List.cons_append, visitAll]
      split
      · exact ih
      · rfl

theorem visitAll_foldl {τ : Type} (read : σ → τ) (next : τ → α → τ) {items : List α} {s t : σ}
    (reads : ∀ s, ∀ a ∈ items, read (visit s a).1 = next (read s) a)
    (visited : visitAll visit s items = some t) : read t = items.foldl next (read s) := by
  induction items generalizing s with
  | nil =>
      obtain rfl := Option.some.inj visited
      rfl
  | cons a items ih =>
      have first := reads s a List.mem_cons_self
      unfold visitAll at visited
      split at visited
      · next u eq =>
          rw [eq] at first
          rw [List.foldl_cons, ← first]
          exact ih (fun s b mem => reads s b (List.mem_cons_of_mem _ mem)) visited
      · cases visited

theorem visitAll_of_accepted {items : List α} {s : σ}
    (accepted : ∀ s, ∀ a ∈ items, (visit s a).2 = true) : ∃ t, visitAll visit s items = some t := by
  induction items generalizing s with
  | nil => exact ⟨s, rfl⟩
  | cons a items ih =>
      have first := accepted s a List.mem_cons_self
      unfold visitAll
      split
      · exact ih fun s b mem => accepted s b (List.mem_cons_of_mem _ mem)
      · next eq =>
          rw [eq] at first
          cases first

theorem accepted_of_visitAll {accepts : α → Bool} (judged : ∀ s a, (visit s a).2 = accepts a)
    {items : List α} {s t : σ} (visited : visitAll visit s items = some t) :
    ∀ a ∈ items, accepts a = true := by
  induction items generalizing s with
  | nil => exact nofun
  | cons a items ih =>
      have first := judged s a
      unfold visitAll at visited
      split at visited
      · next u eq =>
          rw [eq] at first
          exact List.forall_mem_cons.mpr ⟨first.symm, ih visited⟩
      · cases visited

end Format

section Covers

variable {α σ : Type} {header : Nat} {parse : Bytes → Outcome α} {visit : σ → α → σ × Bool}
  {front frame rest more bytes : Bytes} {a : α} {items later : List α} {s t : σ} {fuel size : Nat}

/-- Bytes that are the frames of some items, whatever follows them. -/
inductive Covers (header : Nat) (parse : Bytes → Outcome α) : Bytes → List α → Prop where
  | nil : Covers header parse [] []
  | cons {frame front : Bytes} {a : α} {items : List α} (long : header ≤ frame.length)
      (found : ∀ more, parse (frame ++ more) = .whole a frame.length)
      (covers : Covers header parse front items) :
      Covers header parse (frame ++ front) (a :: items)

theorem Covers.append (covers : Covers header parse front items)
    (others : Covers header parse more later) :
    Covers header parse (front ++ more) (items ++ later) := by
  induction covers with
  | nil => exact others
  | cons long found _ ih =>
      rw [List.append_assoc]
      exact .cons long found ih

theorem Covers.length_le (covers : Covers header parse front items) (positive : 0 < header) :
    items.length ≤ front.length := by
  induction covers with
  | nil => exact Nat.le_refl _
  | cons long _ _ ih =>
      rw [List.length_cons, List.length_append]
      omega

theorem Format.covers_log (format : Format α) (fits : ∀ a ∈ items, format.Fits a) :
    Covers format.header format.parse (format.log items) items := by
  induction items with
  | nil => exact .nil
  | cons a items ih =>
      rw [Format.log_cons]
      exact .cons (format.header_le a) (fun more => format.parse_encode a more
        (fits a List.mem_cons_self)) (ih fun b mem => fits b (List.mem_cons_of_mem _ mem))

theorem scan_covers (covers : Covers header parse front items)
    (visited : Format.visitAll visit s items = some t) (rest : Bytes) :
    scan header parse visit (items.length + fuel) s (front ++ rest) =
      scan header parse visit fuel t rest := by
  induction covers generalizing s with
  | nil =>
      obtain rfl := Option.some.inj visited
      rw [List.length_nil, Nat.zero_add, List.nil_append]
  | @cons frame front a items long found _ ih =>
      have enough : ¬(frame ++ (front ++ rest)).length < header := by
        rw [List.length_append]
        omega
      rw [List.length_cons, Nat.add_right_comm, List.append_assoc, scan, if_neg enough, found]
      unfold Format.visitAll at visited
      dsimp only
      split at visited
      · rw [List.drop_left]
        exact ih visited
      · cases visited

theorem scan_nil (positive : 0 < header) (s : σ) :
    scan header parse visit fuel s [] = (s, .ended []) := by
  cases fuel with
  | zero => rfl
  | succ fuel => rw [scan, if_pos (show [].length < header from positive)]

theorem scan_covers_whole (positive : 0 < header) (covers : Covers header parse front items)
    (visited : Format.visitAll visit s items = some t) :
    scan header parse visit front.length s front = (t, .ended []) := by
  obtain ⟨spare, eq⟩ := Nat.exists_eq_add_of_le (covers.length_le positive)
  have scanned : scan header parse visit (items.length + spare) s (front ++ []) =
      scan header parse visit spare t [] := scan_covers covers visited []
  rw [List.append_nil, ← eq, scan_nil positive] at scanned
  exact scanned

theorem scan_covers_refused (positive : 0 < header) (covers : Covers header parse front items)
    (visited : Format.visitAll visit s items = some t) (long : header ≤ frame.length)
    (found : ∀ more, parse (frame ++ more) = .whole a frame.length)
    (refused : (visit t a).2 = false) (rest : Bytes) :
    (scan header parse visit (front ++ (frame ++ rest)).length s (front ++ (frame ++ rest))).2 =
      .refused (frame ++ rest) rest := by
  have enough : ¬(frame ++ rest).length < header := by
    rw [List.length_append]
    omega
  have least := covers.length_le positive
  obtain ⟨spare, eq⟩ : ∃ spare, (front ++ (frame ++ rest)).length = items.length + (spare + 1) := by
    refine ⟨(front ++ (frame ++ rest)).length - items.length - 1, ?_⟩
    rw [List.length_append, List.length_append]
    omega
  rw [eq, scan_covers covers visited, scan, if_neg enough, found]
  dsimp only
  cases turned : visit t a with
  | mk u accepted =>
      rw [turned] at refused
      obtain rfl : accepted = false := refused
      dsimp only
      rw [List.drop_left]

end Covers

namespace Format

variable {α σ : Type} (format : Format α) (visit : σ → α → σ × Bool)

abbrev scanWith (fuel : Nat) (s : σ) (bytes : Bytes) : σ × Stop :=
  scan format.header format.parse visit fuel s bytes

theorem scan_cons {fuel : Nat} {s : σ} {a : α} {rest : Bytes} (fit : format.Fits a) :
    format.scanWith visit (fuel + 1) s (format.encode a ++ rest) =
      match visit s a with
      | (s, true) => format.scanWith visit fuel s rest
      | (s, false) => (s, .refused (format.encode a ++ rest) rest) := by
  have long : ¬(format.encode a ++ rest).length < format.header := by
    have := format.header_le a
    rw [List.length_append]
    omega
  rw [scanWith, scan, if_neg long, format.parse_encode a rest fit]
  simp only [List.drop_left]

theorem scan_log {items : List α} (fits : ∀ a ∈ items, format.Fits a) {fuel : Nat} {s t : σ}
    {rest : Bytes} (visited : visitAll visit s items = some t) :
    format.scanWith visit (items.length + fuel) s (format.log items ++ rest) =
      format.scanWith visit fuel t rest :=
  scan_covers (format.covers_log fits) visited rest

theorem scan_refused {items : List α} (fits : ∀ a ∈ items, format.Fits a) (fuel : Nat) {s : σ}
    (rest : Bytes) (refused : visitAll visit s items = none) :
    ∃ t done a later, items = done ++ a :: later ∧
      format.scanWith visit (items.length + fuel) s (format.log items ++ rest) =
        (t, .refused (format.encode a ++ (format.log later ++ rest)) (format.log later ++ rest)) := by
  induction items generalizing s with
  | nil => simp [visitAll] at refused
  | cons a items ih =>
      have fit := fits a List.mem_cons_self
      rw [List.length_cons, Nat.add_right_comm, log_cons, List.append_assoc,
        format.scan_cons visit fit]
      unfold visitAll at refused
      split at refused
      · obtain ⟨u, done, b, later, split, stopped⟩ :=
          ih (fun b mem => fits b (List.mem_cons_of_mem _ mem)) refused
        exact ⟨u, a :: done, b, later, by rw [split]; rfl, stopped⟩
      · exact ⟨_, [], a, items, rfl, rfl⟩

theorem scan_halted {items : List α} (fits : ∀ a ∈ items, format.Fits a) (fuel : Nat) {s : σ}
    {bytes : Bytes} (long : format.header ≤ bytes.length)
    (broken : ∀ a size, format.parse bytes ≠ .whole a size) :
    (format.scanWith visit (items.length + (fuel + 1)) s (format.log items ++ bytes)).2 =
        .unparsed bytes ∨
      ∃ a later, (format.scanWith visit (items.length + (fuel + 1)) s (format.log items ++ bytes)).2 =
        .refused (format.encode a ++ (format.log later ++ bytes)) (format.log later ++ bytes) := by
  cases visited : visitAll visit s items with
  | none =>
      obtain ⟨t, done, a, later, -, stopped⟩ :=
        format.scan_refused visit fits (fuel + 1) bytes visited
      exact .inr ⟨a, later, congrArg Prod.snd stopped⟩
  | some t =>
      left
      rw [format.scan_log visit fits visited, scanWith, scan, if_neg (Nat.not_lt.mpr long)]
      cases parsed : format.parse bytes with
      | whole a size => exact absurd parsed (broken a size)
      | incomplete => rfl
      | bad => rfl

def tornStop (torn : Bytes) : Stop :=
  if torn.length < format.header then .ended torn else .unparsed torn

theorem scan_torn {fuel : Nat} {s : σ} {torn : Bytes} (h : format.Unframed torn)
    (enough : torn.length ≤ fuel) :
    format.scanWith visit fuel s torn = (s, format.tornStop torn) := by
  have header := format.header_pos
  cases fuel with
  | zero =>
      have short : torn.length < format.header := by omega
      rw [tornStop, if_pos short]
      rfl
  | succ fuel =>
      rw [scanWith, scan, tornStop]
      split
      · rfl
      · next long =>
          have ne : torn ≠ [] := by
            rintro rfl
            exact long header
          cases parsed : format.parse torn with
          | whole a size => exact absurd parsed (h ne a size)
          | incomplete => rfl
          | bad => rfl

theorem frames_log {items : List α} {torn : Bytes} {fuel : Nat}
    (fits : ∀ a ∈ items, format.Fits a) (cut : format.Unframed torn) (enough : items.length ≤ fuel) :
    (frames format.header format.parse fuel (format.log items ++ torn)).map Prod.fst = items := by
  induction items generalizing fuel with
  | nil =>
      cases fuel with
      | zero => rfl
      | succ fuel =>
          rw [log_nil, List.nil_append, frames]
          split
          · rfl
          · next long =>
              have ne : torn ≠ [] := by
                rintro rfl
                exact long format.header_pos
              cases parsed : format.parse torn with
              | whole a size => exact absurd parsed (cut ne a size)
              | incomplete => rfl
              | bad => rfl
  | cons a items ih =>
      obtain ⟨fuel, rfl⟩ := Nat.exists_eq_add_of_lt (Nat.lt_of_lt_of_le (Nat.succ_pos _) enough)
      have fit := fits a List.mem_cons_self
      have long : ¬(format.encode a ++ (format.log items ++ torn)).length < format.header := by
        have := format.header_le a
        rw [List.length_append]
        omega
      rw [List.length_cons] at enough
      rw [log_cons, List.append_assoc, Nat.zero_add, frames, if_neg long,
        format.parse_encode a _ fit]
      dsimp only
      rw [List.drop_left, List.map_cons,
        ih (fun b mem => fits b (List.mem_cons_of_mem _ mem)) (by omega)]

theorem scan_whole {items : List α} {s t : σ} (fits : ∀ a ∈ items, format.Fits a)
    (visited : visitAll visit s items = some t) :
    format.scanWith visit (format.log items).length s (format.log items) = (t, .ended []) :=
  scan_covers_whole format.header_pos (format.covers_log fits) visited

end Format

end Framing
