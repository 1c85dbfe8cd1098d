import Mathlib.Data.List.Basic
import QoSFabric.Model.Explain

/-!
# The bounds of an explanation

Every line is tested against the budget before it is appended; the truncation marker is not. An
explanation therefore keeps within its budget exactly when the lines before the clipping point
leave room for the marker.
-/

namespace QoSFabric

namespace ExplainLine

def render (lines : List ExplainLine) : Text :=
  lines.flatMap fun l => l.content ++ [10]

@[simp] theorem render_nil : render [] = [] := rfl

@[simp] theorem render_cons (l : ExplainLine) (lines : List ExplainLine) :
    render (l :: lines) = l.content ++ [10] ++ render lines := rfl

def fitting (budget : Nat) : Nat → List ExplainLine → List ExplainLine
  | _, [] => []
  | used, l :: lines =>
      if used + l.content.length + 1 > budget then []
      else l :: fitting budget (used + l.content.length + 1) lines

theorem fitting_sublist (budget used : Nat) (lines : List ExplainLine) :
    (fitting budget used lines).Sublist lines := by
  induction lines generalizing used with
  | nil => exact .slnil
  | cons l lines ih =>
      unfold fitting
      split
      · exact List.nil_sublist _
      · exact (ih _).cons_cons l

theorem render_fitting_le {budget used : Nat} (lines : List ExplainLine) (h : used ≤ budget) :
    used + (render (fitting budget used lines)).length ≤ budget := by
  induction lines generalizing used with
  | nil => simpa [fitting] using h
  | cons l lines ih =>
      unfold fitting
      split
      next => simpa using h
      next fits =>
        have rest := @ih (used + l.content.length + 1) (by omega)
        simp only [render_cons, List.length_append, List.length_singleton]
        omega

theorem fitting_append {budget used : Nat} (kept lines : List ExplainLine)
    (h : used + (render kept).length ≤ budget) :
    fitting budget used (kept ++ lines) =
      kept ++ fitting budget (used + (render kept).length) lines := by
  induction kept generalizing used with
  | nil => simp
  | cons l kept ih =>
      simp only [render_cons, List.length_append, List.length_singleton] at h
      have fits : ¬used + l.content.length + 1 > budget := by omega
      rw [List.cons_append, fitting, if_neg fits, ih (by omega), List.cons_append]
      simp only [render_cons, List.length_append, List.length_singleton, Nat.add_assoc]

theorem fitting_eq_of_exceeds {budget used : Nat} {kept later : List ExplainLine} {l : ExplainLine}
    (h : used + (render kept).length ≤ budget)
    (exceeds : budget < used + (render kept).length + l.content.length + 1) :
    fitting budget used (kept ++ l :: later) = kept := by
  rw [fitting_append kept _ h, fitting, if_pos exceeds, List.append_nil]

theorem fitting_cases (budget used : Nat) (lines : List ExplainLine) :
    fitting budget used lines = lines ∨
      ∃ l later, lines = fitting budget used lines ++ l :: later ∧
        budget < used + (render (fitting budget used lines)).length + l.content.length + 1 := by
  induction lines generalizing used with
  | nil => exact .inl rfl
  | cons l lines ih =>
      by_cases exceeds : used + l.content.length + 1 > budget
      · have none : fitting budget used (l :: lines) = [] := by rw [fitting, if_pos exceeds]
        exact .inr ⟨l, lines, by rw [none, List.nil_append], by simpa [none] using exceeds⟩
      · have step : fitting budget used (l :: lines) =
            l :: fitting budget (used + l.content.length + 1) lines := by
          rw [fitting, if_neg exceeds]
        rcases ih (used + l.content.length + 1) with whole | ⟨next, later, rest, past⟩
        · exact .inl (by rw [step, whole])
        · refine .inr ⟨next, later, ?_, ?_⟩
          · rw [step, List.cons_append, ← rest]
          · rw [step, render_cons, List.length_append, List.length_append, List.length_singleton]
            omega

end ExplainLine

open ExplainLine

namespace BoundedText

theorem marker_length (budget : Nat) :
    (marker budget).length = 35 + (decimal budget).length := by
  have opening : (text "\n[explanation truncated at ").length = 27 := by decide +kernel
  have closing : (text " bytes]\n").length = 8 := by decide +kernel
  simp only [marker, List.length_append, opening, closing]
  omega

theorem lines_clipped {b : BoundedText} (h : b.clipped = true) (lines : List ExplainLine) :
    lines.foldl BoundedText.add b = b := by
  induction lines with
  | nil => rfl
  | cons l lines ih =>
      have same : b.add l = b := by simp [add, line, h]
      rw [List.foldl_cons, same, ih]

theorem lines_out {b : BoundedText} (h : b.clipped = false) (lines : List ExplainLine) :
    (lines.foldl BoundedText.add b).out =
      b.out ++ render (fitting b.budget b.out.length lines) ++
        if fitting b.budget b.out.length lines = lines then [] else marker b.budget := by
  induction lines generalizing b with
  | nil => simp [fitting]
  | cons l lines ih =>
      rw [List.foldl_cons]
      by_cases fits : b.out.length + l.content.length + 1 > b.budget
      · -- The clipping point: every later line finds the text clipped.
        have step : b.add l = { b with clipped := true, out := b.out ++ marker b.budget } := by
          simp [add, line, h, fits]
        rw [step, lines_clipped rfl]
        simp [fitting, fits]
      · have step : b.add l = { b with out := b.out ++ l.content ++ [10] } := by
          simp [add, line, h, fits]
        have size : (b.out ++ l.content ++ [10]).length = b.out.length + l.content.length + 1 := by
          simp only [List.length_append, List.length_singleton]
        rw [step, ih (b := { b with out := b.out ++ l.content ++ [10] }) h]
        dsimp only
        rw [size]
        simp only [fitting, fits, if_false, render_cons, List.cons.injEq, true_and,
          List.append_assoc]

end BoundedText

def shownLines (decision : ContractDecision) (options : ExplainOptions) : List ExplainLine :=
  fitting options.budget 0 (explainLines decision options)

theorem explain_eq (decision : ContractDecision) (options : ExplainOptions) :
    explain decision options = render (shownLines decision options) ++
      if shownLines decision options = explainLines decision options then []
      else BoundedText.marker options.budget := by
  have run := BoundedText.lines_out (b := .empty options.budget) rfl (explainLines decision options)
  unfold explain
  rw [run]
  rfl

theorem render_shownLines_le (decision : ContractDecision) (options : ExplainOptions) :
    (render (shownLines decision options)).length ≤ options.budget := by
  have bounded := render_fitting_le (explainLines decision options) (Nat.zero_le options.budget)
  simpa [shownLines] using bounded

section Listing

variable {α : Type} {p : ExplainLine → Bool} (plain : ∀ t, p (.plain t) = false)
include plain

theorem countP_listLines_le (limit total : Nat) (line : α → ExplainLine) (shown : Nat)
    (items : List α) : (listLines limit total line shown items).countP p ≤ limit - shown := by
  induction items generalizing shown with
  | nil => simp [listLines]
  | cons a items ih =>
      unfold listLines
      split
      next => simp [plain]
      next h =>
        have rest := ih (shown + 1)
        have head := List.countP_cons (p := p) (a := line a)
          (l := listLines limit total line (shown + 1) items)
        split at head <;> omega

theorem countP_listLines_eq_zero (limit total : Nat) {line : α → ExplainLine}
    (other : ∀ a, p (line a) = false) (shown : Nat) (items : List α) :
    (listLines limit total line shown items).countP p = 0 := by
  induction items generalizing shown with
  | nil => rfl
  | cons a items ih =>
      unfold listLines
      split
      · simp [plain]
      · simp [other, ih]

theorem countP_plain (lines : List Text) : (lines.map ExplainLine.plain).countP p = 0 := by
  simp [List.countP_map, Function.comp_def, plain]

theorem countP_explainLines (decision : ContractDecision) (options : ExplainOptions) :
    (explainLines decision options).countP p =
      (obligationLines decision options).countP p + (resourceLines decision options).countP p := by
  simp [explainLines, countP_plain plain, plain]

end Listing

theorem obligations_shown (decision : ContractDecision) (options : ExplainOptions) :
    (shownLines decision options).countP isObligation ≤
      min options.maxObligations Limits.maxExplainObligations := by
  have plain : ∀ t, isObligation (.plain t) = false := fun _ => rfl
  have listed : (obligationLines decision options).countP isObligation ≤ _ :=
    countP_listLines_le plain _ _ _ 0 _
  have resources : (resourceLines decision options).countP isObligation = 0 :=
    countP_listLines_eq_zero plain _ _ (fun _ => rfl) 0 _
  calc (shownLines decision options).countP isObligation
      ≤ (explainLines decision options).countP isObligation := (fitting_sublist _ _ _).countP_le
    _ = (obligationLines decision options).countP isObligation := by
      rw [countP_explainLines plain, resources, Nat.add_zero]
    _ ≤ min options.maxObligations Limits.maxExplainObligations := listed

theorem resources_shown (decision : ContractDecision) (options : ExplainOptions) :
    (shownLines decision options).countP isResource ≤
      min options.maxResources Limits.maxExplainComponents := by
  have plain : ∀ t, isResource (.plain t) = false := fun _ => rfl
  have listed : (resourceLines decision options).countP isResource ≤ _ :=
    countP_listLines_le plain _ _ _ 0 _
  have obligations : (obligationLines decision options).countP isResource = 0 :=
    countP_listLines_eq_zero plain _ _ (fun _ => rfl) 0 _
  calc (shownLines decision options).countP isResource
      ≤ (explainLines decision options).countP isResource := (fitting_sublist _ _ _).countP_le
    _ = (resourceLines decision options).countP isResource := by
      rw [countP_explainLines plain, obligations, Nat.zero_add]
    _ ≤ min options.maxResources Limits.maxExplainComponents := listed

structure ExplanationBounded (decision : ContractDecision) (options : ExplainOptions) : Prop where
  size : (explain decision options).length ≤
    if options.maxBytes = 0 then Limits.maxExplainBytes
    else min options.maxBytes Limits.maxExplainBytes
  obligations : (shownLines decision options).countP isObligation ≤
    min options.maxObligations Limits.maxExplainObligations
  resources : (shownLines decision options).countP isResource ≤
    min options.maxResources Limits.maxExplainComponents
  /-- Nothing follows the marker. -/
  ending : explain decision options = render (explainLines decision options) ∨
    explain decision options =
      render (shownLines decision options) ++ BoundedText.marker options.budget

/-- The lines before the first that does not fit, if any, leave room for the marker: 35 bytes and
the digits of the budget. -/
def LeavesRoom (decision : ContractDecision) (options : ExplainOptions) : Prop :=
  ∀ kept l later, explainLines decision options = kept ++ l :: later →
    (render kept).length ≤ options.budget →
    options.budget < (render kept).length + l.content.length + 1 →
      (render kept).length + 35 + (decimal options.budget).length ≤ options.budget

theorem explanation_bounded_iff (decision : ContractDecision) (options : ExplainOptions) :
    ExplanationBounded decision options ↔ LeavesRoom decision options := by
  have output := explain_eq decision options
  constructor
  · intro bounded kept l later lines fits exceeds
    have shown : shownLines decision options = kept := by
      rw [shownLines, lines]
      exact fitting_eq_of_exceeds (by simpa using fits) (by simpa using exceeds)
    have clipped : shownLines decision options ≠ explainLines decision options := by
      rw [shown, lines]
      simp
    have size := bounded.size
    rw [← ExplainOptions.budget, output, if_neg clipped, shown, List.length_append,
      BoundedText.marker_length] at size
    omega
  · intro room
    have fits := render_shownLines_le decision options
    rcases fitting_cases options.budget 0 (explainLines decision options) with whole | clipped
    · change shownLines decision options = explainLines decision options at whole
      have all : explain decision options = render (explainLines decision options) := by
        rw [output, if_pos whole, List.append_nil, whole]
      refine ⟨?_, obligations_shown _ _, resources_shown _ _, .inl all⟩
      rw [whole] at fits
      rwa [← ExplainOptions.budget, all]
    · obtain ⟨l, later, lines, exceeds⟩ := clipped
      have marked : explain decision options =
          render (shownLines decision options) ++ BoundedText.marker options.budget := by
        rw [output, if_neg]
        intro whole
        exact absurd (congrArg List.length lines) (by rw [← shownLines, whole]; simp)
      refine ⟨?_, obligations_shown _ _, resources_shown _ _, .inr marked⟩
      have left := room _ l later lines fits (by simpa using exceeds)
      rw [← ExplainOptions.budget, marked, List.length_append, BoundedText.marker_length]
      change (render (shownLines decision options)).length + 35 + _ ≤ _ at left
      omega

section ShortBudget

/-- A decision as it is constructed, with nothing filled in. -/
def emptyDecision : ContractDecision where
  contract := []
  contractGeneration := 0
  outcome := .rejected
  classId := []
  classGeneration := 0
  classDigest := .zero
  subject := []
  subjectGeneration := 0
  path := []
  pathGeneration := 0
  pathDigest := .zero
  policy := []
  policyGeneration := 0
  policyDigest := .zero
  priority := []
  priorityGeneration := 0
  fabricEpoch := 0
  observedEpoch := 0
  decidedAtMs := 0
  obligations := []
  resources := []
  degradations := []
  authority := []
  bindingObligation := none
  bindingResource := none
  unknownComponents := 0
  violatedObligations := 0
  unsatisfiedDiversityDomains := 0
  primaryReason := []
  requestDigest := .zero
  decisionDigest := .zero
  provenance := .none

/-- A budget of forty bytes yields an explanation of fifty-five: the outcome and the marker. -/
theorem short_budget_exceeded :
    ¬ExplanationBounded emptyDecision { ExplainOptions.default with maxBytes := 40 } := by
  intro bounded
  have size : (explain emptyDecision { ExplainOptions.default with maxBytes := 40 }).length = 55 := by
    decide +kernel
  exact absurd bounded.size (by rw [size]; decide)

end ShortBudget

end QoSFabric
