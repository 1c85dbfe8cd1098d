import Mathlib.Data.List.TakeWhile
import QoSFabric.Proof.Registry.Script

/-!
# The layout of a scenario

A file is lines of words with blanks around them and comments behind them. Whichever way it is laid
out, the interpreter executes its statements in their order; blanks, empty lines and comments matter
for nothing but the numbers of the lines. Every file is laid out in some such way.
-/

namespace QoSFabric.Scenario

open Interaction

structure Word where
  text : Text
  filled : text ≠ []
  plain : ∀ c ∈ text, isBlank c = false ∧ c ≠ 35 ∧ c ≠ 10

structure Gap where
  text : Text
  filled : text ≠ []
  blank : ∀ c ∈ text, isBlank c = true

/-- Blanks, words that blanks stand behind, a word that none stands behind, and a comment. -/
structure Line where
  lead : Text
  words : List (Word × Gap)
  last : Option Word
  comment : Option Text
  blank : ∀ c ∈ lead, isBlank c = true
  single : ∀ remark ∈ comment, (10 : UInt8) ∉ remark

def spaced (words : List (Word × Gap)) : Text := words.flatMap fun (word, gap) => word.text ++ gap.text

namespace Line

def front (line : Line) : Text :=
  line.lead ++ spaced line.words ++ (line.last.map Word.text).getD []

def text (line : Line) : Text :=
  line.front ++ (line.comment.map fun remark => 35 :: remark).getD []

def tokens (line : Line) : List Text :=
  line.words.map (fun (word, _) => word.text) ++ (line.last.map Word.text).toList

end Line

/-- A file of lines. -/
def layout (lines : List Line) : Text := List.intercalate [10] (lines.map Line.text)

/-- The statements of a file, under the numbers of their lines. -/
def numbered (number : Nat) : List Line → List (Nat × List Text)
  | [] => []
  | line :: lines =>
      if line.tokens.isEmpty then numbered (number + 1) lines
      else (number, line.tokens) :: numbered (number + 1) lines

theorem tokenizeFrom_blank {blanks : Text} (blank : ∀ c ∈ blanks, isBlank c = true) (rest : Text) :
    tokenizeFrom [] (blanks ++ rest) = tokenizeFrom [] rest := by
  induction blanks with
  | nil => rfl
  | cons c blanks ih =>
      rw [List.cons_append, tokenizeFrom, if_pos (blank c List.mem_cons_self)]
      exact ih fun c mem => blank c (List.mem_cons_of_mem _ mem)

theorem tokenizeFrom_plain {word : Text} (plain : ∀ c ∈ word, isBlank c = false) (token rest : Text) :
    tokenizeFrom token (word ++ rest) = tokenizeFrom (token ++ word) rest := by
  induction word generalizing token with
  | nil => rw [List.nil_append, List.append_nil]
  | cons c word ih =>
      have first : ¬isBlank c = true := by
        rw [plain c List.mem_cons_self]
        exact Bool.false_ne_true
      rw [List.cons_append, tokenizeFrom, if_neg first,
        ih fun c mem => plain c (List.mem_cons_of_mem _ mem), List.append_assoc]
      rfl

theorem tokenizeFrom_gap {token : Text} (filled : token ≠ []) (gap : Gap) (rest : Text) :
    tokenizeFrom token (gap.text ++ rest) = token :: tokenizeFrom [] rest := by
  obtain ⟨blanks, some, blank⟩ := gap
  cases blanks with
  | nil => exact absurd rfl some
  | cons c blanks =>
      rw [List.cons_append, tokenizeFrom, if_pos (blank c List.mem_cons_self), if_neg]
      · rw [tokenizeFrom_blank fun c mem => blank c (List.mem_cons_of_mem _ mem)]
      · rwa [List.isEmpty_iff]

theorem tokenizeFrom_word (word : Word) (rest : Text) :
    tokenizeFrom [] (word.text ++ rest) = tokenizeFrom word.text rest :=
  tokenizeFrom_plain (fun c mem => (word.plain c mem).1) [] rest

theorem tokenize_spaced (words : List (Word × Gap)) (rest : Text) :
    tokenizeFrom [] (spaced words ++ rest) =
      words.map (fun (word, _) => word.text) ++ tokenizeFrom [] rest := by
  induction words with
  | nil => rfl
  | cons pair words ih =>
      obtain ⟨word, gap⟩ := pair
      show tokenizeFrom [] (word.text ++ gap.text ++ spaced words ++ rest) = _
      rw [List.append_assoc, List.append_assoc, tokenizeFrom_word,
        tokenizeFrom_gap word.filled, ih]
      rfl

theorem tokenize_front (line : Line) : tokenize line.front = line.tokens := by
  unfold tokenize Line.front Line.tokens
  rw [List.append_assoc, tokenizeFrom_blank line.blank, tokenize_spaced]
  congr 1
  cases line.last with
  | none => rfl
  | some word =>
      have whole := tokenizeFrom_word word []
      rw [List.append_nil] at whole
      show tokenizeFrom [] word.text = [word.text]
      rw [whole, tokenizeFrom, if_neg]
      rw [List.isEmpty_iff]
      exact word.filled

theorem isBlank_ne {c : UInt8} (blank : isBlank c = true) : c ≠ 35 ∧ c ≠ 10 := by
  constructor <;> rintro rfl <;> exact absurd blank (by decide)

theorem plain_front (line : Line) : ∀ c ∈ line.front, c ≠ 35 ∧ c ≠ 10 := by
  intro c mem
  unfold Line.front spaced at mem
  simp only [List.mem_append, List.mem_flatMap] at mem
  rcases mem with (lead | ⟨⟨word, gap⟩, -, word' | gap'⟩) | last
  · exact isBlank_ne (line.blank c lead)
  · exact (word.plain c word').2
  · exact isBlank_ne (gap.blank c gap')
  · cases held : line.last with
    | none =>
        rw [held] at last
        cases last
    | some word =>
        rw [held] at last
        exact (word.plain c last).2

theorem lineTokens_text (line : Line) : lineTokens line.text = line.tokens := by
  have front : ∀ c ∈ line.front, decide (c ≠ 35) = true := fun c mem =>
    decide_eq_true (plain_front line c mem).1
  have comment : line.text.takeWhile (· ≠ 35) = line.front := by
    unfold Line.text
    rw [List.takeWhile_append_of_pos front]
    cases line.comment with
    | none => exact List.append_nil _
    | some remark => exact List.append_nil _
  rw [lineTokens, comment, tokenize_front]

theorem newline_notMem (line : Line) : (10 : UInt8) ∉ line.text := by
  intro mem
  rcases List.mem_append.mp mem with front | comment
  · exact (plain_front line 10 front).2 rfl
  · cases held : line.comment with
    | none =>
        rw [held] at comment
        cases comment
    | some remark =>
        rw [held] at comment
        rcases List.mem_cons.mp comment with first | rest
        · exact absurd first (by decide)
        · exact line.single remark held rest

theorem splitText_of_notMem {separator : UInt8} {piece : Text} (plain : separator ∉ piece) :
    splitText separator piece = [piece] := by
  induction piece with
  | nil => rfl
  | cons c piece ih =>
      rw [List.mem_cons, not_or] at plain
      rw [splitText, if_neg (Ne.symm plain.1), ih plain.2]

theorem splitText_append {separator : UInt8} {piece : Text} (plain : separator ∉ piece)
    (rest : Text) : splitText separator (piece ++ separator :: rest) =
      piece :: splitText separator rest := by
  induction piece with
  | nil => rw [List.nil_append, splitText, if_pos rfl]
  | cons c piece ih =>
      rw [List.mem_cons, not_or] at plain
      rw [List.cons_append, splitText, if_neg (Ne.symm plain.1), ih plain.2]

theorem splitText_layout {lines : List Line} (filled : lines ≠ []) :
    splitText 10 (layout lines) = lines.map Line.text := by
  induction lines with
  | nil => exact absurd rfl filled
  | cons line lines ih =>
      cases lines with
      | nil =>
          have whole : layout [line] = line.text := by
            simp [layout, List.intercalate]
          rw [whole, splitText_of_notMem (newline_notMem line)]
          rfl
      | cons next lines =>
          have whole : layout (line :: next :: lines) = line.text ++ 10 :: layout (next :: lines) := by
            simp [layout, List.intercalate]
          rw [whole, splitText_append (newline_notMem line), ih (List.cons_ne_nil _ _)]
          rfl

theorem statements_layout (lines : List Line) (number : Nat) :
    statements number (lines.map Line.text) = numbered number lines := by
  induction lines generalizing number with
  | nil => rfl
  | cons line lines ih =>
      rw [List.map_cons, statements, numbered, lineTokens_text, ih]

/-- Statements executed one behind the other, up to the first that fails. -/
def play (moments : Nat → Instant) : List (Nat × List Text) → Scenario →
    Files (Result Unit × Scenario)
  | [], s => pure (.ok (), s)
  | (number, tokens) :: rest, s => do
      let (executed, s) ← s.execute (moments number) (tokens.headD []) tokens
      match executed with
      | .error e => pure (.error (atLine number e), s)
      | .ok () => play moments rest s

theorem runLines_eq_play (moments : Nat → Instant) (lines : List Text) (number : Nat) (s : Scenario) :
    runLines moments number lines s = play moments (statements number lines) s := by
  induction lines generalizing number s with
  | nil => rfl
  | cons line lines ih =>
      unfold runLines
      split
      next blank =>
        rw [statements_blank lines blank]
        exact ih (number + 1) s
      next verb arguments tokens =>
        rw [statements_cons lines tokens, play]
        congr 1
        funext ⟨executed, s'⟩
        cases executed with
        | error e => rfl
        | ok => exact ih (number + 1) s'

theorem exists_words (front : Text) (plain : ∀ c ∈ front, c ≠ 35 ∧ c ≠ 10) :
    ∃ lead words last, (∀ c ∈ lead, isBlank c = true) ∧
      front = lead ++ spaced words ++ (Option.map Word.text last).getD [] := by
  induction front with
  | nil => exact ⟨[], [], none, fun _ mem => (List.not_mem_nil mem).elim, rfl⟩
  | cons c front ih =>
      obtain ⟨lead, words, last, blank, rfl⟩ := ih fun c mem => plain c (List.mem_cons_of_mem _ mem)
      have first := plain c List.mem_cons_self
      cases is : isBlank c with
      | true =>
          refine ⟨c :: lead, words, last, ?_, rfl⟩
          intro other mem
          rcases List.mem_cons.mp mem with rfl | mem
          · exact is
          · exact blank other mem
      | false =>
          have letter : ∀ other ∈ [c], isBlank other = false ∧ other ≠ 35 ∧ other ≠ 10 := by
            intro other mem
            obtain rfl := List.mem_singleton.mp mem
            exact ⟨is, first⟩
          have longer (word : Word) :
              ∀ other ∈ c :: word.text, isBlank other = false ∧ other ≠ 35 ∧ other ≠ 10 := by
            intro other mem
            rcases List.mem_cons.mp mem with rfl | mem
            · exact ⟨is, first⟩
            · exact word.plain other mem
          have none_blank : ∀ other ∈ ([] : Text), isBlank other = true :=
            fun _ mem => (List.not_mem_nil mem).elim
          cases lead with
          | cons b lead =>
              exact ⟨[], (⟨[c], List.cons_ne_nil _ _, letter⟩,
                ⟨b :: lead, List.cons_ne_nil _ _, blank⟩) :: words, last, none_blank, by simp [spaced]⟩
          | nil =>
              cases words with
              | cons pair words =>
                  exact ⟨[], (⟨c :: pair.1.text, List.cons_ne_nil _ _, longer pair.1⟩, pair.2) :: words,
                    last, none_blank, by simp [spaced]⟩
              | nil =>
                  cases last with
                  | some word =>
                      exact ⟨[], [], some ⟨c :: word.text, List.cons_ne_nil _ _, longer word⟩,
                        none_blank, by simp [spaced]⟩
                  | none =>
                      exact ⟨[], [], some ⟨[c], List.cons_ne_nil _ _, letter⟩, none_blank,
                        by simp [spaced]⟩

theorem exists_line (text : Text) (single : (10 : UInt8) ∉ text) : ∃ line : Line, line.text = text := by
  have split := List.takeWhile_append_dropWhile (p := fun c : UInt8 => decide (c ≠ 35)) (l := text)
  generalize front : text.takeWhile (fun c : UInt8 => decide (c ≠ 35)) = front' at split
  generalize back : text.dropWhile (fun c : UInt8 => decide (c ≠ 35)) = back' at split
  have plain : ∀ c ∈ front', c ≠ 35 ∧ c ≠ 10 := by
    intro c mem
    refine ⟨?_, ?_⟩
    · rw [← front] at mem
      simpa using List.mem_takeWhile_imp mem
    · rintro rfl
      exact single (split ▸ List.mem_append_left _ mem)
  obtain ⟨lead, words, last, blank, rfl⟩ := exists_words front' plain
  cases back' with
  | nil =>
      refine ⟨⟨lead, words, last, none, blank, fun _ mem => by cases mem⟩, ?_⟩
      rw [← split]
      rfl
  | cons c remark =>
      have hash : c = 35 := by
        have stopped := List.head?_dropWhile_not (fun c : UInt8 => decide (c ≠ 35)) text
        rw [back] at stopped
        simpa using stopped
      subst hash
      refine ⟨⟨lead, words, last, some remark, blank, ?_⟩, split⟩
      rintro other ⟨⟩ mem
      exact single (split ▸ List.mem_append_right _ (List.mem_cons_of_mem _ mem))

theorem splitText_pieces (separator : UInt8) (t : Text) :
    splitText separator t ≠ [] ∧ (∀ piece ∈ splitText separator t, separator ∉ piece) ∧
      List.intercalate [separator] (splitText separator t) = t := by
  induction t with
  | nil => exact ⟨List.cons_ne_nil _ _, by simp [splitText], rfl⟩
  | cons c t ih =>
      obtain ⟨filled, plain, whole⟩ := ih
      rw [splitText]
      cases split : splitText separator t with
      | nil => exact absurd split filled
      | cons piece pieces =>
          rw [split] at plain whole
          by_cases is : c = separator
          · subst is
            rw [if_pos rfl]
            refine ⟨List.cons_ne_nil _ _, ?_, ?_⟩
            · intro other mem
              rcases List.mem_cons.mp mem with rfl | mem
              · exact List.not_mem_nil
              · exact plain other mem
            · rw [← whole]
              simp [List.intercalate]
          · rw [if_neg is]
            refine ⟨List.cons_ne_nil _ _, ?_, ?_⟩
            · intro other mem
              rcases List.mem_cons.mp mem with rfl | mem
              · rw [List.mem_cons, not_or]
                exact ⟨Ne.symm is, plain piece List.mem_cons_self⟩
              · exact plain other (List.mem_cons_of_mem _ mem)
            · rw [← whole]
              cases pieces <;> simp [List.intercalate]

theorem exists_layout (file : Text) : ∃ lines : List Line, lines ≠ [] ∧ layout lines = file := by
  obtain ⟨filled, plain, whole⟩ := splitText_pieces 10 file
  have lines (pieces : List Text) (plain : ∀ piece ∈ pieces, (10 : UInt8) ∉ piece) :
      ∃ lines : List Line, lines.map Line.text = pieces := by
    induction pieces with
    | nil => exact ⟨[], rfl⟩
    | cons piece pieces ih =>
        obtain ⟨line, rfl⟩ := exists_line piece (plain piece List.mem_cons_self)
        obtain ⟨lines, rfl⟩ := ih fun other mem => plain other (List.mem_cons_of_mem _ mem)
        exact ⟨line :: lines, rfl⟩
  obtain ⟨lines, is⟩ := lines _ plain
  refine ⟨lines, ?_, ?_⟩
  · rintro rfl
    exact filled is.symm
  · rw [layout, is, whole]

/-- Whichever way a file is laid out, the interpreter does what its statements say in their order, up
to the first that fails; and every file is laid out in some way. -/
theorem layout_played :
    (∀ (moments : Nat → Instant) (line : Line) (lines : List Line) (s : Scenario),
      Scenario.run moments (.ok (layout (line :: lines))) s =
        play moments (numbered 1 (line :: lines)) s) ∧
      ∀ file, ∃ (line : Line) (lines : List Line), layout (line :: lines) = file := by
  constructor
  · intro moments line lines s
    show runLines moments 1 (splitText 10 (layout (line :: lines))) s = _
    rw [runLines_eq_play, splitText_layout (List.cons_ne_nil _ _), statements_layout]
  · intro file
    obtain ⟨lines, filled, whole⟩ := exists_layout file
    obtain ⟨line, lines, rfl⟩ := List.exists_cons_of_ne_nil filled
    exact ⟨line, lines, whole⟩

end QoSFabric.Scenario
