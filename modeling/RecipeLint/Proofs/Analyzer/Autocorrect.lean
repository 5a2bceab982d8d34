/-
**The outcome for one text.**

What `lint` comes to, by what the parser and the rules make of the text, and what a corrected text
has to do with the text as it was.

* `Analyzer.lint_of_finds`, `Analyzer.lint_eq_ok_cases` — the outcome by cases, and back.
* `Analyzer.passes_iff_texts` — several passes as a sequence of texts.
* `Analyzer.lint_corrected_iff_passes` — a text is corrected to another one exactly if at most ten
  passes lead there; if nothing is left to correct, a second run leaves that text alone.
-/

import RecipeLint.Proofs.Analyzer.Passes

namespace RecipeLint

namespace Analyzer

variable {analyzer : Analyzer} {path : String}

/-! ### The outcome by cases -/

/-- The outcome for a text that is not changed. -/
def plainOutcome (path : String) (evaluation : Evaluation) : FileOutcome where
  path := path
  offenses := evaluation.offenses
  errors := evaluation.failures.map RuleFailure.fileError

/-- The outcome for a text that is not of the language, with the place to blame. -/
def brokenOutcome (path relativePath : String) (error : SyntaxError) (place : Nat × Nat) :
    FileOutcome where
  path := path
  errors := [⟨relativePath, .syntaxError, error.message, some place.1, some place.2⟩]

theorem lint_of_broken {text : String} {error : SyntaxError}
    (broken : analyzer.language.parse text = .error error) :
    analyzer.lint path text = ((analyzer.sourceFile path text).lineColumn error.offset).map
      (brokenOutcome path (analyzer.sourceFile path text).relativePath error) := by
  rw [lint, broken]
  rfl

theorem lint_of_overflow {text : String} {tree : Node} {cause : Overflow}
    (parsed : analyzer.language.parse text = .ok tree)
    (evaluated : analyzer.evaluator.evaluate (analyzer.sourceFile path text) tree = .error cause) :
    analyzer.lint path text = .error cause := by
  simp only [lint, parsed, evaluated, bind, Except.bind]

/-- **A text that the rules have looked at** is corrected if that is asked for and something is
suggested; otherwise the outcome is what they found. -/
theorem lint_of_finds {text : String} {evaluation : Evaluation}
    (found : analyzer.Finds path text evaluation) :
    analyzer.lint path text =
      if analyzer.autocorrect = true ∧ corrections evaluation.offenses ≠ [] then
        (analyzer.correct path maxPasses text (corrections evaluation.offenses)).map
          (settle path (analyzer.sourceFile path text).relativePath text evaluation)
      else .ok (plainOutcome path evaluation) := by
  obtain ⟨tree, parsed, evaluated⟩ := found
  simp only [lint, parsed, evaluated, bind, Except.bind, Bool.and_eq_true, Bool.not_eq_true',
    List.isEmpty_eq_false_iff]
  rfl

/-- What becomes of a text before anything is corrected. -/
theorem lint_cases (analyzer : Analyzer) (path text : String) :
    (∃ error, analyzer.language.parse text = .error error) ∨
      (∃ tree cause, analyzer.language.parse text = .ok tree ∧
        analyzer.evaluator.evaluate (analyzer.sourceFile path text) tree = .error cause) ∨
      ∃ evaluation, analyzer.Finds path text evaluation := by
  cases parsed : analyzer.language.parse text with
  | error error => exact Or.inl ⟨error, rfl⟩
  | ok tree =>
    cases evaluated : analyzer.evaluator.evaluate (analyzer.sourceFile path text) tree with
    | error cause => exact Or.inr (Or.inl ⟨tree, cause, rfl, evaluated⟩)
    | ok evaluation => exact Or.inr (Or.inr ⟨evaluation, tree, parsed, evaluated⟩)

/-- What fails in an evaluation are rules. -/
theorem kind_of_mem_failures {failures : List RuleFailure} {error : FileError}
    (member : error ∈ failures.map RuleFailure.fileError) : error.kind = .ruleEvaluation := by
  obtain ⟨failure, -, rfl⟩ := List.mem_map.mp member
  rfl

theorem kind_ne_of_mem_failures {failures : List RuleFailure} {error : FileError}
    (member : error ∈ failures.map RuleFailure.fileError) : error.kind ≠ .correction := by
  rw [kind_of_mem_failures member]
  decide

/-- A text for which nothing is suggested is left alone, corrections asked for or not. -/
theorem lint_of_settled {text : String} {evaluation : Evaluation}
    (found : analyzer.Finds path text evaluation)
    (settled : corrections evaluation.offenses = []) :
    analyzer.lint path text = .ok (plainOutcome path evaluation) := by
  rw [lint_of_finds found, if_neg fun asked => asked.2 settled]

/-- **Where an outcome comes from**: from a text that is not of the language, from what the rules
find if nothing is to be corrected, and otherwise from what the loop comes to. -/
theorem lint_eq_ok_cases {text : String} {outcome : FileOutcome}
    (linted : analyzer.lint path text = .ok outcome) :
    (∃ error place, outcome =
        brokenOutcome path (analyzer.sourceFile path text).relativePath error place) ∨
      ∃ evaluation, analyzer.Finds path text evaluation ∧
        ((¬ (analyzer.autocorrect = true ∧ corrections evaluation.offenses ≠ []) ∧
            outcome = plainOutcome path evaluation) ∨
          ∃ answer, analyzer.autocorrect = true ∧ corrections evaluation.offenses ≠ [] ∧
            analyzer.correct path maxPasses text (corrections evaluation.offenses) = .ok answer ∧
            outcome =
              settle path (analyzer.sourceFile path text).relativePath text evaluation answer) := by
  rcases lint_cases analyzer path text with
    ⟨error, broken⟩ | ⟨tree, cause, parsed, evaluated⟩ | ⟨evaluation, found⟩
  · rw [lint_of_broken broken] at linted
    cases placed : (analyzer.sourceFile path text).lineColumn error.offset with
    | error cause => rw [placed] at linted; cases linted
    | ok place =>
      rw [placed] at linted
      cases linted
      exact Or.inl ⟨error, place, rfl⟩
  · rw [lint_of_overflow parsed evaluated] at linted
    cases linted
  · refine Or.inr ⟨evaluation, found, ?_⟩
    rw [lint_of_finds found] at linted
    split at linted
    next asked =>
      cases answered : analyzer.correct path maxPasses text (corrections evaluation.offenses) with
      | error cause => rw [answered] at linted; cases linted
      | ok answer =>
        rw [answered] at linted
        cases linted
        exact Or.inr ⟨answer, asked.1, asked.2, rfl, rfl⟩
    next unasked =>
      cases linted
      exact Or.inl ⟨unasked, rfl⟩

/-! ### Corrected texts -/

/-- A text is corrected exactly if the loop returns another one for what the rules suggest. -/
theorem lint_corrected_iff_correct {text result : String}
    (autocorrect : analyzer.autocorrect = true) :
    (∃ outcome, analyzer.lint path text = .ok outcome ∧ outcome.corrected = some result) ↔
      ∃ evaluation, analyzer.Finds path text evaluation ∧ corrections evaluation.offenses ≠ [] ∧
        analyzer.correct path maxPasses text (corrections evaluation.offenses) =
          .ok (.ok result) ∧ result ≠ text := by
  constructor
  · rintro ⟨outcome, linted, corrected⟩
    rcases lint_eq_ok_cases linted with
      ⟨error, place, rfl⟩ | ⟨evaluation, found, ⟨-, rfl⟩ | ⟨answer, -, suggested, answered, rfl⟩⟩
    · cases corrected
    · cases corrected
    · refine ⟨evaluation, found, suggested, ?_⟩
      cases answer with
      | error failure => cases corrected
      | ok changed =>
        simp only [settle] at corrected
        split at corrected
        next => cases corrected
        next different =>
          cases corrected
          exact ⟨answered, different⟩
  · rintro ⟨evaluation, found, suggested, corrected, different⟩
    rw [lint_of_finds found, if_pos ⟨autocorrect, suggested⟩, corrected]
    exact ⟨_, rfl, if_neg different⟩

/-- **Where one pass leaves nothing to correct**, its text is the corrected one. -/
theorem lint_of_pass {text changed : String} {evaluation last : Evaluation}
    (autocorrect : analyzer.autocorrect = true) (found : analyzer.Finds path text evaluation)
    (applied : Patch.apply text (corrections evaluation.offenses) = .ok (.ok changed))
    (foundLast : analyzer.Finds path changed last) (settled : corrections last.offenses = []) :
    ∃ outcome, analyzer.lint path text = .ok outcome ∧
      outcome.corrected = if changed = text then none else some changed := by
  by_cases suggested : corrections evaluation.offenses = []
  · have unsorted : Edit.sorted [] = [] := List.mergeSort_nil
    have nothing : Patch.apply text [] = .ok (.ok (String.ofList text.toList)) := by
      show Except.ok ((Patch.applyEdits text.toList []).map String.ofList) = _
      rw [Patch.applyEdits, unsorted]
      rfl
    rw [suggested, nothing, String.ofList_toList] at applied
    cases applied
    exact ⟨_, lint_of_settled found suggested, (if_pos rfl).symm⟩
  · have corrected : analyzer.correct path maxPasses text (corrections evaluation.offenses) =
        .ok (.ok changed) := by
      rw [maxPasses, correct_of_finds applied foundLast, if_pos settled]
    rw [lint_of_finds found, if_pos ⟨autocorrect, suggested⟩, corrected]
    exact ⟨_, rfl, rfl⟩

/-- **Several passes are a sequence of texts**, each led to the next by one pass. -/
theorem passes_iff_texts {count : Nat} {text result : String} :
    Passes analyzer path count text result ↔
      ∃ texts : Nat → String, texts 0 = text ∧ texts count = result ∧
        ∀ index < count, analyzer.Pass path (texts index) (texts (index + 1)) := by
  constructor
  · intro passes
    induction passes with
    | done text => exact ⟨fun _ => text, rfl, rfl, fun index bound => by cases bound⟩
    | @pass count text changed result first rest ih =>
      obtain ⟨texts, start, stop, steps⟩ := ih
      let shifted (index : Nat) : String := index.casesOn text texts
      refine ⟨shifted, rfl, stop, fun index bound => ?_⟩
      cases index with
      | zero =>
        show analyzer.Pass path text (texts 0)
        rw [start]
        exact first
      | succ index => exact steps index (Nat.lt_of_succ_lt_succ bound)
  · rintro ⟨texts, rfl, rfl, steps⟩
    induction count generalizing texts with
    | zero => exact .done _
    | succ count ih =>
      refine .pass (steps 0 (Nat.succ_pos _)) (ih (fun index => texts (index + 1)) ?_)
      exact fun index bound => steps (index + 1) (Nat.succ_lt_succ bound)

/-- A sequence of passes that ends in a text that the rules have looked at runs through texts of
the language. -/
theorem parse_of_texts {count : Nat} {texts : Nat → String} {last : Evaluation}
    (steps : ∀ index < count, analyzer.Pass path (texts index) (texts (index + 1)))
    (found : analyzer.Finds path (texts count) last) :
    ∀ index ≤ count, ∃ tree, analyzer.language.parse (texts index) = .ok tree := by
  intro index bound
  rcases Nat.lt_or_eq_of_le bound with earlier | rfl
  · obtain ⟨evaluation, ⟨tree, parsed, -⟩, -⟩ := steps index earlier
    exact ⟨tree, parsed⟩
  · obtain ⟨tree, parsed, -⟩ := found
    exact ⟨tree, parsed⟩

/-- A run over a text for which nothing is suggested neither changes it nor gives up changing
it. -/
theorem lint_settled_quiet {text : String} {evaluation : Evaluation}
    (found : analyzer.Finds path text evaluation)
    (settled : corrections evaluation.offenses = []) :
    ∃ again, analyzer.lint path text = .ok again ∧ again.corrected = none ∧
      ∀ error ∈ again.errors, error.kind ≠ .correction := by
  exact ⟨_, lint_of_settled found settled, rfl, fun error member => kind_ne_of_mem_failures member⟩

/-- **A text is corrected to another one exactly if between one and ten passes lead there**: from
each text to the next by all changes that the rules suggest for it, through texts of the language
only, until nothing is suggested or the tenth pass is over. If nothing is suggested any more, a
second run neither changes the text nor gives up changing it. -/
theorem lint_corrected_iff_passes (analyzer : Analyzer) (path source result : String)
    (autocorrect : analyzer.autocorrect = true) :
    (∃ outcome, analyzer.lint path source = .ok outcome ∧ outcome.corrected = some result) ↔
      result ≠ source ∧ ∃ count, 1 ≤ count ∧ count ≤ 10 ∧ ∃ texts : Nat → String,
        texts 0 = source ∧ texts count = result ∧
        (∀ index ≤ count, ∃ tree, analyzer.language.parse (texts index) = .ok tree) ∧
        (∀ index < count, ∃ evaluation, analyzer.Finds path (texts index) evaluation ∧
          corrections evaluation.offenses ≠ [] ∧
          Patch.apply (texts index) (corrections evaluation.offenses) =
            .ok (.ok (texts (index + 1)))) ∧
        ∃ last, analyzer.Finds path result last ∧
          (corrections last.offenses = [] ∨ count = 10) ∧
          (corrections last.offenses = [] →
            ∃ again, analyzer.lint path result = .ok again ∧ again.corrected = none ∧
              ∀ error ∈ again.errors, error.kind ≠ .correction) := by
  rw [lint_corrected_iff_correct autocorrect]
  constructor
  · rintro ⟨evaluation, found, suggested, corrected, different⟩
    obtain ⟨count, bound, way, last, foundLast, ended⟩ :=
      (correct_eq_ok_iff maxPasses found suggested).mp corrected
    obtain ⟨texts, rfl, rfl, steps⟩ := passes_iff_texts.mp way
    have positive : 1 ≤ count := Nat.one_le_iff_ne_zero.mpr fun none => by
      subst none
      exact different rfl
    exact ⟨different, count, positive, bound, texts, rfl, rfl, parse_of_texts steps foundLast,
      steps, last, foundLast, ended, lint_settled_quiet foundLast⟩
  · rintro ⟨different, count, positive, bound, texts, rfl, rfl, -, steps, last, foundLast, ended, -⟩
    obtain ⟨evaluation, found, suggested, -⟩ := steps 0 positive
    refine ⟨evaluation, found, suggested, ?_, different⟩
    exact (correct_eq_ok_iff maxPasses found suggested).mpr
      ⟨count, bound, passes_iff_texts.mpr ⟨texts, rfl, rfl, steps⟩, last, foundLast, ended⟩

end Analyzer

/-! ### A small analyzer -/

namespace Sample

/-- The language in which every text is one comment. -/
def language : Language where
  extensions := ["rb"]
  parse := fun text =>
    let whole : Span := ⟨0, Text.size text.toList⟩
    .ok ⟨.program, whole, [.leaf (.comment text) whole]⟩

/-- The offense of a comment at a place, with the change to a better one if there is one. -/
def offense (name : String) (better : Option String) (location : Location) : Offense where
  code := name
  rule := name
  severity := .refactor
  location := location
  message := "found"
  suggestion := better.map fun text => ⟨"use " ++ text, [⟨location, text⟩]⟩

/-- The rule against one comment. -/
def rule (name bad : String) (better : Option String) : Rule where
  name := name
  code := name
  tags := [.comment]
  check := fun context node =>
    if node.commentText? = some bad then
      .ofExcept ((context.file.location node.span).map fun location =>
        [offense name better location])
    else .offenses []

/-- The analyzer with two rules against comments, which corrects. -/
def analyzer (first second : Rule) : Analyzer where
  language := language
  evaluator :=
    { registry := ⟨[first, second], fun tag => if tag = .comment then [0, 1] else []⟩ }
  search := { root := "/", paths := [], extensions := language.extensions }
  year := 2024
  autocorrect := true

/-- An answer is known by its value. -/
theorem ok_of_toOption {α ε : Type} {answer : Except ε α} {value : α}
    (evaluated : answer.toOption = some value) : answer = .ok value := by
  cases answer with
  | error cause => cases evaluated
  | ok other =>
    cases evaluated
    rfl

/-- The analyzer that leads from `a` to `b` and from there to `c`. -/
def chain : Analyzer := analyzer (rule "ab" "a" (some "b")) (rule "bc" "b" (some "c"))

/-- Passes lead from `a` to `c`. -/
theorem passes_from_a_to_c :
    chain.autocorrect = true ∧ ∃ count, 1 ≤ count ∧ count ≤ 10 ∧ ∃ texts : Nat → String,
      texts 0 = "a" ∧ texts count = "c" ∧
      ∀ index < count, chain.Pass "/a.rb" (texts index) (texts (index + 1)) := by
  have linted : chain.lint "/a.rb" "a" =
      .ok ⟨"/a.rb", [{ offense "ab" (some "b") ⟨"a.rb", 1, 1, 0, 1⟩ with corrected := true }], [],
        some "c"⟩ :=
    ok_of_toOption (by decide +kernel)
  obtain ⟨-, count, positive, bound, texts, start, stop, -, steps, -⟩ :=
    (Analyzer.lint_corrected_iff_passes chain "/a.rb" "a" "c" rfl).mp ⟨_, linted, rfl⟩
  exact ⟨rfl, count, positive, bound, texts, start, stop, steps⟩

end Sample

end RecipeLint
