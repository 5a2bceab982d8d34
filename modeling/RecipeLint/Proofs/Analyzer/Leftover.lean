/-
**What corrections leave behind.**

A run that corrects reports the offenses of the text as it was. If it reports no failure and marks
everything, it exits with zero, but the text it comes to may have offenses of its own: such that
nobody knew of before the text was changed and that have to be fixed by hand, or such that ten
passes were not enough for.

* `Analyzer.lint_quiet_cases` — where an outcome without failures comes from.
* `Analyzer.lint_leaves_manual` — what is found in the text that such a run comes to.
* `Sample.marked_text_not_clean` — it is not always nothing.
-/

import RecipeLint.Proofs.Analyzer.Agreement
import RecipeLint.Proofs.Report.ExitCode

namespace RecipeLint

namespace Analyzer

variable {analyzer : Analyzer} {path text : String} {outcome : FileOutcome}

/-! ### Outcomes without failures -/

theorem corrections_eq_nil_iff {offenses : List Offense} :
    corrections offenses = [] ↔ ∀ offense ∈ offenses, offense.corrections = [] :=
  List.flatMap_eq_nil_iff

/-- A run over files exits with zero at the lowest threshold exactly if none of them failed and all
their offenses are marked. -/
theorem exitCode_reportOf_eq_zero_iff (outcomes : List FileOutcome) :
    (reportOf outcomes).exitCode .refactor = 0 ↔
      ∀ outcome ∈ outcomes, outcome.errors = [] ∧
        ∀ offense ∈ outcome.offenses, offense.corrected = true := by
  rw [Report.exitCode_refactor_eq_zero_iff]
  simp only [reportOf, List.eq_nil_iff_forall_not_mem, List.mem_mergeSort, List.mem_flatMap]
  constructor
  · rintro ⟨quiet, marked⟩ outcome member
    exact ⟨fun error failed => quiet error ⟨outcome, member, failed⟩,
      fun offense found => marked offense ⟨outcome, member, found⟩⟩
  · intro each
    refine ⟨?_, ?_⟩
    · rintro error ⟨outcome, member, failed⟩
      exact (each outcome member).1 error failed
    · rintro offense ⟨outcome, member, found⟩
      exact (each outcome member).2 offense found

/-- **An outcome without failures** is that of a text of the language for which either nothing is
suggested or the loop returns a text. -/
theorem lint_quiet_cases (autocorrect : analyzer.autocorrect = true)
    (linted : analyzer.lint path text = .ok outcome) (quiet : outcome.errors = []) :
    ∃ evaluation, analyzer.Finds path text evaluation ∧
      ((corrections evaluation.offenses = [] ∧ outcome = plainOutcome path evaluation) ∨
        ∃ result, corrections evaluation.offenses ≠ [] ∧
          analyzer.correct path maxPasses text (corrections evaluation.offenses) =
            .ok (.ok result) ∧
          outcome = settle path (analyzer.sourceFile path text).relativePath text evaluation
            (.ok result)) := by
  rcases lint_eq_ok_cases linted with
    ⟨error, place, rfl⟩ |
    ⟨evaluation, found, ⟨unasked, rfl⟩ | ⟨answer, -, suggested, answered, rfl⟩⟩
  · cases quiet
  · have settled : corrections evaluation.offenses = [] :=
      Decidable.byContradiction fun more => unasked ⟨autocorrect, more⟩
    exact ⟨evaluation, found, Or.inl ⟨settled, rfl⟩⟩
  · cases answer with
    | error failure =>
      exact absurd quiet (List.append_ne_nil_of_right_ne_nil _ (List.cons_ne_nil _ _))
    | ok result => exact ⟨evaluation, found, Or.inr ⟨result, suggested, answered, rfl⟩⟩

/-- The text that an outcome comes to is the one that the loop returns, even if that is the text as
it was. -/
theorem settle_corrected_getD {relativePath result : String} {evaluation : Evaluation} :
    (settle path relativePath text evaluation (.ok result)).corrected.getD text = result := by
  simp only [settle]
  split
  next same => exact same.symm
  next => rfl

/-- Passes lead to the text that an outcome without failures comes to. Its rules are content with it
if nothing was found before. -/
theorem passes_of_quiet (autocorrect : analyzer.autocorrect = true)
    (linted : analyzer.lint path text = .ok outcome) (quiet : outcome.errors = []) :
    ∃ count ≤ maxPasses, Passes analyzer path count text (outcome.corrected.getD text) ∧
      ∃ last, analyzer.Finds path (outcome.corrected.getD text) last ∧
        (corrections last.offenses = [] ∨ count = maxPasses) ∧
        (outcome.offenses = [] → last.offenses = []) := by
  obtain ⟨evaluation, found, ⟨settled, rfl⟩ | ⟨result, suggested, corrected, rfl⟩⟩ :=
    lint_quiet_cases autocorrect linted quiet
  · exact ⟨0, Nat.zero_le _, .done text, evaluation, found, Or.inl settled, id⟩
  · rw [settle_corrected_getD]
    obtain ⟨count, bound, way, last, foundLast, ended⟩ :=
      (correct_eq_ok_iff maxPasses found suggested).mp corrected
    refine ⟨count, bound, way, last, foundLast, ended, fun nothing => absurd ?_ suggested⟩
    rw [List.map_eq_nil_iff.mp nothing]
    rfl

/-- Where no rule marks an offense, only those are marked that come with changes. -/
theorem corrections_ne_of_marked (autocorrect : analyzer.autocorrect = true)
    (linted : analyzer.lint path text = .ok outcome) (quiet : outcome.errors = [])
    (rules : ∀ rule ∈ analyzer.evaluator.registry.rules, rule.LeavesUnmarked) {offense : Offense}
    (member : offense ∈ outcome.offenses) (marked : offense.corrected = true) :
    offense.corrections ≠ [] := by
  obtain ⟨evaluation, found, ⟨-, rfl⟩ | ⟨result, -, -, rfl⟩⟩ :=
    lint_quiet_cases autocorrect linted quiet
  · cases marked.symm.trans (found.unmarked rules offense member)
  · obtain ⟨original, -, rfl⟩ := List.mem_map.mp member
    intro manual
    have fixable : (!original.corrections.isEmpty) = true := marked
    rw [show original.corrections = [] from manual] at fixable
    cases fixable

/-! ### The text that a run comes to -/

/-- **A run that reports no failure and marks every offense exits with zero**, and at most ten
passes lead to its text. That text is of the language. Its offenses have to be fixed by hand,
unless there were ten passes; there are none if there were none before, and those to be fixed by
hand are not among the ones that were reported, if no rule marks an offense by itself. -/
theorem lint_leaves_manual (analyzer : Analyzer) (path source : String) (outcome : FileOutcome)
    (autocorrect : analyzer.autocorrect = true)
    (linted : analyzer.lint path source = .ok outcome) (quiet : outcome.errors = [])
    (marked : ∀ offense ∈ outcome.offenses, offense.corrected = true) :
    (reportOf [outcome]).exitCode .refactor = 0 ∧
      ∃ count ≤ 10, Passes analyzer path count source (outcome.corrected.getD source) ∧
        ∃ again, (analyzer.withAutocorrect false).lint path (outcome.corrected.getD source) =
            .ok again ∧
          (∀ error ∈ again.errors, error.kind = .ruleEvaluation) ∧
          ((∀ offense ∈ again.offenses, offense.corrections = []) ∨ count = 10) ∧
          (outcome.offenses = [] → again.offenses = []) ∧
          ((∀ rule ∈ analyzer.evaluator.registry.rules, rule.LeavesUnmarked) →
            ∀ offense ∈ again.offenses, offense.corrections = [] →
              offense ∉ outcome.offenses.map unmark) := by
  have zero : (reportOf [outcome]).exitCode .refactor = 0 := by
    rw [exitCode_reportOf_eq_zero_iff]
    intro only member
    rw [List.mem_singleton.mp member]
    exact ⟨quiet, marked⟩
  obtain ⟨count, bound, way, last, found, ended, clean⟩ := passes_of_quiet autocorrect linted quiet
  refine ⟨zero, count, bound, way, plainOutcome path last, lint_withAutocorrect_false found,
    fun _ => kind_of_mem_failures, ended.imp_left corrections_eq_nil_iff.mp, clean, ?_⟩
  intro rules offense _ manual reported
  obtain ⟨original, member, rfl⟩ := List.mem_map.mp reported
  exact corrections_ne_of_marked autocorrect linted quiet rules member (marked original member)
    manual

/-- A run that reports no failure and marks every offense comes to a text with this offense. -/
def Hides (analyzer : Analyzer) (path source : String) (offense : Offense) : Prop :=
  analyzer.autocorrect = true ∧ ∃ outcome again,
    analyzer.lint path source = .ok outcome ∧ outcome.errors = [] ∧
    (∀ reported ∈ outcome.offenses, reported.corrected = true) ∧
    (analyzer.withAutocorrect false).lint path (outcome.corrected.getD source) = .ok again ∧
    offense ∈ again.offenses

end Analyzer

/-! ### Offenses that no report mentions -/

namespace Sample

open Analyzer

/-- The analyzer that leads from `a` to `b`, against which it has a rule but nothing to suggest. -/
def exposing : Analyzer := analyzer (rule "ab" "a" (some "b")) (rule "no-b" "b" none)

/-- The rule that wants every comment to be longer. -/
def longer : Rule where
  name := "longer"
  code := "longer"
  tags := [.comment]
  check := fun context node =>
    match node.commentText? with
    | some text =>
      .ofExcept ((context.file.location node.span).map fun location =>
        [offense "longer" (some (text ++ "!")) location])
    | none => .offenses []

/-- The analyzer that is never content with a comment. -/
def restless : Analyzer := analyzer longer (rule "no-b" "b" none)

theorem lint_exposing : exposing.lint "/a.rb" "a" =
    .ok ⟨"/a.rb", [{ offense "ab" (some "b") ⟨"a.rb", 1, 1, 0, 1⟩ with corrected := true }], [],
      some "b"⟩ :=
  ok_of_toOption (by decide +kernel)

theorem lint_restless : restless.lint "/a.rb" "a" =
    .ok ⟨"/a.rb", [{ offense "longer" (some "a!") ⟨"a.rb", 1, 1, 0, 1⟩ with corrected := true }],
      [], some "a!!!!!!!!!!"⟩ :=
  ok_of_toOption (by decide +kernel)

/-- **A run may exit with zero although offenses are left**: one that a correction exposed and that
has to be fixed by hand, or one that ten passes were not enough for. -/
theorem marked_text_not_clean :
    exposing.Hides "/a.rb" "a" (offense "no-b" none ⟨"a.rb", 1, 1, 0, 1⟩) ∧
      restless.Hides "/a.rb" "a"
        (offense "longer" (some "a!!!!!!!!!!!") ⟨"a.rb", 1, 1, 0, 11⟩) := by
  constructor
  · have left : (exposing.withAutocorrect false).lint "/a.rb" "b" =
        .ok ⟨"/a.rb", [offense "no-b" none ⟨"a.rb", 1, 1, 0, 1⟩], [], none⟩ :=
      ok_of_toOption (by decide +kernel)
    exact ⟨rfl, _, _, lint_exposing, rfl, by decide, left, List.mem_singleton_self _⟩
  · have left : (restless.withAutocorrect false).lint "/a.rb" "a!!!!!!!!!!" =
        .ok ⟨"/a.rb", [offense "longer" (some "a!!!!!!!!!!!") ⟨"a.rb", 1, 1, 0, 11⟩], [], none⟩ :=
      ok_of_toOption (by decide +kernel)
    exact ⟨rfl, _, _, lint_restless, rfl, by decide, left, List.mem_singleton_self _⟩

/-- In the first case the run exits with zero, and what is left has to be fixed by hand. -/
theorem exposing_leaves_manual :
    exposing.autocorrect = true ∧
      (reportOf [⟨"/a.rb", [{ offense "ab" (some "b") ⟨"a.rb", 1, 1, 0, 1⟩ with
        corrected := true }], [], some "b"⟩]).exitCode .refactor = 0 ∧
      ∃ count ≤ 10, Passes exposing "/a.rb" count "a" "b" ∧
        ∃ again, (exposing.withAutocorrect false).lint "/a.rb" "b" = .ok again ∧
          ((∀ offense ∈ again.offenses, offense.corrections = []) ∨ count = 10) := by
  obtain ⟨zero, count, bound, way, again, reported, -, manual, -⟩ :=
    lint_leaves_manual exposing "/a.rb" "a" _ rfl lint_exposing rfl (by decide)
  exact ⟨rfl, zero, count, bound, way, again, reported, manual⟩

end Sample

end RecipeLint
