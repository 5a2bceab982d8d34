/-
**When marks mean a change.**

A run that corrects marks the offenses that come with changes as soon as its passes succeed, and
compares the text only afterwards. The marks are right if the passes lead to another text. They are
wrong if the passes lead back to the text as it was: a change may put a text in place of itself, and
rules may undo what others do. As there is no end to such passes, the tenth one is the last, and it
leads back exactly if the length of the circle divides ten. All this is about the marks that a run
sets, so the rules have to leave the flag of their offenses unset.

* `Analyzer.Passes.cycle` — a circle of passes, gone round any number of times.
* `Analyzer.correct_returns_iff` — the loop comes back to its text exactly if ten passes do.
* `Analyzer.lint_marks_change` — an outcome with a mark has another text, unless the passes go in a
  circle whose length divides ten.
* `Sample.marks_without_change` — then the marks are there and the text is the same.
-/

import Mathlib
import RecipeLint.Proofs.Analyzer.Leftover

namespace RecipeLint

/-- An offense of the outcome is marked as corrected. -/
def FileOutcome.HasMark (outcome : FileOutcome) : Prop :=
  ∃ offense ∈ outcome.offenses, offense.corrected = true

namespace Analyzer

variable {analyzer : Analyzer} {path text : String} {evaluation : Evaluation}

/-! ### Passes in a circle -/

theorem Passes.trans {first second : Nat} {before between after : String}
    (one : Passes analyzer path first before between)
    (other : Passes analyzer path second between after) :
    Passes analyzer path (first + second) before after := by
  induction one with
  | done text =>
    rw [Nat.zero_add]
    exact other
  | pass start rest ih =>
    rw [Nat.succ_add]
    exact .pass start (ih other)

/-- Before a pass something is suggested for the text. -/
theorem Passes.suggests {count : Nat} {result : String}
    (passes : Passes analyzer path (count + 1) text result) :
    ∃ evaluation, analyzer.Finds path text evaluation ∧ corrections evaluation.offenses ≠ [] := by
  cases passes with
  | pass first rest =>
    obtain ⟨evaluation, found, suggested, -⟩ := first
    exact ⟨evaluation, found, suggested⟩

/-- A circle of passes can be gone round any number of times. -/
theorem Passes.cycle {count : Nat} (circle : Passes analyzer path count text text) (times : Nat) :
    Passes analyzer path (count * times) text text := by
  induction times with
  | zero => exact .done text
  | succ times ih => exact ih.trans circle

/-- **The loop comes back to its text exactly if all its passes do.** Something is suggested for
that text, so the loop does not stop there before its last pass. -/
theorem correct_returns_iff (found : analyzer.Finds path text evaluation)
    (suggested : corrections evaluation.offenses ≠ []) :
    analyzer.correct path maxPasses text (corrections evaluation.offenses) = .ok (.ok text) ↔
      Passes analyzer path maxPasses text text := by
  rw [correct_eq_ok_iff maxPasses found suggested]
  constructor
  · rintro ⟨count, -, way, last, foundLast, ended⟩
    cases found.unique foundLast
    obtain rfl := ended.resolve_left suggested
    exact way
  · intro way
    exact ⟨maxPasses, Nat.le_refl _, way, evaluation, found, Or.inr rfl⟩

/-! ### Marks -/

/-- Something is suggested exactly if some offense comes with changes. -/
theorem corrections_ne_nil_iff {offenses : List Offense} :
    corrections offenses ≠ [] ↔ ∃ offense ∈ offenses, offense.isCorrectable = true := by
  rw [Ne, corrections_eq_nil_iff]
  simp [Offense.isCorrectable]

/-- What is settled with a text has a mark, whatever the text, if something was suggested. -/
theorem hasMark_settle {relativePath : String} (suggested : corrections evaluation.offenses ≠ [])
    (result : String) : (settle path relativePath text evaluation (.ok result)).HasMark := by
  obtain ⟨offense, member, correctable⟩ := corrections_ne_nil_iff.mp suggested
  exact ⟨_, List.mem_map_of_mem member, correctable⟩

/-- **Where marks come from**: if no rule marks an offense by itself, from passes that lead to a
text, which is the new text of the outcome unless it is the text as it was. -/
theorem correct_of_hasMark {outcome : FileOutcome}
    (rules : ∀ rule ∈ analyzer.evaluator.registry.rules, rule.LeavesUnmarked)
    (linted : analyzer.lint path text = .ok outcome) (mark : outcome.HasMark) :
    ∃ evaluation result, analyzer.Finds path text evaluation ∧
      corrections evaluation.offenses ≠ [] ∧
      analyzer.correct path maxPasses text (corrections evaluation.offenses) = .ok (.ok result) ∧
      outcome.corrected = if result = text then none else some result := by
  obtain ⟨offense, member, marked⟩ := mark
  rcases lint_eq_ok_cases linted with
    ⟨error, place, rfl⟩ | ⟨evaluation, found, ⟨-, rfl⟩ | ⟨answer, -, suggested, answered, rfl⟩⟩
  · exact (List.not_mem_nil member).elim
  · cases marked.symm.trans (found.unmarked rules offense member)
  · cases answer with
    | error failure => cases marked.symm.trans (found.unmarked rules offense member)
    | ok result => exact ⟨evaluation, result, found, suggested, answered, rfl⟩

/-- **An outcome with a mark has another text, unless passes lead from the text back to it in a
circle whose length divides ten.** If they do, there is an outcome with a mark and without a new
text. The rules are those that leave the flag unset: an offense that a rule marks itself is marked
in every outcome, whatever becomes of the text. -/
theorem lint_marks_change (analyzer : Analyzer) (path source : String)
    (autocorrect : analyzer.autocorrect = true)
    (rules : ∀ rule ∈ analyzer.evaluator.registry.rules, rule.LeavesUnmarked) :
    (∀ outcome, analyzer.lint path source = .ok outcome → outcome.HasMark →
        (∃ result, outcome.corrected = some result ∧ result ≠ source) ∨
          outcome.corrected = none ∧
            ∃ count, count ∣ 10 ∧ Passes analyzer path count source source) ∧
      ((∃ count, count ∣ 10 ∧ Passes analyzer path count source source) →
        ∃ outcome, analyzer.lint path source = .ok outcome ∧ outcome.HasMark ∧
          outcome.corrected = none) := by
  constructor
  · intro outcome linted mark
    obtain ⟨evaluation, result, found, suggested, corrected, settled⟩ :=
      correct_of_hasMark rules linted mark
    rw [settled]
    by_cases same : result = source
    · subst same
      have circle := (correct_returns_iff found suggested).mp corrected
      exact Or.inr ⟨if_pos rfl, 10, Nat.dvd_refl 10, circle⟩
    · exact Or.inl ⟨result, if_neg same, same⟩
  · rintro ⟨count, ⟨times, tenfold⟩, circle⟩
    have way : Passes analyzer path 10 source source := tenfold ▸ circle.cycle times
    obtain ⟨evaluation, found, suggested⟩ := way.suggests
    have linted : analyzer.lint path source = .ok (settle path
        (analyzer.sourceFile path source).relativePath source evaluation (.ok source)) := by
      rw [lint_of_finds found, if_pos ⟨autocorrect, suggested⟩,
        (correct_returns_iff found suggested).mpr way]
      rfl
    exact ⟨_, linted, hasMark_settle suggested source, if_pos rfl⟩

end Analyzer

/-! ### Marks without a change -/

namespace Sample

open Analyzer

/-- The analyzer that leads from `a` to `b` and from there back to `a`. -/
def undoing : Analyzer := analyzer (rule "ab" "a" (some "b")) (rule "ba" "b" (some "a"))

/-- The analyzer that puts `a` in place of itself. -/
def repeating : Analyzer := analyzer (rule "aa" "a" (some "a")) (rule "no-b" "b" none)

/-- **Offenses may be marked although the text is the same**: rules undo what others do, or a change
puts a text in place of itself. -/
theorem marks_without_change :
    undoing.lint "/a.rb" "a" = .ok ⟨"/a.rb",
        [{ offense "ab" (some "b") ⟨"a.rb", 1, 1, 0, 1⟩ with corrected := true }], [], none⟩ ∧
      repeating.lint "/a.rb" "a" = .ok ⟨"/a.rb",
        [{ offense "aa" (some "a") ⟨"a.rb", 1, 1, 0, 1⟩ with corrected := true }], [], none⟩ :=
  ⟨ok_of_toOption (by decide +kernel), ok_of_toOption (by decide +kernel)⟩

theorem undoing_leavesUnmarked :
    ∀ subject ∈ undoing.evaluator.registry.rules, subject.LeavesUnmarked :=
  analyzer_leavesUnmarked (rule_leavesUnmarked _ _ _) (rule_leavesUnmarked _ _ _)

/-- Two passes lead from `a` back to `a`. -/
theorem undoing_circle : Passes undoing "/a.rb" 2 "a" "a" := by
  have foundA : undoing.Finds "/a.rb" "a" ⟨[offense "ab" (some "b") ⟨"a.rb", 1, 1, 0, 1⟩], []⟩ :=
    ⟨_, rfl, ok_of_toOption (by decide +kernel)⟩
  have foundB : undoing.Finds "/a.rb" "b" ⟨[offense "ba" (some "a") ⟨"a.rb", 1, 1, 0, 1⟩], []⟩ :=
    ⟨_, rfl, ok_of_toOption (by decide +kernel)⟩
  exact .pass ⟨_, foundA, by decide, by cbv⟩ (.pass ⟨_, foundB, by decide, by cbv⟩ (.done _))

/-- A circle of two passes leaves a mark and no new text. -/
theorem undoing_marks :
    undoing.autocorrect = true ∧
      (∀ subject ∈ undoing.evaluator.registry.rules, subject.LeavesUnmarked) ∧
      ∃ outcome, undoing.lint "/a.rb" "a" = .ok outcome ∧ outcome.HasMark ∧
        outcome.corrected = none :=
  ⟨rfl, undoing_leavesUnmarked,
    (lint_marks_change undoing "/a.rb" "a" rfl undoing_leavesUnmarked).2
      ⟨2, by decide, undoing_circle⟩⟩

end Sample

end RecipeLint
