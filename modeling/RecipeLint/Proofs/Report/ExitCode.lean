/-
**Exit codes.**

When a run exits with zero, said of the offenses and the failures of its report.

* `Report.exitCode_eq_zero_iff` — no file failed and every offense from the threshold on is marked.
* `Report.exitCode_refactor_eq_zero_iff` — at the lowest threshold, every offense is marked.
-/

import RecipeLint.Report

namespace RecipeLint

/-- No severity is below the lowest one. -/
theorem Severity.reaches_refactor (severity : Severity) : severity.reaches .refactor = true := by
  cases severity <;> rfl

namespace Report

variable {report : Report} {threshold : Severity}

theorem mem_remaining {offense : Offense} :
    offense ∈ report.remaining ↔ offense ∈ report.offenses ∧ offense.corrected = false := by
  rw [remaining, List.mem_filter, Bool.not_eq_true']

theorem reaches_eq_false_iff :
    report.reaches threshold = false ↔
      ∀ offense ∈ report.offenses, offense.severity.reaches threshold = true →
        offense.corrected = true := by
  rw [reaches, List.any_eq_false]
  constructor
  · intro below offense member reached
    cases mark : offense.corrected with
    | true => rfl
    | false => exact absurd reached (below offense (mem_remaining.mpr ⟨member, mark⟩))
  · intro marked offense left reached
    obtain ⟨member, unmarked⟩ := mem_remaining.mp left
    cases unmarked.symm.trans (marked offense member reached)

/-- **A run exits with zero exactly if no file failed and every offense from the threshold on is
marked as corrected.** -/
theorem exitCode_eq_zero_iff :
    report.exitCode threshold = 0 ↔
      report.errors = [] ∧ ∀ offense ∈ report.offenses,
        offense.severity.reaches threshold = true → offense.corrected = true := by
  rw [← reaches_eq_false_iff, exitCode]
  cases errors : report.errors with
  | nil => cases report.reaches threshold <;> decide
  | cons error rest =>
    constructor
    · intro zero
      cases zero
    · rintro ⟨impossible, -⟩
      cases impossible

theorem exitCode_refactor_eq_zero_iff :
    report.exitCode .refactor = 0 ↔
      report.errors = [] ∧ ∀ offense ∈ report.offenses, offense.corrected = true := by
  rw [exitCode_eq_zero_iff]
  refine and_congr_right fun _ => forall_congr' fun offense => imp_congr_right fun _ => ?_
  exact ⟨fun marked => marked offense.severity.reaches_refactor, fun marked _ => marked⟩

end Report

end RecipeLint
