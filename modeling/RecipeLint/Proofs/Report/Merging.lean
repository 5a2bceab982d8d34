/-
**Merging reports.**

Reports are merged two at a time, in some order and some grouping. Neither shows in what is said
about the offenses: the counts of the result are the sums of the counts of the parts, and its exit
code is the worst of theirs. Only the counts of files are machine words, so that there may be no
result at all.

* `Merging` — a way to merge reports, with its parts and its result.
* `Report.Gathers` — what a report says about the offenses and failures of several others.
* `Merging.result_gathers` — the result of every merging gathers its parts, and there is one exactly
  if the counts of files have sums.
-/

import Mathlib.Algebra.GroupWithZero.Nat
import RecipeLint.Report

namespace RecipeLint

/-! ### Two reports -/

namespace Report

variable {first second merged : Report} {threshold : Severity}

theorem merge_eq_ok (done : merge first second = .ok merged) :
    merged.offenses = first.offenses ++ second.offenses ∧
      merged.errors = first.errors ++ second.errors ∧
      merged.filesChecked = first.filesChecked + second.filesChecked ∧
      merged.filesCorrected = first.filesCorrected + second.filesCorrected := by
  unfold merge addWords at done
  split at done
  next =>
    split at done
    next =>
      cases done
      exact ⟨rfl, rfl, rfl, rfl⟩
    next => cases done
  next => cases done

/-- Two reports have a merged one exactly if their counts of files have sums. -/
theorem exists_merge_iff :
    (∃ merged, merge first second = .ok merged) ↔
      first.filesChecked + second.filesChecked ≤ maxWord ∧
        first.filesCorrected + second.filesCorrected ≤ maxWord := by
  unfold merge addWords
  constructor
  · rintro ⟨merged, done⟩
    split at done
    next checked =>
      split at done
      next corrected => exact ⟨checked, corrected⟩
      next => cases done
    next => cases done
  · rintro ⟨checked, corrected⟩
    rw [if_pos checked, if_pos corrected]
    exact ⟨_, rfl⟩

theorem count_merge (done : merge first second = .ok merged) (severity : Severity) :
    merged.count severity = first.count severity + second.count severity := by
  rw [count, (merge_eq_ok done).1, List.countP_append]
  rfl

theorem correctedCount_merge (done : merge first second = .ok merged) :
    merged.correctedCount = first.correctedCount + second.correctedCount := by
  rw [correctedCount, (merge_eq_ok done).1, List.countP_append]
  rfl

theorem remaining_merge (done : merge first second = .ok merged) :
    merged.remaining = first.remaining ++ second.remaining := by
  rw [remaining, (merge_eq_ok done).1, List.filter_append]
  rfl

theorem reaches_merge (done : merge first second = .ok merged) (threshold : Severity) :
    merged.reaches threshold = (first.reaches threshold || second.reaches threshold) := by
  rw [reaches, remaining_merge done, List.any_append]
  rfl

/-- **The exit code of two merged reports is the worse one.** -/
theorem exitCode_merge (done : merge first second = .ok merged) (threshold : Severity) :
    merged.exitCode threshold = max (first.exitCode threshold) (second.exitCode threshold) := by
  unfold exitCode
  rw [(merge_eq_ok done).2.1, reaches_merge done]
  cases first.errors <;> cases second.errors <;> cases first.reaches threshold <;>
    cases second.reaches threshold <;> rfl

/-- Every offense has been fixed or remains. -/
theorem correctedCount_add_length_remaining (report : Report) :
    report.correctedCount + report.remaining.length = report.offenses.length := by
  rw [correctedCount, remaining, ← List.countP_eq_length_filter]
  simpa using (List.length_eq_countP_add_countP Offense.corrected (l := report.offenses)).symm

/-- What reaches a threshold reaches every lower one. -/
theorem reaches_of_le {lower upper : Severity} {report : Report} (order : lower.rank ≤ upper.rank)
    (reached : report.reaches upper = true) : report.reaches lower = true := by
  obtain ⟨offense, left, bad⟩ := List.any_eq_true.mp reached
  have rank : upper.rank ≤ offense.severity.rank := of_decide_eq_true bad
  exact List.any_eq_true.mpr ⟨offense, left, decide_eq_true (Nat.le_trans order rank)⟩

/-- **A lower threshold never gives a lower exit code.** -/
theorem exitCode_le_of_le {lower upper : Severity} (report : Report)
    (order : lower.rank ≤ upper.rank) : report.exitCode upper ≤ report.exitCode lower := by
  unfold exitCode
  have keeps : report.reaches upper = true → report.reaches lower = true := reaches_of_le order
  cases upperReached : report.reaches upper with
  | false => split <;> simp
  | true => exact Nat.le_of_eq (by rw [keeps upperReached])

/-! ### Several reports -/

/-- **A report gathers several others**: of the offenses it counts as many as they do together, and
its exit code is the greatest of theirs. -/
structure Gathers (merged : Report) (reports : List Report) : Prop where
  exitCode : ∀ threshold,
    (reports.map (·.exitCode threshold)).max? = some (merged.exitCode threshold)
  errors : merged.counts.errors = (reports.map (·.counts.errors)).sum
  warnings : merged.counts.warnings = (reports.map (·.counts.warnings)).sum
  refactors : merged.counts.refactors = (reports.map (·.counts.refactors)).sum
  corrected : merged.correctedCount = (reports.map (·.correctedCount)).sum
  remaining : merged.remaining.length = (reports.map (·.remaining.length)).sum
  offenses : merged.correctedCount + merged.remaining.length = merged.offenses.length

theorem Gathers.single (report : Report) : report.Gathers [report] where
  exitCode _ := rfl
  errors := by simp
  warnings := by simp
  refactors := by simp
  corrected := by simp
  remaining := by simp
  offenses := report.correctedCount_add_length_remaining

/-- The greatest of two lists of numbers is the greater one of theirs. -/
theorem max?_append {front back : List Nat} {one other : Nat} (frontMax : front.max? = some one)
    (backMax : back.max? = some other) : (front ++ back).max? = some (max one other) := by
  rw [List.max?_eq_some_iff] at frontMax backMax ⊢
  refine ⟨?_, fun number member => ?_⟩
  · rcases Nat.le_total one other with order | order
    · rw [Nat.max_eq_right order]
      exact List.mem_append_right front backMax.1
    · rw [Nat.max_eq_left order]
      exact List.mem_append_left back frontMax.1
  · rcases List.mem_append.mp member with inFront | inBack
    · exact Nat.le_trans (frontMax.2 number inFront) (Nat.le_max_left one other)
    · exact Nat.le_trans (backMax.2 number inBack) (Nat.le_max_right one other)

/-- **A merged report gathers what its two parts gather.** -/
theorem Gathers.merge {front back : List Report} (done : merge first second = .ok merged)
    (firstGathers : first.Gathers front) (secondGathers : second.Gathers back) :
    merged.Gathers (front ++ back) where
  exitCode threshold := by
    rw [List.map_append, exitCode_merge done]
    exact max?_append (firstGathers.exitCode threshold) (secondGathers.exitCode threshold)
  errors := by
    rw [List.map_append, List.sum_append, ← firstGathers.errors, ← secondGathers.errors]
    exact count_merge done .error
  warnings := by
    rw [List.map_append, List.sum_append, ← firstGathers.warnings, ← secondGathers.warnings]
    exact count_merge done .warning
  refactors := by
    rw [List.map_append, List.sum_append, ← firstGathers.refactors, ← secondGathers.refactors]
    exact count_merge done .refactor
  corrected := by
    rw [List.map_append, List.sum_append, ← firstGathers.corrected, ← secondGathers.corrected]
    exact correctedCount_merge done
  remaining := by
    rw [List.map_append, List.sum_append, ← firstGathers.remaining, ← secondGathers.remaining,
      remaining_merge done, List.length_append]
  offenses := merged.correctedCount_add_length_remaining

/-- The order of the parts does not matter. -/
theorem Gathers.perm {reports others : List Report} (gathers : merged.Gathers reports)
    (same : reports.Perm others) : merged.Gathers others where
  exitCode threshold := by
    have greatest := List.max?_eq_some_iff.mp (gathers.exitCode threshold)
    have codes := same.map (·.exitCode threshold)
    refine List.max?_eq_some_iff.mpr ⟨codes.mem_iff.mp greatest.1, fun code member => ?_⟩
    exact greatest.2 code (codes.mem_iff.mpr member)
  errors := gathers.errors.trans (same.map (·.counts.errors)).sum_nat
  warnings := gathers.warnings.trans (same.map (·.counts.warnings)).sum_nat
  refactors := gathers.refactors.trans (same.map (·.counts.refactors)).sum_nat
  corrected := gathers.corrected.trans (same.map (·.correctedCount)).sum_nat
  remaining := gathers.remaining.trans (same.map (·.remaining.length)).sum_nat
  offenses := gathers.offenses

/-- The counts of files of a report are machine words. -/
def CountsInWords (report : Report) : Prop :=
  report.filesChecked ≤ maxWord ∧ report.filesCorrected ≤ maxWord

instance (report : Report) : Decidable report.CountsInWords :=
  inferInstanceAs (Decidable (_ ∧ _))

end Report

/-! ### Merging -/

/-- **A way to merge reports**: a single one stays as it is, and of two parts the second is added to
the first. -/
inductive Merging where
  /-- A report as it is. -/
  | single (report : Report)
  /-- The result of the second part added to that of the first. -/
  | join (first second : Merging)

namespace Merging

/-- The reports that are merged, in their order. -/
def parts : Merging → List Report
  | single report => [report]
  | join first second => first.parts ++ second.parts

/-- The merged report, if there is one. -/
def result : Merging → Except Overflow Report
  | single report => .ok report
  | join first second => do (← first.result).merge (← second.result)

variable {merging first second : Merging} {merged : Report}

theorem result_join_eq_ok (done : (join first second).result = .ok merged) :
    ∃ one other, first.result = .ok one ∧ second.result = .ok other ∧
      one.merge other = .ok merged := by
  unfold result at done
  cases one : first.result with
  | error cause =>
    rw [one] at done
    cases done
  | ok report =>
    cases other : second.result with
    | error cause =>
      rw [one, other] at done
      cases done
    | ok later =>
      rw [one, other] at done
      exact ⟨report, later, rfl, rfl, done⟩

theorem gathers_parts : ∀ {merging : Merging} {merged : Report},
    merging.result = .ok merged → merged.Gathers merging.parts
  | single report, merged, done => by
    cases done
    exact .single report
  | join first second, merged, done => by
    obtain ⟨one, other, firstDone, secondDone, done⟩ := result_join_eq_ok done
    exact .merge done (gathers_parts firstDone) (gathers_parts secondDone)

/-- The counts of files of the result are the sums of those of the parts. -/
theorem files_of_result : ∀ {merging : Merging} {merged : Report},
    merging.result = .ok merged →
      merged.filesChecked = (merging.parts.map (·.filesChecked)).sum ∧
        merged.filesCorrected = (merging.parts.map (·.filesCorrected)).sum
  | single report, merged, done => by
    cases done
    simp [parts]
  | join first second, merged, done => by
    obtain ⟨one, other, firstDone, secondDone, done⟩ := result_join_eq_ok done
    obtain ⟨-, -, checked, corrected⟩ := Report.merge_eq_ok done
    obtain ⟨firstChecked, firstCorrected⟩ := files_of_result firstDone
    obtain ⟨secondChecked, secondCorrected⟩ := files_of_result secondDone
    simp only [parts, List.map_append, List.sum_append, checked, corrected, firstChecked,
      secondChecked, firstCorrected, secondCorrected, and_self]

/-- There is a result if the counts of files have sums. -/
theorem exists_result : ∀ merging : Merging,
    (merging.parts.map (·.filesChecked)).sum ≤ maxWord →
      (merging.parts.map (·.filesCorrected)).sum ≤ maxWord →
        ∃ merged, merging.result = .ok merged
  | single report, _, _ => ⟨report, rfl⟩
  | join first second, checked, corrected => by
    simp only [parts, List.map_append, List.sum_append] at checked corrected
    obtain ⟨one, firstDone⟩ := exists_result first (by omega) (by omega)
    obtain ⟨other, secondDone⟩ := exists_result second (by omega) (by omega)
    obtain ⟨firstChecked, firstCorrected⟩ := files_of_result firstDone
    obtain ⟨secondChecked, secondCorrected⟩ := files_of_result secondDone
    obtain ⟨merged, done⟩ := Report.exists_merge_iff.mpr
      ⟨firstChecked ▸ secondChecked ▸ checked, firstCorrected ▸ secondCorrected ▸ corrected⟩
    exact ⟨merged, by rw [result, firstDone, secondDone]; exact done⟩

/-- A result has counts of files that are machine words, if its parts have. -/
theorem countsInWords_of_result : ∀ {merging : Merging} {merged : Report},
    (∀ report ∈ merging.parts, report.CountsInWords) → merging.result = .ok merged →
      merged.CountsInWords
  | single report, merged, words, done => by
    cases done
    exact words report List.mem_cons_self
  | join first second, merged, _, done => by
    obtain ⟨one, other, -, -, done⟩ := result_join_eq_ok done
    obtain ⟨-, -, checked, corrected⟩ := Report.merge_eq_ok done
    have fits := Report.exists_merge_iff.mp ⟨merged, done⟩
    exact ⟨checked ▸ fits.1, corrected ▸ fits.2⟩

/-- **Whatever the order and the grouping, merged reports say together what each of them says.**
Reports with counts that are machine words have a merged one exactly if the counts of files have
sums. Its exit code is the greatest of theirs at every threshold, it counts as many offenses of each
severity, as many fixed and as many remaining ones as they do together, and a lower threshold never
gives a lower exit code. -/
theorem result_gathers (reports : List Report) (merging : Merging)
    (same : merging.parts.Perm reports) (words : ∀ report ∈ reports, report.CountsInWords) :
    ((∃ merged, merging.result = .ok merged) ↔
      (reports.map (·.filesChecked)).sum ≤ maxWord ∧
        (reports.map (·.filesCorrected)).sum ≤ maxWord) ∧
    ∀ merged, merging.result = .ok merged → merged.Gathers reports ∧
      ∀ lower upper : Severity, lower.rank ≤ upper.rank →
        merged.exitCode upper ≤ merged.exitCode lower := by
  have checkedSum := (same.map (·.filesChecked)).sum_nat
  have correctedSum := (same.map (·.filesCorrected)).sum_nat
  refine ⟨⟨?_, ?_⟩, fun merged done => ⟨(gathers_parts done).perm same, fun lower upper order =>
    merged.exitCode_le_of_le order⟩⟩
  · rintro ⟨merged, done⟩
    have fits := countsInWords_of_result
      (fun report member => words report (same.mem_iff.mp member)) done
    obtain ⟨checked, corrected⟩ := files_of_result done
    rw [← checkedSum, ← correctedSum, ← checked, ← corrected]
    exact fits
  · rintro ⟨checked, corrected⟩
    exact exists_result merging (checkedSum ▸ checked) (correctedSum ▸ corrected)

end Merging

/-! ### Samples -/

namespace Sample

/-- An offense at the start of a file. -/
def offenseOf (severity : Severity) (corrected : Bool) : Offense where
  code := "CL001"
  rule := "chefspec-legacy-runner"
  severity := severity
  location := ⟨"a.rb", 1, 1, 0, 1⟩
  message := ""
  corrected := corrected

/-- A report on a file whose worst offense has been fixed. -/
def fixedReport : Report where
  offenses := [offenseOf .error true, offenseOf .refactor false]
  filesChecked := 1
  filesCorrected := 1

/-- A report on a file with a warning. -/
def warnedReport : Report where
  offenses := [offenseOf .warning false]
  filesChecked := 1

/-- A report on a file that is no text of the language. -/
def brokenReport : Report where
  errors := [{ file := "b.rb", kind := .syntaxError, message := "unexpected end of input" }]
  filesChecked := 1

/-- Three reports are merged from the back, and the failure of one file decides. -/
theorem result_gathers_three :
    (Merging.join (.single brokenReport) (.join (.single warnedReport)
      (.single fixedReport))).parts.Perm [fixedReport, warnedReport, brokenReport] ∧
      (∀ report ∈ [fixedReport, warnedReport, brokenReport], report.CountsInWords) ∧
      ∃ merged, (Merging.join (.single brokenReport) (.join (.single warnedReport)
          (.single fixedReport))).result = .ok merged ∧
        merged.Gathers [fixedReport, warnedReport, brokenReport] ∧
        merged.exitCode .error = 2 ∧ merged.correctedCount = 1 ∧ merged.remaining.length = 2 := by
  have same : (Merging.join (.single brokenReport) (.join (.single warnedReport)
      (.single fixedReport))).parts.Perm [fixedReport, warnedReport, brokenReport] :=
    List.reverse_perm [fixedReport, warnedReport, brokenReport]
  have words : ∀ report ∈ [fixedReport, warnedReport, brokenReport], report.CountsInWords := by
    decide
  obtain ⟨exactly, gathers⟩ := Merging.result_gathers _ _ same words
  obtain ⟨merged, done⟩ := exactly.mpr (by decide)
  refine ⟨same, words, merged, done, (gathers merged done).1, ?_⟩
  cases done
  decide

end Sample

end RecipeLint
