/-
**Reports.**

The outcome of a run over many files: offenses, failures of files and two counts. A report can be
merged with another, decides the exit code, and is written as text for people and as data.

* `Report.exitCode` — two if a file failed, one if an offense of a severity remains, else zero.
* `Report.merge` — one report after another; the counts are machine words and may have no sum.
* `Report.text` — the report for people.
-/

import RecipeLint.Offense

namespace RecipeLint

/-- The number of offenses of each severity. -/
structure SeverityCounts where
  /-- The number of errors. -/
  errors : Nat
  /-- The number of warnings. -/
  warnings : Nat
  /-- The number of refactorings. -/
  refactors : Nat
  deriving DecidableEq, Repr, Inhabited

/-- The outcome of a run. -/
structure Report where
  /-- The offenses. -/
  offenses : List Offense := []
  /-- The failures of files. -/
  errors : List FileError := []
  /-- The number of files that were looked at. -/
  filesChecked : Nat := 0
  /-- The number of files that were changed. -/
  filesCorrected : Nat := 0
  deriving DecidableEq, Repr, Inhabited

namespace Report

/-- The report of a run over no files. -/
def empty : Report := {}

/-- The offenses that have not been fixed. -/
def remaining (report : Report) : List Offense :=
  report.offenses.filter fun offense => !offense.corrected

/-- The number of offenses of a severity, fixed or not. -/
def count (report : Report) (severity : Severity) : Nat :=
  report.offenses.countP fun offense => offense.severity == severity

/-- The number of offenses of each severity, fixed or not. -/
def counts (report : Report) : SeverityCounts :=
  ⟨report.count .error, report.count .warning, report.count .refactor⟩

/-- The number of offenses that have been fixed. -/
def correctedCount (report : Report) : Nat :=
  report.offenses.countP (·.corrected)

/-- Whether an offense remains that is at least as bad as a threshold. -/
def reaches (report : Report) (threshold : Severity) : Bool :=
  report.remaining.any fun offense => offense.severity.reaches threshold

/-- The exit code of a run that fails from a severity on. -/
def exitCode (report : Report) (threshold : Severity) : Nat :=
  if !report.errors.isEmpty then 2
  else if report.reaches threshold then 1
  else 0

/-- One report after another. -/
def merge (first second : Report) : Except Overflow Report := do
  return {
    offenses := first.offenses ++ second.offenses
    errors := first.errors ++ second.errors
    filesChecked := ← addWords first.filesChecked second.filesChecked
    filesCorrected := ← addWords first.filesCorrected second.filesCorrected }

/-- The line that counts what was found. -/
def summary (report : Report) : String :=
  let counts := report.counts
  "Found " ++ toString counts.errors ++ " error(s), " ++ toString counts.warnings ++
    " warning(s), " ++ toString counts.refactors ++ " refactor(s) in " ++
    toString report.filesChecked ++ " file(s)" ++
    if 0 < report.correctedCount then ", " ++ toString report.correctedCount ++ " corrected" else ""

/-- The report for people: a paragraph for each offense, a line for each failure and a summary. -/
def text (report : Report) : String :=
  String.join (report.offenses.map fun offense => offense.paragraph ++ "\n") ++
    String.join (report.errors.map fun error => error.text ++ "\n") ++ report.summary ++ "\n"

end Report

/-! ### Diagnoses -/

/-- An offense as a diagnosis that points into a text. -/
structure Diagnosis where
  /-- What is wrong. -/
  message : String
  /-- How it could be fixed. -/
  help : Option String
  /-- The first byte. -/
  offset : Nat
  /-- The number of bytes. -/
  length : Nat
  /-- What the place is labelled with. -/
  label : String
  deriving DecidableEq, Repr, Inhabited

/-- The diagnosis of an offense. -/
def Offense.diagnosis (offense : Offense) : Diagnosis where
  message := "[" ++ offense.code ++ "] " ++ offense.message
  help := offense.suggestion.map (·.message)
  offset := offense.location.offset
  length := offense.location.length
  label := offense.rule

end RecipeLint
