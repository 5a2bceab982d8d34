/-
**Reports written and read.**

A report whose numbers are machine words is read back from its data and from its text. What is left
out in writing (a suggestion that there is not, changes of which there are none, a line or a column
that is not known) gets the value in reading that it had.

* `Offense.ofJson?_toJson`, `FileError.ofJson?_toJson` — the parts of a report are read back.
* `Report.plain_toJson` — how deep a report nests.
* `Report.ofText?_render` — a report is read back from the text that is printed.
-/

import Mathlib.Tactic.MkIffOfInductiveProp
import RecipeLint.CommandLine.Output
import RecipeLint.Proofs.Json.Record

namespace RecipeLint

open Json (present Plain)

/-! ### Parts -/

theorem Json.listOf_map {α : Type} {read : Json → Option α} {write : α → Json} {list : List α}
    (reads : ∀ a ∈ list, read (write a) = some a) :
    Json.listOf read (.array (list.map write)) = some list := by
  show (list.map write).mapM read = some list
  induction list with
  | nil => rfl
  | cons first list ih =>
    rw [List.map_cons, List.mapM_cons, reads first List.mem_cons_self,
      ih fun a member => reads a (List.mem_cons_of_mem _ member)]
    rfl

/-- The numbers of a place are machine words. -/
@[mk_iff]
structure Location.InWords (location : Location) : Prop where
  line : location.line ≤ maxWord
  column : location.column ≤ maxWord
  offset : location.offset ≤ maxWord
  length : location.length ≤ maxWord

instance (location : Location) : Decidable location.InWords :=
  decidable_of_iff' _ (Location.inWords_iff location)

theorem Location.toJson_eq (location : Location) :
    location.toJson = .object (present ["file", "line", "column", "offset", "length"]
      [some (.string location.file), some (.natural location.line),
       some (.natural location.column), some (.natural location.offset),
       some (.natural location.length)]) :=
  rfl

theorem Location.ofJson?_toJson {location : Location} (inWords : location.InWords) :
    Location.ofJson? location.toJson = some location := by
  rw [Location.ofJson?, Location.toJson_eq, Json.fields?_present (by decide) rfl]
  simp only [Option.bind_eq_bind, Option.bind_some, Json.required, Json.text?,
    Json.word?_natural inWords.line, Json.word?_natural inWords.column,
    Json.word?_natural inWords.offset, Json.word?_natural inWords.length]
  rfl

theorem Correction.toJson_eq (correction : Correction) :
    correction.toJson = .object (present ["location", "new_text"]
      [some correction.location.toJson, some (.string correction.newText)]) :=
  rfl

theorem Correction.ofJson?_toJson {correction : Correction}
    (inWords : correction.location.InWords) :
    Correction.ofJson? correction.toJson = some correction := by
  rw [Correction.ofJson?, Correction.toJson_eq, Json.fields?_present (by decide) rfl]
  simp only [Option.bind_eq_bind, Option.bind_some, Json.required, Json.text?,
    Location.ofJson?_toJson inWords]
  rfl

/-- The changes of a suggestion as data, left out if there are none. -/
def Suggestion.writtenCorrections (suggestion : Suggestion) : Option Json :=
  if suggestion.corrections.isEmpty then none
  else some (.array (suggestion.corrections.map Correction.toJson))

theorem Suggestion.toJson_eq (suggestion : Suggestion) :
    suggestion.toJson = .object (present ["message", "corrections"]
      [some (.string suggestion.message), suggestion.writtenCorrections]) := by
  rw [Suggestion.toJson, Suggestion.writtenCorrections]
  split <;> rfl

/-- Changes that are left out are none. -/
theorem Suggestion.corrections_read {suggestion : Suggestion}
    (inWords : ∀ correction ∈ suggestion.corrections, correction.location.InWords) :
    Json.withDefault [] (Json.listOf Correction.ofJson?) suggestion.writtenCorrections =
      some suggestion.corrections := by
  rw [Suggestion.writtenCorrections]
  split
  case isTrue none => rw [List.isEmpty_iff.mp none]; rfl
  case isFalse =>
    exact Json.listOf_map fun correction member =>
      Correction.ofJson?_toJson (inWords correction member)

theorem Suggestion.ofJson?_toJson {suggestion : Suggestion}
    (inWords : ∀ correction ∈ suggestion.corrections, correction.location.InWords) :
    Suggestion.ofJson? suggestion.toJson = some suggestion := by
  rw [Suggestion.ofJson?, Suggestion.toJson_eq, Json.fields?_present (by decide) rfl]
  simp only [Option.bind_eq_bind, Option.bind_some, Json.required, Json.text?,
    Suggestion.corrections_read inWords]
  rfl

theorem Severity.ofJson?_name (severity : Severity) :
    Severity.ofJson? (.string severity.name) = some severity := by
  cases severity <;> rfl

theorem FileErrorKind.ofJson?_key (kind : FileErrorKind) :
    FileErrorKind.ofJson? (.string kind.key) = some kind := by
  cases kind <;> rfl

theorem Offense.toJson_eq (offense : Offense) :
    offense.toJson = .object (present
      ["code", "rule", "severity", "location", "message", "suggestion", "corrected"]
      [some (.string offense.code), some (.string offense.rule),
       some (.string offense.severity.name), some offense.location.toJson,
       some (.string offense.message), offense.suggestion.map Suggestion.toJson,
       some (.boolean offense.corrected)]) := by
  rw [Offense.toJson]
  cases offense.suggestion <;> rfl

/-- An offense is read back, with or without a suggestion. -/
theorem Offense.ofJson?_toJson {offense : Offense} (place : offense.location.InWords)
    (changes : ∀ correction ∈ offense.corrections, correction.location.InWords) :
    Offense.ofJson? offense.toJson = some offense := by
  have suggestion : ∀ given ∈ offense.suggestion,
      Suggestion.ofJson? given.toJson = some given := by
    intro given present
    rw [Offense.corrections, present] at changes
    exact Suggestion.ofJson?_toJson changes
  rw [Offense.ofJson?, Offense.toJson_eq, Json.fields?_present (by decide) rfl]
  simp only [Option.bind_eq_bind, Option.bind_some, Json.required, Json.text?,
    Severity.ofJson?_name, Location.ofJson?_toJson place,
    Json.withDefault_nullable suggestion nofun]
  rfl

theorem FileError.toJson_eq (error : FileError) :
    error.toJson = .object (present ["file", "kind", "message", "line", "column"]
      [some (.string error.file), some (.string error.kind.key), some (.string error.message),
       error.line.map .natural, error.column.map .natural]) := by
  rw [FileError.toJson]
  cases error.line <;> cases error.column <;> rfl

/-- A failure of a file is read back, with or without a line and a column. -/
theorem FileError.ofJson?_toJson {error : FileError} (line : ∀ n ∈ error.line, n ≤ maxWord)
    (column : ∀ n ∈ error.column, n ≤ maxWord) :
    FileError.ofJson? error.toJson = some error := by
  have words {given : Option Nat} (small : ∀ n ∈ given, n ≤ maxWord) :
      Json.withDefault none (Json.nullable Json.word?) (given.map .natural) = some given :=
    Json.withDefault_nullable (fun n member => Json.word?_natural (small n member)) nofun
  rw [FileError.ofJson?, FileError.toJson_eq, Json.fields?_present (by decide) rfl]
  simp only [Option.bind_eq_bind, Option.bind_some, Json.required, Json.text?,
    FileErrorKind.ofJson?_key, words line, words column]
  rfl

theorem Report.toJson_eq (report : Report) :
    report.toJson = .object (present ["offenses", "errors", "files_checked", "files_corrected"]
      [some (.array (report.offenses.map Offense.toJson)),
       some (.array (report.errors.map FileError.toJson)), some (.natural report.filesChecked),
       some (.natural report.filesCorrected)]) :=
  rfl

/-! ### Nesting -/

variable {depth : Nat}

theorem Json.plain_map {α : Type} {write : α → Json} {list : List α}
    (each : ∀ a ∈ list, Plain depth (write a)) : Plain (depth + 1) (.array (list.map write)) :=
  .array (List.forall_mem_map.mpr each)

theorem Location.plain_toJson (location : Location) : Plain (depth + 1) location.toJson := by
  rw [Location.toJson_eq]
  refine Json.plain_present ?_
  simp only [List.forall_mem_cons, Option.mem_some, forall_eq']
  exact ⟨.string _, .integer _, .integer _, .integer _, .integer _, nofun⟩

theorem Correction.plain_toJson (correction : Correction) :
    Plain (depth + 2) correction.toJson := by
  rw [Correction.toJson_eq]
  refine Json.plain_present ?_
  simp only [List.forall_mem_cons, Option.mem_some, forall_eq']
  exact ⟨correction.location.plain_toJson, .string _, nofun⟩

theorem Suggestion.plain_toJson (suggestion : Suggestion) :
    Plain (depth + 4) suggestion.toJson := by
  rw [Suggestion.toJson_eq]
  refine Json.plain_present ?_
  simp only [List.forall_mem_cons, Option.mem_some, forall_eq']
  refine ⟨.string _, ?_, nofun⟩
  intro given written
  rw [Suggestion.writtenCorrections] at written
  split at written
  · cases written
  · obtain rfl := Option.some.inj written
    exact Json.plain_map fun correction _ => correction.plain_toJson

theorem Offense.plain_toJson (offense : Offense) : Plain (depth + 5) offense.toJson := by
  rw [Offense.toJson_eq]
  refine Json.plain_present ?_
  simp only [List.forall_mem_cons, Option.mem_some, forall_eq']
  refine ⟨.string _, .string _, .string _, offense.location.plain_toJson, .string _, ?_,
    .boolean _, nofun⟩
  intro given written
  obtain ⟨suggestion, -, rfl⟩ := Option.mem_map.mp written
  exact suggestion.plain_toJson

theorem FileError.plain_toJson (error : FileError) : Plain (depth + 1) error.toJson := by
  have number (given : Option Nat) : ∀ written ∈ given.map Json.natural, Plain depth written := by
    intro written some
    obtain ⟨n, -, rfl⟩ := Option.mem_map.mp some
    exact .integer n
  rw [FileError.toJson_eq]
  refine Json.plain_present ?_
  simp only [List.forall_mem_cons, Option.mem_some, forall_eq']
  exact ⟨.string _, .string _, .string _, number _, number _, nofun⟩

theorem Report.plain_toJson (report : Report) : Plain (depth + 7) report.toJson := by
  rw [Report.toJson_eq]
  refine Json.plain_present ?_
  simp only [List.forall_mem_cons, Option.mem_some, forall_eq']
  exact ⟨Json.plain_map fun offense _ => offense.plain_toJson,
    Json.plain_map fun error _ => error.plain_toJson, .integer _, .integer _, nofun⟩

/-! ### Reports -/

/-- Whether a value is an object with a field of this name. -/
def Json.has (name : String) : Json → Bool
  | .object fields => fields.any fun field => field.1 == name
  | _ => false

/-- A field that may be left out of the data of a report is left out exactly if it has no value. -/
structure Report.LeavesOut (report : Report) : Prop where
  suggestion : ∀ offense ∈ report.offenses,
    offense.toJson.has "suggestion" = offense.suggestion.isSome
  corrections : ∀ offense ∈ report.offenses, ∀ suggestion ∈ offense.suggestion,
    suggestion.toJson.has "corrections" = !suggestion.corrections.isEmpty
  line : ∀ error ∈ report.errors, error.toJson.has "line" = error.line.isSome
  column : ∀ error ∈ report.errors, error.toJson.has "column" = error.column.isSome

theorem Report.leavesOut (report : Report) : report.LeavesOut where
  suggestion := by
    intro offense _
    rw [Offense.toJson_eq]
    cases offense.suggestion <;> rfl
  corrections := by
    intro offense _ suggestion _
    rw [Suggestion.toJson_eq, Suggestion.writtenCorrections]
    cases suggestion.corrections <;> rfl
  line := by
    intro error _
    rw [FileError.toJson_eq]
    cases error.line <;> cases error.column <;> rfl
  column := by
    intro error _
    rw [FileError.toJson_eq]
    cases error.line <;> cases error.column <;> rfl

/-- The numbers of a report are machine words. -/
@[mk_iff]
structure Report.InWords (report : Report) : Prop where
  places : ∀ offense ∈ report.offenses, offense.location.InWords
  changes : ∀ offense ∈ report.offenses, ∀ correction ∈ offense.corrections,
    correction.location.InWords
  lines : ∀ error ∈ report.errors, ∀ line ∈ error.line, line ≤ maxWord
  columns : ∀ error ∈ report.errors, ∀ column ∈ error.column, column ≤ maxWord
  filesChecked : report.filesChecked ≤ maxWord
  filesCorrected : report.filesCorrected ≤ maxWord

instance (report : Report) : Decidable report.InWords :=
  decidable_of_iff' _ (Report.inWords_iff report)

theorem Report.ofJson?_toJson {report : Report} (inWords : report.InWords) :
    Report.ofJson? report.toJson = some report := by
  have offenses : Json.listOf Offense.ofJson? (.array (report.offenses.map Offense.toJson)) =
      some report.offenses :=
    Json.listOf_map fun offense member =>
      Offense.ofJson?_toJson (inWords.places offense member) (inWords.changes offense member)
  have errors : Json.listOf FileError.ofJson? (.array (report.errors.map FileError.toJson)) =
      some report.errors :=
    Json.listOf_map fun error member =>
      FileError.ofJson?_toJson (inWords.lines error member) (inWords.columns error member)
  rw [Report.ofJson?, Report.toJson_eq, Json.fields?_present (by decide) rfl]
  simp only [Option.bind_eq_bind, Option.bind_some, Json.required, Json.withDefault, offenses,
    errors, Json.word?_natural inWords.filesChecked, Json.word?_natural inWords.filesCorrected]
  rfl

theorem Report.ofText?_pretty {report : Report} {ending : String} (inWords : report.InWords)
    (blank : ∀ c ∈ ending.toList, Json.Scan.isGap c = true) :
    Report.ofText? (report.toJson.pretty ++ ending) = some report := by
  have plain : Plain Json.depthLimit report.toJson := report.plain_toJson
  rw [Report.ofText?, Json.read?_pretty plain blank]
  exact Report.ofJson?_toJson inWords

/-- **A report is read back** from its data, from their text and from what is printed, although what
has no value is left out. -/
theorem Report.ofText?_render (report : Report) (inWords : report.InWords) :
    Report.ofJson? report.toJson = some report ∧
      Report.ofText? report.toJson.pretty = some report ∧
      Report.ofText? (CommandLine.render .json report) = some report ∧ report.LeavesOut := by
  have bare : Report.ofText? (report.toJson.pretty ++ "") = some report :=
    Report.ofText?_pretty inWords nofun
  rw [String.append_empty] at bare
  exact ⟨Report.ofJson?_toJson inWords, bare,
    Report.ofText?_pretty inWords (List.all_eq_true.mp (by decide)), report.leavesOut⟩

/-- A report with every kind of field that may be left out, once written and once left out. -/
def Report.mixed : Report where
  offenses := [
    { code := "CL001", rule := "chefspec-legacy-runner", severity := .warning,
      location := ⟨"spec/a_spec.rb", 1, 1, 0, maxWord⟩, message := "say \"SoloRunner\"\n",
      suggestion := some ⟨"replace", [⟨⟨"spec/a_spec.rb", 1, 1, 0, 4⟩, "\t\\"⟩]⟩,
      corrected := true },
    { code := "CL002", rule := "by-hand", severity := .refactor, location := ⟨"é.rb", 2, 3, 4, 5⟩,
      message := "", suggestion := some ⟨"rewrite", []⟩ },
    { code := "CL003", rule := "bare", severity := .error, location := ⟨"b.rb", 0, 0, 0, 0⟩,
      message := "bad" }]
  errors := [
    ⟨"c.rb", .syntaxError, "no text", some 7, some maxWord⟩,
    ⟨"d.rb", .ruleEvaluation, "failed", none, none⟩]
  filesChecked := 5
  filesCorrected := 1

theorem Report.ofText?_render_mixed :
    Report.mixed.InWords ∧ Report.ofJson? Report.mixed.toJson = some Report.mixed ∧
      Report.ofText? Report.mixed.toJson.pretty = some Report.mixed ∧
      Report.ofText? (CommandLine.render .json Report.mixed) = some Report.mixed ∧
      Report.mixed.LeavesOut :=
  ⟨by decide, Report.ofText?_render Report.mixed (by decide)⟩

example : Report.ofText? "\x7b\"offenses\": [], \"files_checked\": 3\x7d" =
    some { filesChecked := 3 } := by
  decide

end RecipeLint
