/-
**Reports as data.**

The JSON form of a report and of its parts, written and read. What has no value is left out in
writing; in reading, a field that may be left out gets its usual value, unknown fields are passed
over, and a record may also be an array of its fields.

* `Report.toJson`, `Report.ofJson?` — a report as data.
* `Report.ofText?` — the report that a text is.
-/

import RecipeLint.Json.Document
import RecipeLint.Report

namespace RecipeLint

/-! ### Writing -/

/-- A place as data. -/
def Location.toJson (location : Location) : Json :=
  .object
    [("file", .string location.file), ("line", .natural location.line),
     ("column", .natural location.column), ("offset", .natural location.offset),
     ("length", .natural location.length)]

/-- A change as data. -/
def Correction.toJson (correction : Correction) : Json :=
  .object [("location", correction.location.toJson), ("new_text", .string correction.newText)]

/-- A suggestion as data. -/
def Suggestion.toJson (suggestion : Suggestion) : Json :=
  .object
    (("message", .string suggestion.message) ::
      if suggestion.corrections.isEmpty then []
      else [("corrections", .array (suggestion.corrections.map Correction.toJson))])

/-- An offense as data. -/
def Offense.toJson (offense : Offense) : Json :=
  .object
    ([("code", .string offense.code), ("rule", .string offense.rule),
      ("severity", .string offense.severity.name), ("location", offense.location.toJson),
      ("message", .string offense.message)] ++
      Json.optionalField "suggestion" (offense.suggestion.map Suggestion.toJson) ++
      [("corrected", .boolean offense.corrected)])

/-- A failure of a file as data. -/
def FileError.toJson (error : FileError) : Json :=
  .object
    ([("file", .string error.file), ("kind", .string error.kind.key),
      ("message", .string error.message)] ++
      Json.optionalField "line" (error.line.map .natural) ++
      Json.optionalField "column" (error.column.map .natural))

/-- A report as data. -/
def Report.toJson (report : Report) : Json :=
  .object
    [("offenses", .array (report.offenses.map Offense.toJson)),
     ("errors", .array (report.errors.map FileError.toJson)),
     ("files_checked", .natural report.filesChecked),
     ("files_corrected", .natural report.filesCorrected)]

/-! ### Reading -/

/-- A field that may not be left out. -/
def Json.required {α : Type} (read : Json → Option α) : Option Json → Option α
  | none => none
  | some value => read value

/-- The list that an array of records is. -/
def Json.listOf {α : Type} (read : Json → Option α) (value : Json) : Option (List α) := do
  (← value.elements?).mapM read

/-- The place that a value is. -/
def Location.ofJson? (value : Json) : Option Location := do
  match ← value.fields? ["file", "line", "column", "offset", "length"] with
  | [file, line, column, offset, length] =>
    return {
      file := ← Json.required Json.text? file
      line := ← Json.required Json.word? line
      column := ← Json.required Json.word? column
      offset := ← Json.required Json.word? offset
      length := ← Json.required Json.word? length }
  | _ => none

/-- The change that a value is. -/
def Correction.ofJson? (value : Json) : Option Correction := do
  match ← value.fields? ["location", "new_text"] with
  | [location, newText] =>
    return {
      location := ← Json.required Location.ofJson? location
      newText := ← Json.required Json.text? newText }
  | _ => none

/-- The suggestion that a value is. -/
def Suggestion.ofJson? (value : Json) : Option Suggestion := do
  match ← value.fields? ["message", "corrections"] with
  | [message, corrections] =>
    return {
      message := ← Json.required Json.text? message
      corrections := ← Json.withDefault [] (Json.listOf Correction.ofJson?) corrections }
  | _ => none

/-- The severity that a value names. -/
def Severity.ofJson? (value : Json) : Option Severity := do
  Severity.ofName? (← value.choice?)

/-- The offense that a value is. -/
def Offense.ofJson? (value : Json) : Option Offense := do
  match ← value.fields?
      ["code", "rule", "severity", "location", "message", "suggestion", "corrected"] with
  | [code, rule, severity, location, message, suggestion, corrected] =>
    return {
      code := ← Json.required Json.text? code
      rule := ← Json.required Json.text? rule
      severity := ← Json.required Severity.ofJson? severity
      location := ← Json.required Location.ofJson? location
      message := ← Json.required Json.text? message
      suggestion := ← Json.withDefault none (Json.nullable Suggestion.ofJson?) suggestion
      corrected := ← Json.withDefault false Json.boolean? corrected }
  | _ => none

/-- The kind of failure that a value names. -/
def FileErrorKind.ofJson? (value : Json) : Option FileErrorKind := do
  FileErrorKind.ofKey? (← value.choice?)

/-- The failure of a file that a value is. -/
def FileError.ofJson? (value : Json) : Option FileError := do
  match ← value.fields? ["file", "kind", "message", "line", "column"] with
  | [file, kind, message, line, column] =>
    return {
      file := ← Json.required Json.text? file
      kind := ← Json.required FileErrorKind.ofJson? kind
      message := ← Json.required Json.text? message
      line := ← Json.withDefault none (Json.nullable Json.word?) line
      column := ← Json.withDefault none (Json.nullable Json.word?) column }
  | _ => none

/-- The report that a value is. -/
def Report.ofJson? (value : Json) : Option Report := do
  match ← value.fields? ["offenses", "errors", "files_checked", "files_corrected"] with
  | [offenses, errors, filesChecked, filesCorrected] =>
    return {
      offenses := ← Json.required (Json.listOf Offense.ofJson?) offenses
      errors := ← Json.withDefault [] (Json.listOf FileError.ofJson?) errors
      filesChecked := ← Json.required Json.word? filesChecked
      filesCorrected := ← Json.withDefault 0 Json.word? filesCorrected }
  | _ => none

/-- The report that a text is. -/
def Report.ofText? (text : String) : Option Report := do
  Report.ofJson? (← Json.read? text)

end RecipeLint
