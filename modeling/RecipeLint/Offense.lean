/-
**Offenses.**

What a rule reports: a place, a message, and perhaps a suggestion with changes of the text. The
lines in which offenses and failures of files are shown are defined here as well.

* `Correction.range` — the range that a change replaces; it adds machine words and may have no
  value.
* `Offense.line`, `Offense.paragraph` — the two ways an offense is shown.
-/

import RecipeLint.Severity
import RecipeLint.Span

namespace RecipeLint

/-- A place in a file. -/
structure Location where
  /-- The path of the file below the root of the project. -/
  file : String
  /-- The line, from one. -/
  line : Nat
  /-- The column in characters, from one. -/
  column : Nat
  /-- The position of the first byte. -/
  offset : Nat
  /-- The number of bytes. -/
  length : Nat
  deriving DecidableEq, Repr, Inhabited

/-- The position after the last byte of a place. -/
def Location.stop (location : Location) : Except Overflow Nat :=
  addWords location.offset location.length

/-- A change of a text: a range is replaced by a new text. -/
structure Correction where
  /-- The place that is replaced. -/
  location : Location
  /-- What it is replaced by. -/
  newText : String
  deriving DecidableEq, Repr, Inhabited

namespace Correction

/-- The change that deletes a place. -/
def remove (location : Location) : Correction := ⟨location, ""⟩

/-- The change that puts a text at the start of a place. -/
def insert (location : Location) (text : String) : Correction :=
  ⟨{ location with length := 0 }, text⟩

/-- The range of bytes that a change replaces. -/
def range (correction : Correction) : Except Overflow Span := do
  return ⟨correction.location.offset, ← correction.location.stop⟩

end Correction

/-- How an offense could be fixed. -/
structure Suggestion where
  /-- The fix in words. -/
  message : String
  /-- The changes that make the fix; none if it has to be made by hand. -/
  corrections : List Correction := []
  deriving DecidableEq, Repr, Inhabited

/-- A violation of a rule. -/
structure Offense where
  /-- The code of the rule. -/
  code : String
  /-- The name of the rule. -/
  rule : String
  /-- How bad it is. -/
  severity : Severity
  /-- Where it is. -/
  location : Location
  /-- What it is. -/
  message : String
  /-- How it could be fixed. -/
  suggestion : Option Suggestion := none
  /-- Whether it has been fixed. -/
  corrected : Bool := false
  deriving DecidableEq, Repr, Inhabited

namespace Offense

/-- The changes that fix an offense. -/
def corrections (offense : Offense) : List Correction :=
  match offense.suggestion with
  | some suggestion => suggestion.corrections
  | none => []

/-- Whether an offense can be fixed by changes. -/
def isCorrectable (offense : Offense) : Bool :=
  !offense.corrections.isEmpty

/-- The file, line and column of an offense. -/
def place (offense : Offense) : String :=
  offense.location.file ++ ":" ++ toString offense.location.line ++ ":" ++
    toString offense.location.column

/-- What marks a fixed offense. -/
def correctedMark (offense : Offense) : String :=
  if offense.corrected then " [corrected]" else ""

/-- An offense on one line. -/
def line (offense : Offense) : String :=
  offense.place ++ ": " ++ offense.severity.name ++ " [" ++ offense.code ++ "] " ++
    offense.message ++ offense.correctedMark

/-- An offense in a paragraph, with the suggestion on a line of its own. -/
def paragraph (offense : Offense) : String :=
  offense.code ++ " " ++ offense.rule ++ " at " ++ offense.place ++ "\n" ++
    "  " ++ offense.severity.name ++ ": " ++ offense.message ++ offense.correctedMark ++ "\n" ++
    match offense.suggestion with
    | some suggestion => "  = help: " ++ suggestion.message ++ "\n"
    | none => ""

end Offense

/-! ### Failures of files -/

/-- What can go wrong with a file. -/
inductive FileErrorKind where
  /-- It is no text of the language. -/
  | syntaxError
  /-- It cannot be read or written. -/
  | io
  /-- A rule failed on a node. -/
  | ruleEvaluation
  /-- The changes that fix its offenses cannot be made. -/
  | correction
  deriving DecidableEq, Repr, Inhabited

namespace FileErrorKind

/-- The kind as it is shown to people. -/
def title : FileErrorKind → String
  | .syntaxError => "syntax error"
  | .io => "io error"
  | .ruleEvaluation => "rule error"
  | .correction => "autocorrect error"

/-- The kind as it is written in data. -/
def key : FileErrorKind → String
  | .syntaxError => "syntax"
  | .io => "io"
  | .ruleEvaluation => "rule-evaluation"
  | .correction => "correction"

/-- The kind that is written as a key. -/
def ofKey? (key : String) : Option FileErrorKind :=
  [.syntaxError, .io, .ruleEvaluation, .correction].find? fun kind : FileErrorKind =>
    kind.key == key

end FileErrorKind

/-- A failure that concerns one file. -/
structure FileError where
  /-- The path of the file. -/
  file : String
  /-- What went wrong. -/
  kind : FileErrorKind
  /-- What went wrong in words. -/
  message : String
  /-- The line of the failure. -/
  line : Option Nat := none
  /-- The column of the failure. -/
  column : Option Nat := none
  deriving DecidableEq, Repr, Inhabited

/-- A failure on one line, with its place if that is known. -/
def FileError.text (error : FileError) : String :=
  let place := match error.line, error.column with
    | some line, some column => ":" ++ toString line ++ ":" ++ toString column
    | _, _ => ""
  error.file ++ place ++ ": " ++ error.kind.title ++ ": " ++ error.message

end RecipeLint
