/-
**Severities.**

How bad an offense is, from a mere refactoring to an error, with the names in which severities are
written.
-/

namespace RecipeLint

/-- How bad an offense is. -/
inductive Severity where
  /-- Code that works and should be simplified. -/
  | refactor
  /-- A deprecated or risky construct. -/
  | warning
  /-- A construct that must be fixed. -/
  | error
  deriving DecidableEq, Repr, Inhabited

namespace Severity

/-- The name of a severity. -/
def name : Severity → String
  | .refactor => "refactor"
  | .warning => "warning"
  | .error => "error"

/-- The rank of a severity, the worst highest. -/
def rank : Severity → Nat
  | .refactor => 0
  | .warning => 1
  | .error => 2

/-- Whether a severity is at least as bad as a threshold. -/
def reaches (severity threshold : Severity) : Bool :=
  threshold.rank ≤ severity.rank

/-- The severity with exactly this name. -/
def ofName? (name : String) : Option Severity :=
  [.refactor, .warning, .error].find? fun severity : Severity => severity.name == name

/-- What is said about a name that is no severity. -/
def unknownMessage (name : String) : String :=
  "unknown severity '" ++ name ++ "' (expected refactor, warning or error)"

/-- The severity with this name, whose ASCII letters may be of either case; a name that is none is
returned in lower case. -/
def read (text : String) : Except String Severity :=
  let lower := String.ofList (text.toList.map Char.toLower)
  match ofName? lower with
  | some severity => .ok severity
  | none => .error lower

end Severity

end RecipeLint
