/-
**Settings.**

What a configuration file says: the preset, the severity that fails a run, the version of the
platform, the year, which files are looked at, and what holds for single rules. Every value has to
be of its kind; keys that mean nothing are passed over, and inside the table of a rule they are
the options of the rule.

* `Settings.read` — the settings of a document.
* `Settings.rule?` — what is said about a rule, by its name or else by its code.
* `Settings.toJson` — the settings as data.
-/

import RecipeLint.Json
import RecipeLint.Severity
import RecipeLint.Toml.Document
import RecipeLint.Version

namespace RecipeLint

/-- What is said about a rule. -/
structure RuleSettings where
  /-- Whether the rule runs. -/
  enabled : Option Bool := none
  /-- How bad its offenses are. -/
  severity : Option Severity := none
  /-- All that only the rule itself understands. -/
  options : List (String × Toml.Value) := []
  deriving Repr, Inhabited

/-- What is said about the search for files. -/
structure SearchSettings where
  /-- The root of the project. -/
  root : String := "."
  /-- The patterns of files that are left out. -/
  excluded : List String := ["**/vendor/**", "**/.kitchen/**"]
  /-- The patterns of files that are looked at; all files if there are none. -/
  included : List String := []
  /-- Whether files that say what to ignore are followed. -/
  followsIgnoreFiles : Bool := true
  /-- How many files are looked at at once. -/
  parallelism : Option Nat := none
  deriving DecidableEq, Repr, Inhabited

/-- What a configuration file says. -/
structure Settings where
  /-- The name of the set of rules. -/
  preset : Option String := none
  /-- The severity from which on an offense fails a run. -/
  failOn : Option Severity := none
  /-- The version of the platform that the cookbooks are for. -/
  targetVersion : Option Version := none
  /-- The year that rules about dates go by. -/
  year : Option Int := none
  /-- The search for files. -/
  search : SearchSettings := {}
  /-- What is said about rules, by name or code. -/
  rules : List (String × RuleSettings) := []
  deriving Repr, Inhabited

/-- A document that is no configuration. -/
inductive SettingsError where
  /-- The document is not well formed, or a value is not of its kind. -/
  | malformed
  deriving DecidableEq, Repr, Inhabited

/-- What is said about a document that is no configuration. -/
def SettingsError.message : SettingsError → String
  | .malformed => "Failed to parse config:"

namespace RuleSettings

/-- The strings of an option that is an array; its other elements are passed over. -/
def texts? (settings : RuleSettings) (key : String) : Option (List String) := do
  return (← (← Toml.Value.get? settings.options key).elements?).filterMap Toml.Value.text?

end RuleSettings

namespace Settings

/-! ### Questions -/

/-- What is said about a rule, by its name or else by its code. -/
def rule? (settings : Settings) (name code : String) : Option RuleSettings :=
  let find := fun key : String => (settings.rules.find? fun entry => entry.1 == key).map (·.2)
  (find name).or (find code)

/-- Whether a rule runs. -/
def isEnabled (settings : Settings) (name code : String) : Bool :=
  ((settings.rule? name code).bind (·.enabled)).getD true

/-- The severity that replaces that of a rule. -/
def severity? (settings : Settings) (name code : String) : Option Severity :=
  (settings.rule? name code).bind (·.severity)

/-- The severity from which on an offense fails a run. -/
def threshold (settings : Settings) : Severity :=
  settings.failOn.getD .refactor

/-! ### Reading -/

/-- The largest and the least year. -/
def isYear (value : Int) : Bool := -2147483648 ≤ value && value ≤ 2147483647

/-- Whether a value is a table or an array with nothing in it. -/
def isHollow : Toml.Value → Bool
  | .table _ entries => entries.isEmpty
  | .array elements => elements.isEmpty
  | _ => false

/-- The severity that a value names: by its name, or by a table with the name as its first key and
nothing as its value. In braces there may be no other key. -/
def severityOf? : Toml.Value → Option Severity
  | .string name => Severity.ofName? name
  | .table braced ((name, value) :: others) =>
    if isHollow value && (!braced || others.isEmpty) then Severity.ofName? name else none
  | _ => none

/-- The version that a value gives: a text, a whole number, or a number with a fraction as it is
written with the fewest digits. -/
def versionOf? : Toml.Value → Option Version
  | .string text => (Version.read text).toOption
  | .integer value =>
    if 0 ≤ value ∧ value ≤ maxVersionNumber then some (.ofMajor value.toNat) else none
  | .real (.finite false value) => (Version.read value.shortest.positional).toOption
  | _ => none

/-- The year that a value gives. -/
def yearOf? (value : Toml.Value) : Option Int := do
  let year ← value.integer?
  if isYear year then some year else none

/-- The number of files that a value gives. -/
def countOf? (value : Toml.Value) : Option Nat := do
  let count ← value.integer?
  if 0 ≤ count then some count.toNat else none

/-- The value of a key, which may be left out. -/
def optional {α : Type} (read : Toml.Value → Option α) : Option Toml.Value → Option (Option α)
  | none => some none
  | some value => (read value).map some

/-- The value of a key with a value if it is left out. -/
def withDefault {α : Type} (default : α) (read : Toml.Value → Option α) :
    Option Toml.Value → Option α
  | none => some default
  | some value => read value

/-- The search settings of the values of their keys, in the order of the keys. -/
def searchOf? (root excluded included follows parallelism : Option Toml.Value) :
    Option SearchSettings := do
  let default : SearchSettings := {}
  return {
    root := ← withDefault default.root Toml.Value.text? root
    excluded := ← withDefault default.excluded Toml.Value.texts? excluded
    included := ← withDefault default.included Toml.Value.texts? included
    followsIgnoreFiles := ← withDefault default.followsIgnoreFiles Toml.Value.boolean? follows
    parallelism := ← optional countOf? parallelism }

/-- The search settings of a table, or of an array of the values of the keys in their order. -/
def searchSettings? (value : Toml.Value) : Option SearchSettings :=
  match value with
  | .array elements =>
    searchOf? elements[0]? elements[1]? elements[2]? elements[3]? elements[4]?
  | _ => do
    let get := Toml.Value.get? (← value.entries?)
    searchOf? (get "root") (get "exclude") (get "include") (get "respect_gitignore")
      (get "parallelism")

mutual

/-- The value of an option. A table whose first key is the one of moments is a moment: it has no
other key, and a text of a moment as its value. -/
def option? : Toml.Value → Option Toml.Value
  | .array elements => (optionList? elements).map .array
  | .table braced entries =>
    if (entries.head?.map Prod.fst) = some Toml.Value.momentKey then
      match entries with
      | [(_, .string text)] => (Toml.Moment.ofText? text).map .moment
      | _ => none
    else (optionEntries? entries).map (.table braced)
  | value => some value

/-- The values of the elements of an option. -/
def optionList? : List Toml.Value → Option (List Toml.Value)
  | [] => some []
  | element :: elements => do return (← option? element) :: (← optionList? elements)

/-- The values of the entries of an option. -/
def optionEntries? : List (String × Toml.Value) → Option (List (String × Toml.Value))
  | [] => some []
  | (key, value) :: entries => do return (key, ← option? value) :: (← optionEntries? entries)

end

/-- What a table says about a rule. -/
def ruleSettings? (value : Toml.Value) : Option RuleSettings := do
  let entries ← value.entries?
  return {
    enabled := ← optional Toml.Value.boolean? (Toml.Value.get? entries "enabled")
    severity := ← optional severityOf? (Toml.Value.get? entries "severity")
    options := ← optionEntries?
      (entries.filter fun entry => entry.1 ≠ "enabled" ∧ entry.1 ≠ "severity") }

/-- What a table says about rules. -/
def rulesOf? (value : Toml.Value) : Option (List (String × RuleSettings)) := do
  (← value.entries?).mapM fun (key, value) => do return (key, ← ruleSettings? value)

/-- The settings of the entries of a document. -/
def ofEntries? (entries : List (String × Toml.Value)) : Option Settings := do
  let get := Toml.Value.get? entries
  return {
    preset := ← optional Toml.Value.text? (get "preset")
    failOn := ← optional severityOf? (get "fail_on")
    targetVersion := ← optional versionOf? (get "target_version")
    year := ← optional yearOf? (get "current_year")
    search := ← withDefault {} searchSettings? (get "analyzer")
    rules := ← withDefault [] rulesOf? (get "rules") }

/-- The settings of a document. -/
def read (text : String) : Except SettingsError Settings :=
  match (Toml.read? text).bind ofEntries? with
  | some settings => .ok settings
  | none => .error .malformed

/-! ### Data -/

mutual

/-- A value of a document as data; a number that is none is null. -/
def valueJson : Toml.Value → Json
  | .string text => .string text
  | .integer value => .integer value
  | .real (.finite negative value) => .real negative value.shortest
  | .real _ => .null
  | .boolean value => .boolean value
  | .moment moment => .object [(Toml.Value.momentKey, .string moment.text)]
  | .array elements => .array (elementsJson elements)
  | .table _ entries => .object (entriesJson entries)

/-- The elements of an array as data. -/
def elementsJson : List Toml.Value → List Json
  | [] => []
  | element :: elements => valueJson element :: elementsJson elements

/-- The entries of a table as data. -/
def entriesJson : List (String × Toml.Value) → List (String × Json)
  | [] => []
  | (key, value) :: entries => (key, valueJson value) :: entriesJson entries

end

/-- A severity as data. -/
def severityJson (severity : Severity) : Json := .string severity.name

/-- What is said about a rule as data. -/
def ruleJson (settings : RuleSettings) : Json :=
  .object
    ([("enabled", Json.orNull (settings.enabled.map .boolean)),
      ("severity", Json.orNull (settings.severity.map severityJson))] ++
      entriesJson settings.options)

/-- The search settings as data. -/
def searchJson (search : SearchSettings) : Json :=
  .object
    [("root", .string search.root),
     ("exclude", .array (search.excluded.map .string)),
     ("include", .array (search.included.map .string)),
     ("respect_gitignore", .boolean search.followsIgnoreFiles),
     ("parallelism", Json.orNull (search.parallelism.map .natural))]

/-- The settings as data. -/
def toJson (settings : Settings) : Json :=
  .object
    (Json.optionalField "preset" (settings.preset.map .string) ++
      Json.optionalField "fail_on" (settings.failOn.map severityJson) ++
      Json.optionalField "target_version"
        (settings.targetVersion.map fun version => .string version.text) ++
      Json.optionalField "current_year" (settings.year.map .integer) ++
      [("analyzer", searchJson settings.search),
       ("rules", .object (settings.rules.map fun (key, rule) => (key, ruleJson rule)))])

end Settings

end RecipeLint
