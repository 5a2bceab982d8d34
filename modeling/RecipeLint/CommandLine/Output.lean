/-
**Printed reports.**

The forms in which the command prints a report, the list of the rules, and the configuration file
that it writes for a new project.

* `render` — a report in one of its forms.
* `ruleList` — the list of the rules.
* `template` — the configuration file of a new project.
-/

import RecipeLint.CommandLine.Arguments
import RecipeLint.Report.Data
import RecipeLint.Rules.Preset

namespace RecipeLint.CommandLine

/-! ### Reports -/

/-- The colours of a terminal. -/
inductive Colour where
  | red | yellow | blue | green
  deriving DecidableEq, Repr, Inhabited

/-- What switches a terminal to a colour. -/
def Colour.start : Colour → String
  | .red => "\x1b[31m"
  | .yellow => "\x1b[33m"
  | .blue => "\x1b[34m"
  | .green => "\x1b[32m"

/-- A text in a colour. -/
def Colour.paint (colour : Colour) (text : String) : String :=
  colour.start ++ text ++ "\x1b[0m"

/-- The colour of a severity. -/
def severityColour : Severity → Colour
  | .error => .red
  | .warning => .yellow
  | .refactor => .blue

/-- An offense for a terminal. -/
def offenseText (offense : Offense) : String :=
  offense.code ++ " " ++ offense.rule ++ " at " ++ offense.place ++ "\n" ++
    "  " ++ (severityColour offense.severity).paint offense.severity.name ++ ": " ++
    offense.message ++
    (if offense.corrected then " " ++ Colour.green.paint "[corrected]" else "") ++
    "\n" ++
    (match offense.suggestion with
      | some suggestion => "  = help: " ++ suggestion.message ++ "\n"
      | none => "") ++
    "\n"

/-- The colour of the summary of a report: that of the worst it tells. -/
def summaryColour (report : Report) : Colour :=
  let counts := report.counts
  if 0 < counts.errors || !report.errors.isEmpty then .red
  else if 0 < counts.warnings then .yellow
  else if 0 < counts.refactors then .blue
  else .green

/-- A report for a terminal. -/
def terminalText (report : Report) : String :=
  String.join (report.offenses.map offenseText) ++
    String.join (report.errors.map fun error => Colour.red.paint error.text ++ "\n") ++
    (if report.errors.isEmpty then "" else "\n") ++
    (summaryColour report).paint report.summary ++ "\n"

/-- A report with one line for each offense and each failure. -/
def compactText (report : Report) : String :=
  String.join (report.offenses.map fun offense => offense.line ++ "\n") ++
    String.join (report.errors.map fun error => error.text ++ "\n")

/-- A report in one of its forms. -/
def render (format : Format) (report : Report) : String :=
  match format with
  | .text => terminalText report
  | .json => report.toJson.pretty ++ "\n"
  | .compact => compactText report

/-! ### The list of the rules -/

/-- A text filled up with blanks. -/
def padded (width : Nat) (text : String) : String :=
  text ++ String.ofList (List.replicate (width - text.length) ' ')

/-- A line of the table of rules. -/
def tableLine (code name category severity minimum fix description : String) : String :=
  padded 7 code ++ " " ++ padded 29 name ++ " " ++ padded 13 category ++ " " ++
    padded 9 severity ++ " " ++ padded 5 minimum ++ " " ++ padded 4 fix ++ " " ++
    description ++ "\n"

/-- The line of a rule. -/
def ruleLine (rule : Rule) : String :=
  tableLine rule.code rule.name rule.category.name rule.severity.name
    (match rule.minimumVersion with
      | some version => version.text
      | none => "-")
    (if rule.fixes then "yes" else "-") rule.description

/-- The line of a set of rules. -/
def presetLine (preset : Preset) : String :=
  "  " ++ padded 13 preset.name ++ " - " ++ ", ".intercalate (preset.rules.map (·.code)) ++
    (if preset = .recommended then " (default)" else "") ++ "\n"

/-- The list of the rules and of the sets of rules. -/
def ruleList : String :=
  "Available rules:\n\n" ++
    tableLine "Code" "Name" "Category" "Severity" "Min" "Fix" "Description" ++
    String.ofList (List.replicate 100 '-') ++ "\n" ++
    String.join (Rules.all.map ruleLine) ++
    "\nPresets:\n" ++ String.join (Preset.every.map presetLine) ++
    "\nUse --rules to filter specific rules, e.g.:\n" ++
    "  cookbook-lint check --rules provides-metadata,depends-on-poise\n" ++
    "  cookbook-lint check --rules CL001,CL003 --target-version 15.0\n"

/-! ### New projects -/

/-- The configuration file of a new project. -/
def template : String :=
  "# cookbook-lint configuration

# Rule preset: \"recommended\" (default), \"all\" or \"deprecations\"
preset = \"recommended\"

# Lowest severity that fails the run: \"refactor\", \"warning\" or \"error\"
# fail_on = \"warning\"

# Chef Infra Client version the cookbooks target. Rules for newer
# releases are skipped when set.
# target_version = \"15.0\"

# Year used for copyright ranges (default: current year)
# current_year = 2024

[analyzer]
# Root directory to analyze (default: current directory)
# root = \"./cookbooks\"

# Glob patterns to exclude from analysis
exclude = [
    \"**/vendor/**\",
    \"**/.kitchen/**\",
]

# Respect .gitignore files
respect_gitignore = true

# Worker threads (default: one per CPU)
# parallelism = 4

# Rule configurations
# Each rule can be enabled/disabled and have its severity overridden

[rules.depends-on-poise]
enabled = true
# severity = \"error\"
cookbooks = [\"poise\", \"poise-service\"]

[rules.copyright-comment-format]
enabled = true

# [rules.chef-vault-used]
# enabled = false
"

/-- What is printed after the configuration file is written. -/
def nextSteps (file : String) : String :=
  "Created " ++ file ++ "\n\nNext steps:\n  1. Edit " ++ file ++
    " to configure rules\n  2. Run: cookbook-lint check\n"

end RecipeLint.CommandLine
