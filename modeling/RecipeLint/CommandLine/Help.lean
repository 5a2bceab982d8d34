/-
**Help.**

What the program says about itself: what it is for, how it is called, its commands and options.
The texts of options stand beside them if there is room, and below them otherwise. In detail, each
option stands apart, and the values that it takes are told one by one.

* `Topic.text` — what is said about a topic.
-/

import RecipeLint.CommandLine.Arguments

namespace RecipeLint.CommandLine

/-- Where the texts of options stand. -/
inductive HelpLayout where
  /-- Beside them. -/
  | beside
  /-- On the next line. -/
  | below
  /-- On the next lines, with empty lines between options. -/
  | apart
  deriving DecidableEq, Repr, Inhabited

/-- An option or an operand in a list. -/
structure HelpEntry where
  /-- How it is written. -/
  form : String
  /-- What it does. -/
  text : String
  /-- The value that it has if it is left out. -/
  default : Option String := none
  /-- The values that it takes, with what they mean. -/
  choices : List (String × String) := []
  deriving Repr, Inhabited

/-- A number of blanks. -/
def blanks (count : Nat) : String := String.ofList (List.replicate count ' ')

/-- A text with blanks after it up to a width. -/
def padTo (width : Nat) (text : String) : String := text ++ blanks (width - text.length)

namespace HelpEntry

/-- The blanks before a text on a line of its own. -/
def margin : String := blanks 10

/-- What is said beside the text of an entry: its usual value and the values that it takes. -/
def notes (entry : HelpEntry) : List String :=
  (entry.default.map fun value => "[default: " ++ value ++ "]").toList ++
    if entry.choices.isEmpty then []
    else ["[possible values: " ++ ", ".intercalate (entry.choices.map (·.1)) ++ "]"]

/-- The values that an entry takes, one by one. -/
def choiceLines (entry : HelpEntry) : String :=
  let width := (entry.choices.map fun choice => choice.1.length).foldl max 0
  let line := fun (choice : String × String) =>
    "\n" ++ margin ++ "- " ++ padTo (width + 2) (choice.1 ++ ": ") ++ choice.2
  if entry.choices.isEmpty then ""
  else "\n\n" ++ margin ++ "Possible values:" ++ String.join (entry.choices.map line)

/-- The lines of an entry in a list whose longest form has a width. -/
def lines (layout : HelpLayout) (width : Nat) (entry : HelpEntry) : String :=
  let brief := " ".intercalate (entry.text :: entry.notes)
  match layout with
  | .beside => "  " ++ padTo (width + 2) entry.form ++ brief
  | .below => "  " ++ entry.form ++ "\n" ++ margin ++ brief
  | .apart =>
    let usual := match entry.default with
      | some value => "\n" ++ margin ++ "\n" ++ margin ++ "[default: " ++ value ++ "]"
      | none => ""
    "  " ++ entry.form ++ "\n" ++ margin ++ entry.text ++ usual ++ entry.choiceLines

/-- A list of entries under a title. -/
def list (layout : HelpLayout) (title : String) (entries : List HelpEntry) : String :=
  let width := (entries.map fun entry => entry.form.length).foldl max 0
  let gap := if layout = .apart then "\n\n" else "\n"
  title ++ ":\n" ++ gap.intercalate (entries.map (lines layout width))

end HelpEntry

namespace OptionName

/-- The word for the value of an option: its long name in capital letters. -/
def valueWord (name : OptionName) : String :=
  String.ofList (name.long.toList.map fun c => if c = '-' then '_' else c.toUpper)

/-- How an option is written. -/
def form (name : OptionName) : String :=
  (match name.short? with
    | some letter => "-" ++ String.singleton letter ++ ", "
    | none => "    ") ++
    "--" ++ name.long ++ if name.takesValue then " <" ++ name.valueWord ++ ">" else ""

/-- What an option does. -/
def describe : OptionName → String
  | .verbose => "Enable verbose output"
  | .config => "Path to configuration file"
  | .help => "Print help"
  | .version => "Print version"
  | .format => "Output format"
  | .rules => "Only run specific rules (comma-separated names or codes)"
  | .exclude => "Exclude patterns (can be specified multiple times)"
  | .target => "Chef Infra Client version the cookbooks target (e.g. 14.3)"
  | .autocorrect => "Apply automatic corrections in place"
  | .failOn => "Lowest severity that makes the run fail"
  | .year => "Year used for copyright ranges (default: local clock)"
  | .preset => "Rule preset: recommended, all or deprecations"
  | .force => "Overwrite existing config"

/-- An option in a list. -/
def entry (name : OptionName) : HelpEntry :=
  match name with
  | .format =>
    { form := name.form, text := name.describe, default := some "text"
      choices :=
        [("text", "Human-readable text output"), ("json", "JSON output"),
         ("compact", "One-line-per-offense compact format")] }
  | _ => { form := name.form, text := name.describe }

end OptionName

/-- What a command does. -/
def CommandName.describe : CommandName → String
  | .check => "Run lint checks"
  | .listRules => "List available rules"
  | .init => "Initialize configuration file"

/-- What help does. -/
def helpText : String := "Print this message or the help of the given subcommand(s)"

/-- The paths after the command that checks files. -/
def pathsEntry : HelpEntry where
  form := "[PATHS]..."
  text := "Cookbook directories or files to analyze (default: current directory)"
  default := some "."

/-- The options of the command that checks files; where help is, it is told how to see more or
less. -/
def checkEntries (detailed : Bool) : List HelpEntry :=
  let help := if detailed then "Print help (see a summary with '-h')"
    else "Print help (see more with '--help')"
  ([.format, .verbose, .config, .rules, .exclude, .target, .autocorrect, .failOn, .year,
    .preset] : List OptionName).map OptionName.entry ++
    [{ form := OptionName.help.form, text := help }]

/-- The options of other commands. -/
def plainEntries (names : List OptionName) : List HelpEntry := names.map OptionName.entry

/-- The parts of a text with empty lines between them. -/
def paragraphs (parts : List String) : String := "\n\n".intercalate parts ++ "\n"

/-- What is said about a topic. -/
def Topic.text (detailed : Bool) : Topic → String
  | .program =>
    let commands := CommandName.all.map fun name =>
      (⟨name.word, name.describe, none, []⟩ : HelpEntry)
    paragraphs
      ["CLI tool for the cookbook-lint Chef cookbook linter",
       "Usage: cookbook-lint [OPTIONS] <COMMAND>",
       HelpEntry.list .beside "Commands" (commands ++ [⟨helpWord, helpText, none, []⟩]),
       HelpEntry.list .beside "Options" (plainEntries [.verbose, .config, .help, .version])]
  | .command .check =>
    paragraphs
      [CommandName.check.describe,
       "Usage: cookbook-lint check [OPTIONS] [PATHS]...",
       HelpEntry.list (if detailed then .apart else .beside) "Arguments" [pathsEntry],
       HelpEntry.list (if detailed then .apart else .below) "Options" (checkEntries detailed)]
  | .command .listRules =>
    paragraphs
      [CommandName.listRules.describe,
       "Usage: cookbook-lint list-rules [OPTIONS]",
       HelpEntry.list .beside "Options" (plainEntries [.verbose, .config, .help])]
  | .command .init =>
    paragraphs
      [CommandName.init.describe,
       "Usage: cookbook-lint init [OPTIONS]",
       HelpEntry.list .beside "Options" (plainEntries [.force, .verbose, .config, .help])]
  | .help =>
    paragraphs
      [helpText,
       "Usage: cookbook-lint help [COMMAND]...",
       HelpEntry.list .beside "Arguments"
        [⟨"[COMMAND]...", "Print help for the subcommand(s)", none, []⟩]]

end RecipeLint.CommandLine
