/-
**The commands.**

What the commands do with the files that they see. Settings come from the file that is named, else
from a file of the project, else from a file of the user, else they are as usual; options of the
command come before them.

* `settingsSource` — the file that the settings come from.
* `checkFiles` — the command that checks files.
* `run` — what a command prints, the exit code, and the files after it.
-/

import RecipeLint.Analyzer
import RecipeLint.CommandLine.Help
import RecipeLint.CommandLine.Output
import RecipeLint.Ruby.Parse
import RecipeLint.UserIgnore

namespace RecipeLint.CommandLine

/-- What the commands see of the machine. -/
structure Host where
  /-- All files, from the root on. -/
  tree : FileTree
  /-- The directory that relative paths are below. -/
  directory : String
  /-- The directory of the settings of the user, if one is named. -/
  settingsDirectory : Option String := none
  /-- The directory of the user. -/
  home : Option String := none
  /-- The year on the clock. -/
  year : Int
  deriving Inhabited

/-- What a command does. -/
structure Outcome where
  /-- What is printed. -/
  output : String := ""
  /-- What is said about a failure. -/
  complaint : Option String := none
  /-- The exit code. -/
  exitCode : Nat := 0
  /-- The files after the command. -/
  tree : FileTree
  deriving Inhabited

/-- Why settings cannot be loaded. -/
inductive LoadError where
  /-- The file cannot be read. -/
  | unreadable (error : ReadError)
  /-- The file is no configuration. -/
  | malformed (error : SettingsError)
  deriving DecidableEq, Repr

/-- Why a command fails. -/
inductive CommandError where
  /-- The settings cannot be loaded from a file. -/
  | settings (path : String) (error : LoadError)
  /-- There is no set of rules with a name. -/
  | unknownPreset (unknown : UnknownPreset)
  /-- None of the rules that are asked for is known. -/
  | noKnownRules (names : String)
  /-- There is no analyzer. -/
  | build (error : AnalysisError)
  /-- The run ends without a report. -/
  | analysis (error : AnalysisError)
  /-- There is a configuration file already. -/
  | configExists (path : String)
  deriving DecidableEq, Repr

/-- A message followed by that of its cause. -/
def withCause (message : String) : Option String → String
  | some cause => message ++ ": " ++ cause
  | none => message

/-- What is said about a failure. -/
def CommandError.message : CommandError → String
  | .settings path (.unreadable error) =>
    "Failed to load config: " ++ path ++ ": Failed to read config file " ++ path ++ ": " ++
      error.message ++ ": " ++ error.message
  | .settings path (.malformed error) =>
    "Failed to load config: " ++ path ++ ": " ++ error.message
  | .unknownPreset unknown => unknown.message
  | .noKnownRules names => "No known rules in --rules '" ++ names ++ "'"
  | .build error => "Failed to build analyzer: " ++ withCause error.message error.cause?
  | .analysis error => "Analysis failed: " ++ withCause error.message error.cause?
  | .configExists path =>
    "Configuration file already exists at " ++ path ++ ". Use --force to overwrite."

namespace Host

/-- A path as an absolute one. -/
def absolute (host : Host) (path : String) : String :=
  Path.join host.directory path

/-- Whether a path stands for a file. -/
def hasFile (host : Host) (path : String) : Bool :=
  host.tree.hasFile (host.absolute path)

/-- Whether a path stands for a directory. -/
def hasDirectory (host : Host) (path : String) : Bool :=
  host.tree.hasDirectory (host.absolute path)

end Host

/-! ### Settings -/

/-- The names of the configuration file of a project, the first before the second. -/
def projectFiles : List String := ["cookbook-lint.toml", ".cookbook-lint.toml"]

/-- The configuration file of the user. -/
def userFile? (host : Host) : Option String :=
  let directory := host.settingsDirectory.or
    (host.home.map fun home => Path.join home ".cookbook-lint")
  directory.map fun directory => Path.join directory "config.toml"

/-- The directory where the configuration file of the project is looked for: the first path, or the
directory that holds it. -/
def projectDirectory (host : Host) (paths : List String) : String :=
  match paths.head? with
  | none => "."
  | some first =>
    if host.hasDirectory first then first
    else
      match Path.parent? first with
      | some parent => if parent.isEmpty then "." else parent
      | none => "."

/-- The file that the settings come from. -/
def settingsSource (host : Host) (explicit : Option String) (paths : List String) :
    Option String :=
  match explicit with
  | some path => some path
  | none =>
    let directory := projectDirectory host paths
    match (projectFiles.map (Path.join directory)).find? host.hasFile with
    | some path => some path
    | none => (userFile? host).filter host.hasFile

/-- The settings of a file. -/
def loadSettings (host : Host) (path : String) : Except CommandError Settings :=
  match host.tree.read (host.absolute path) with
  | .error error => .error (.settings path (.unreadable error))
  | .ok text => (Settings.read text).mapError fun error => .settings path (.malformed error)

/-- Settings with what the options of the command say before them. -/
def overridden (options : CheckOptions) (settings : Settings) : Settings :=
  { settings with
    preset := options.preset.or settings.preset
    failOn := options.failOn.or settings.failOn
    targetVersion := options.target.or settings.targetVersion
    year := options.year.or settings.year }

/-! ### Commands -/

/-- The rules that are named between commas. -/
def namedRules (settings : Settings) (names : String) : Except CommandError (List Rule) :=
  let wanted := (Text.splitAt ',' names.toList).map fun name => String.ofList (Text.trim name)
  let wanted := wanted.filter fun name => !name.isEmpty
  let selected := Rules.all.filter fun rule =>
    wanted.contains rule.name || wanted.contains rule.code
  if selected.isEmpty then .error (.noKnownRules names)
  else .ok (selected.map (Rules.withOptions settings))

/-- The rules of a run. -/
def selectedRules (options : CheckOptions) (settings : Settings) :
    Except CommandError (List Rule) :=
  match options.rules with
  | some names => namedRules settings names
  | none => (Rules.ofSettings settings).mapError .unknownPreset

/-- The plan of a run: a single directory is the root. -/
def planOf (host : Host) (options : CheckOptions) (settings : Settings) (rules : List Rule) :
    Plan :=
  let base : Plan :=
    { rules := rules, language := some Ruby.language, excluded := options.excluded
      settings := settings, autocorrect := options.autocorrect
      year := some (settings.year.getD host.year)
      userIgnore := (host.home.map (UserIgnore.find host.tree host.directory)).getD [] }
  match options.paths with
  | [only] =>
    if host.hasDirectory only then { base with root := some only }
    else { base with paths := [only] }
  | paths => { base with paths := paths }

/-- Checks files. -/
def checkFiles (host : Host) (config : Option String) (options : CheckOptions) :
    Except CommandError Outcome := do
  let loaded ← match settingsSource host config options.paths with
    | some path => loadSettings host path
    | none => pure {}
  let settings := overridden options loaded
  let rules ← selectedRules options settings
  let analyzer ← ((planOf host options settings rules).build host.directory).mapError .build
  let (report, tree) ← (analyzer.run host.tree).mapError .analysis
  return { output := render options.format report
           exitCode := report.exitCode settings.threshold
           tree := tree }

/-- The name of the configuration file of a new project. -/
def newFile : String := "cookbook-lint.toml"

/-- Writes the configuration file of a new project. -/
def initialise (host : Host) (force : Bool) : Except CommandError Outcome :=
  let path := host.absolute newFile
  if host.tree.has path && !force then .error (.configExists newFile)
  else .ok { output := nextSteps newFile, tree := host.tree.write path (.text template) }

/-- The line that tells the version of the program. -/
def versionLine : String := "cookbook-lint 0.3.0\n"

/-- What a command does, unless it fails. -/
def perform (host : Host) (invocation : Invocation) : Except CommandError Outcome :=
  match invocation.command with
  | .check options => checkFiles host invocation.config options
  | .listRules => .ok { output := ruleList, tree := host.tree }
  | .init force => initialise host force
  | .version => .ok { output := versionLine, tree := host.tree }
  | .help topic detailed => .ok { output := topic.text detailed, tree := host.tree }

/-- The exit code of a failure. -/
def failureCode : Nat := 2

/-- What a command does. -/
def run (host : Host) (invocation : Invocation) : Outcome :=
  match perform host invocation with
  | .ok outcome => outcome
  | .error error =>
    { complaint := some error.message, exitCode := failureCode, tree := host.tree }

end RecipeLint.CommandLine
