/-
**The analysis of many files.**

An analyzer is built from a plan, whose parts may be missing or wrong. It looks at one text at a
time: it parses the text, shows it to the rules, and, if it may correct, makes the changes that the
rules suggest until there are none left or a number of passes is over. A run looks at every file
that its search finds.

* `Plan.build` — the analyzer of a plan.
* `Analyzer.lint` — the outcome for one text.
* `Analyzer.correct` — the text after all passes.
* `Analyzer.run` — the report of a run, and the files after it.
-/

import RecipeLint.Discovery
import RecipeLint.Evaluation
import RecipeLint.Language
import RecipeLint.Patch
import RecipeLint.Report

namespace RecipeLint

/-! ### Plans -/

/-- Why there is no analyzer, or why a run ends without a report. -/
inductive AnalysisError where
  /-- There is no language. -/
  | missingLanguage
  /-- There is no year. -/
  | missingYear
  /-- Two rules share a name or a code. -/
  | duplicateRule (duplicate : DuplicateRule)
  /-- A text is no pattern of paths. -/
  | invalidGlob (error : GlobError)
  /-- A path stands for nothing. -/
  | pathNotFound (path : String)
  /-- A calculation with machine words has no result. -/
  | overflow (cause : Overflow)
  deriving DecidableEq, Repr

namespace AnalysisError

/-- What is said about an analysis that cannot go on. -/
def message : AnalysisError → String
  | .missingLanguage => "No source parser configured"
  | .missingYear =>
    "No current year configured; set it on the builder or as `current_year` in config"
  | .duplicateRule duplicate => duplicate.message
  | .invalidGlob error => "Invalid glob pattern: " ++ error.message
  | .pathNotFound path => "Path not found: " ++ path
  | .overflow cause => cause.message

/-- What is said about the cause of an error that has one of its own. -/
def cause? : AnalysisError → Option String
  | .invalidGlob error => some error.message
  | _ => none

end AnalysisError

/-- What an analyzer is built from. -/
structure Plan where
  /-- The root of the project. -/
  root : Option String := none
  /-- The paths of files and directories; the root if there are none. -/
  paths : List String := []
  /-- The rules. -/
  rules : List Rule := []
  /-- The language. -/
  language : Option Language := none
  /-- Patterns of files that are left out, beside those of the settings. -/
  excluded : List String := []
  /-- Patterns of files that are picked, beside those of the settings. -/
  included : List String := []
  /-- The settings. -/
  settings : Settings := {}
  /-- Whether changes are made. -/
  autocorrect : Bool := false
  /-- The version of the platform, before that of the settings. -/
  target : Option Version := none
  /-- The year, before that of the settings. -/
  year : Option Int := none
  /-- What the user ignores in every repository. -/
  userIgnore : IgnoreFile := []

/-- What analyses files. -/
structure Analyzer where
  /-- The language. -/
  language : Language
  /-- What decides which rules run. -/
  evaluator : Evaluator
  /-- The search for files. -/
  search : Search
  /-- The year that rules about dates go by. -/
  year : Int
  /-- Whether changes are made. -/
  autocorrect : Bool := false

/-- The patterns of several texts. -/
def readGlobs (texts : List String) : Except AnalysisError (List Glob) :=
  (texts.mapM Glob.read).mapError .invalidGlob

/-- The analyzer of a plan, where relative paths are below a directory. -/
def Plan.build (plan : Plan) (directory : String) : Except AnalysisError Analyzer := do
  let language ← match plan.language with
    | some language => pure language
    | none => throw .missingLanguage
  let year ← match plan.year.or plan.settings.year with
    | some year => pure year
    | none => throw .missingYear
  let registry ← (Registry.ofRules plan.rules).mapError .duplicateRule
  let root := Path.join directory (plan.root.getD plan.settings.search.root)
  let paths := if plan.paths.isEmpty then [root] else plan.paths.map (Path.join directory)
  let excluded ← readGlobs (plan.excluded ++ plan.settings.search.excluded)
  let included ← readGlobs (plan.included ++ plan.settings.search.included)
  return {
    language := language
    evaluator :=
      { registry := registry, settings := plan.settings
        target := plan.target.or plan.settings.targetVersion }
    search :=
      { root := root, paths := paths, excluded := excluded, included := included
        followsIgnoreFiles := plan.settings.search.followsIgnoreFiles
        directory := directory, userIgnore := plan.userIgnore
        extensions := language.extensions }
    year := year
    autocorrect := plan.autocorrect }

/-! ### One text -/

/-- The outcome for one text. -/
structure FileOutcome where
  /-- The path of the file. -/
  path : String
  /-- The offenses of the text as it was. -/
  offenses : List Offense := []
  /-- The failures. -/
  errors : List FileError := []
  /-- The text after all changes, if they changed it. -/
  corrected : Option String := none
  deriving DecidableEq, Repr, Inhabited

/-- Why changes are given up. -/
inductive CorrectionError where
  /-- They cannot be made together. -/
  | patch (error : PatchError)
  /-- The changed text is not of the language any more. -/
  | broken (error : SyntaxError)
  deriving DecidableEq, Repr, Inhabited

/-- What is said about changes that are given up. -/
def CorrectionError.message : CorrectionError → String
  | .patch error => error.message
  | .broken error => "corrected source no longer parses: " ++ error.message

/-- The changes that fix some offenses. -/
def corrections (offenses : List Offense) : List Correction :=
  offenses.flatMap Offense.corrections

namespace Analyzer

/-- The most passes of changes over one text. -/
def maxPasses : Nat := 10

/-- A text as a file under inspection. -/
def sourceFile (analyzer : Analyzer) (path text : String) : SourceFile :=
  .of path text analyzer.search.root analyzer.year

/-- Makes changes, and then those that the rules suggest for the changed text, for a number of
passes or until there are none. -/
def correct (analyzer : Analyzer) (path : String) :
    (passes : Nat) → String → List Correction → Except Overflow (Except CorrectionError String)
  | 0, text, _ => return .ok text
  | passes + 1, text, changes => do
    match ← Patch.apply text changes with
    | .error error => return .error (.patch error)
    | .ok changed =>
      match analyzer.language.parse changed with
      | .error error => return .error (.broken error)
      | .ok tree =>
        let evaluation ← analyzer.evaluator.evaluate (analyzer.sourceFile path changed) tree
        let next := corrections evaluation.offenses
        if next.isEmpty then return .ok changed
        analyzer.correct path passes changed next

/-- The outcome of correcting a text whose evaluation suggests changes. -/
def settle (path relativePath text : String) (evaluation : Evaluation) :
    Except CorrectionError String → FileOutcome
  | .ok changed =>
    { path := path
      offenses := evaluation.offenses.map fun offense =>
        { offense with corrected := offense.isCorrectable }
      errors := evaluation.failures.map RuleFailure.fileError
      corrected := if changed = text then none else some changed }
  | .error error =>
    { path := path
      offenses := evaluation.offenses
      errors := evaluation.failures.map RuleFailure.fileError ++
        [{ file := relativePath, kind := .correction, message := error.message }] }

/-- The outcome for one text. -/
def lint (analyzer : Analyzer) (path text : String) : Except Overflow FileOutcome := do
  let file := analyzer.sourceFile path text
  match analyzer.language.parse text with
  | .error error =>
    let (line, column) ← file.lineColumn error.offset
    return { path := path
             errors := [⟨file.relativePath, .syntaxError, error.message, some line, some column⟩] }
  | .ok tree =>
    let evaluation ← analyzer.evaluator.evaluate file tree
    let changes := corrections evaluation.offenses
    if analyzer.autocorrect && !changes.isEmpty then
      let corrected ← analyzer.correct path maxPasses text changes
      return settle path file.relativePath text evaluation corrected
    return { path := path
             offenses := evaluation.offenses
             errors := evaluation.failures.map RuleFailure.fileError }

/-! ### Many files -/

/-- The outcome for a file of a tree. -/
def lintFile (analyzer : Analyzer) (tree : FileTree) (path : String) :
    Except Overflow FileOutcome :=
  match tree.read path with
  | .error error =>
    .ok { path := path
          errors := [⟨analyzer.search.relative path, .io, error.message, none, none⟩] }
  | .ok text => analyzer.lint path text

/-- Whether an offense comes no later than another: by the path of the file, then by the place. -/
def offenseLe (first second : Offense) : Bool :=
  match Path.compare first.location.file second.location.file with
  | .lt => true
  | .gt => false
  | .eq => first.location.offset ≤ second.location.offset

/-- Whether a line comes no later than another; no line comes first. -/
def lineLe : Option Nat → Option Nat → Bool
  | none, _ => true
  | some _, none => false
  | some first, some second => first ≤ second

/-- Whether a failure comes no later than another: by the path of the file, then by the line. -/
def errorLe (first second : FileError) : Bool :=
  match Path.compare first.file second.file with
  | .lt => true
  | .gt => false
  | .eq => lineLe first.line second.line

/-- The report of the outcomes of several files. -/
def reportOf (outcomes : List FileOutcome) : Report where
  offenses := (outcomes.flatMap (·.offenses)).mergeSort offenseLe
  errors := (outcomes.flatMap (·.errors)).mergeSort errorLe
  filesChecked := outcomes.length
  filesCorrected := outcomes.countP (·.corrected.isSome)

/-- The files with the changed texts of several outcomes. -/
def writeBack (tree : FileTree) (outcomes : List FileOutcome) : FileTree :=
  outcomes.foldl
    (fun tree outcome => match outcome.corrected with
      | some text => tree.write outcome.path (.text text)
      | none => tree)
    tree

/-- The report of a run over the files of a tree, and the tree after it. -/
def run (analyzer : Analyzer) (tree : FileTree) : Except AnalysisError (Report × FileTree) := do
  let files ← (analyzer.search.discover tree).mapError fun missing => .pathNotFound missing.path
  let outcomes ← (files.mapM (analyzer.lintFile tree)).mapError .overflow
  return (reportOf outcomes, writeBack tree outcomes)

end Analyzer

end RecipeLint
