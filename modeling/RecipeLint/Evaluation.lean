/-
**Evaluation of a file.**

Every node of the tree of a file is shown to the active rules that look at its kind, a node before
its children. Offenses that a directive allows are dropped; a rule that insists on a reason warns
if the directive gives none. A rule that fails on a node is noted and the rest goes on.

* `Evaluator.activeRules` — the rules that run on a file.
* `Visit.all` — the nodes of a tree with the nodes around each.
* `Evaluator.evaluate` — the offenses in the order of their places, and the failures. It has no
  value only where the place of a failure has none.
-/

import RecipeLint.Directive
import RecipeLint.Registry
import RecipeLint.Settings

namespace RecipeLint

/-- A failure of a rule on a node. -/
structure RuleFailure where
  /-- The name of the rule. -/
  rule : String
  /-- The place of the node. -/
  location : Location
  /-- What happened. -/
  message : String
  deriving DecidableEq, Repr, Inhabited

namespace RuleFailure

/-- A failure on one line. -/
def text (failure : RuleFailure) : String :=
  "rule '" ++ failure.rule ++ "' failed at " ++ failure.location.file ++ ":" ++
    toString failure.location.line ++ ":" ++ toString failure.location.column ++ ": " ++
    failure.message

/-- A failure as a failure of the file. -/
def fileError (failure : RuleFailure) : FileError where
  file := failure.location.file
  kind := .ruleEvaluation
  message := "rule '" ++ failure.rule ++ "' failed: " ++ failure.message
  line := some failure.location.line
  column := some failure.location.column

end RuleFailure

/-- What is said about a look that broke off. -/
def crashText : Option String → String
  | some message => "panicked: " ++ message
  | none => "panicked"

/-- The outcome of an evaluation. -/
structure Evaluation where
  /-- The offenses. -/
  offenses : List Offense := []
  /-- The failures of rules on nodes. -/
  failures : List RuleFailure := []
  deriving DecidableEq, Repr, Inhabited

/-- One outcome after another. -/
def Evaluation.append (first second : Evaluation) : Evaluation :=
  ⟨first.offenses ++ second.offenses, first.failures ++ second.failures⟩

/-! ### Nodes with the nodes around them -/

/-- A node and the nodes around it, the outermost first. -/
structure Visit where
  /-- The node. -/
  node : Node
  /-- The nodes around it. -/
  ancestors : List Node
  deriving Inhabited

namespace Visit

mutual

/-- The nodes of a tree below some nodes, a node before its children. -/
def below (ancestors : List Node) : Node → List Visit
  | ⟨kind, span, children⟩ =>
    ⟨⟨kind, span, children⟩, ancestors⟩ ::
      belowAll (ancestors ++ [⟨kind, span, children⟩]) children

/-- The nodes of several trees below some nodes, one tree after the other. -/
def belowAll (ancestors : List Node) : List Node → List Visit
  | [] => []
  | node :: nodes => below ancestors node ++ belowAll ancestors nodes

end

/-- The nodes of a tree, a node before its children. -/
def all (root : Node) : List Visit := below [] root

end Visit

/-! ### Evaluators -/

/-- What decides which rules run and how bad their offenses are. -/
structure Evaluator where
  /-- The rules. -/
  registry : Registry
  /-- The settings. -/
  settings : Settings := {}
  /-- The version of the platform that the cookbooks are for. -/
  target : Option Version := none
  deriving Inhabited

namespace Evaluator

/-- Whether a rule runs on a file. -/
def isActive (evaluator : Evaluator) (file : SourceFile) (rule : Rule) : Bool :=
  evaluator.settings.isEnabled rule.name rule.code &&
    isEligible rule.minimumVersion evaluator.target && rule.appliesTo file

/-- The rules that run on a file, in the order in which they were added. -/
def activeRules (evaluator : Evaluator) (file : SourceFile) : List Rule :=
  evaluator.registry.rules.filter (evaluator.isActive file)

/-- The warning in place of an offense that is allowed without the reason that its rule insists
on. -/
def missingReason (rule : Rule) (location : Location) : Offense where
  code := rule.code
  rule := rule.name
  severity := .warning
  location := location
  message := "Allow directive for '" ++ rule.name ++ "' is missing required reason"
  suggestion := some ⟨"Add reason=\"...\" to explain why this exception is necessary", []⟩

/-- What becomes of an offense that a rule found. -/
def settle (evaluator : Evaluator) (directives : Directives) (rule : Rule) (offense : Offense) :
    List Offense :=
  match directives.check offense.location.line rule.name rule.code with
  | .allowed reason =>
    if rule.requiresReason && reason.isNone then [missingReason rule offense.location] else []
  | .denied =>
    match evaluator.settings.severity? rule.name rule.code with
    | some severity => [{ offense with severity := severity }]
    | none => [offense]

/-- The failure of a rule on a node. -/
def fail (file : SourceFile) (rule : Rule) (node : Node) (message : String) :
    Except Overflow Evaluation := do
  return { failures := [⟨rule.name, ← file.location node.span, message⟩] }

/-- Shows a node to a rule. -/
def look (evaluator : Evaluator) (file : SourceFile) (directives : Directives) (visit : Visit)
    (rule : Rule) : Except Overflow Evaluation :=
  match rule.check ⟨file, visit.ancestors⟩ visit.node with
  | .offenses found => .ok { offenses := found.flatMap (evaluator.settle directives rule) }
  | .refused reason => fail file rule visit.node reason
  | .crashed message => fail file rule visit.node (crashText message)

/-- The rules that a node is shown to: those that look at its kind and have the name of an active
rule. -/
def rulesAt (evaluator : Evaluator) (active : List String) (node : Node) : List Rule :=
  (evaluator.registry.rulesFor node.tag).filter fun rule => active.contains rule.name

/-- The outcomes of several steps, one after the other; the first step without value ends them. -/
def collect {α : Type} (step : α → Except Overflow Evaluation) :
    List α → Except Overflow Evaluation
  | [] => .ok {}
  | item :: items => do
    let first ← step item
    let second ← collect step items
    return first.append second

/-- Whether an offense starts no later than another. -/
def startsNoLater (first second : Offense) : Bool :=
  first.location.offset ≤ second.location.offset

/-- The outcome of the evaluation of the tree of a file: offenses in the order of their places,
those at one place in the order in which they were found. -/
def evaluate (evaluator : Evaluator) (file : SourceFile) (root : Node) :
    Except Overflow Evaluation := do
  let active := (evaluator.activeRules file).map (·.name)
  if active.isEmpty then return {}
  let directives := Directives.scan file.content
  let found ← collect
    (fun visit : Visit =>
      collect (evaluator.look file directives visit) (evaluator.rulesAt active visit.node))
    (Visit.all root)
  return { found with offenses := found.offenses.mergeSort startsNoLater }

end Evaluator

end RecipeLint
