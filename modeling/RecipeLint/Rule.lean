/-
**Rules.**

A rule looks at nodes of certain kinds and reports offenses. A look at a node may also end with a
reason why the rule cannot tell, or break off.

* `Verdict` — how a look at a node ends.
* `Rule` — a rule with all that is known about it.
* `CheckContext` — what a rule sees beside the node.
-/

import RecipeLint.Node
import RecipeLint.SourceFile
import RecipeLint.Version

namespace RecipeLint

/-- The group that a rule belongs to. -/
inductive Category where
  /-- Constructs that newer releases of the platform deprecate. -/
  | deprecations
  /-- Constructs that a way of packaging cookbooks does not support. -/
  | effortless
  /-- Code that a newer feature replaces. -/
  | modernize
  /-- Code without effect. -/
  | redundant
  /-- Conventions. -/
  | style
  deriving DecidableEq, Repr, Inhabited

/-- The name of a group of rules. -/
def Category.name : Category → String
  | .deprecations => "deprecations"
  | .effortless => "effortless"
  | .modernize => "modernize"
  | .redundant => "redundant"
  | .style => "style"

/-- How a look at a node ends. -/
inductive Verdict where
  /-- With offenses, or with none. -/
  | offenses (found : List Offense)
  /-- With a reason why the rule cannot tell. -/
  | refused (reason : String)
  /-- By breaking off, with or without a message. -/
  | crashed (message : Option String)
  deriving Repr, Inhabited

/-- What a look at a node amounts to if it ends by machine arithmetic without result. -/
def Verdict.ofExcept : Except Overflow (List Offense) → Verdict
  | .ok found => .offenses found
  | .error overflow => .crashed (some overflow.message)

/-- What a rule sees beside the node. -/
structure CheckContext where
  /-- The file. -/
  file : SourceFile
  /-- The nodes around the node, the outermost first. -/
  ancestors : List Node
  deriving Inhabited

/-- The node right around the node. -/
def CheckContext.parent? (context : CheckContext) : Option Node :=
  context.ancestors.getLast?

/-- A rule. -/
structure Rule where
  /-- The name. -/
  name : String
  /-- The code. -/
  code : String
  /-- What the rule is about. -/
  description : String := ""
  /-- The group. -/
  category : Category := .style
  /-- How bad its offenses are if nothing else is said. -/
  severity : Severity := .warning
  /-- Whether a directive that allows its violation needs a reason. -/
  requiresReason : Bool := severity == .error
  /-- The kinds of nodes that it looks at. -/
  tags : List Tag
  /-- The least version of the platform that it is for. -/
  minimumVersion : Option Version := none
  /-- Whether it looks at a file at all. -/
  appliesTo : SourceFile → Bool := fun _ => true
  /-- Whether its offenses come with corrections. -/
  fixes : Bool := false
  /-- Looks at a node. -/
  check : CheckContext → Node → Verdict
  deriving Inhabited

/-- What an offense says about the rule that it violates. -/
structure RuleIdentity where
  /-- The name of the rule. -/
  name : String
  /-- The code of the rule. -/
  code : String
  /-- How bad its offenses are. -/
  severity : Severity

/-- An offense of a rule at a range of a file. -/
def RuleIdentity.offense (rule : RuleIdentity) (file : SourceFile) (span : Span)
    (message : String) : Except Overflow Offense := do
  return { code := rule.code, rule := rule.name, severity := rule.severity
           location := ← file.location span, message := message }

end RecipeLint
