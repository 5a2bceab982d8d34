/-
**Dependencies on unmaintained cookbooks.**

A `depends` in the metadata whose only argument names a cookbook of a list is an offense. The list
can be set.
-/

import RecipeLint.Rule
import RecipeLint.Settings

namespace RecipeLint.Rules.PoiseDependency

/-- The cookbooks that may not be depended on if nothing else is said. -/
def defaultCookbooks : List String := ["poise", "poise-service"]

/-- How an offense names the rule. -/
def identity : RuleIdentity := ⟨"depends-on-poise", "CL002", .warning⟩

/-- What an offense says. -/
def message : String := "Cookbooks should not depend on the deprecated Poise framework"

/-- The offenses of a node, where some cookbooks may not be depended on. -/
def offenses (cookbooks : List String) (context : CheckContext) (node : Node) :
    Except Overflow (List Offense) := do
  if node.isCommand "depends" then
    if (← node.arguments).length = 1 then
      match ← node.firstString? with
      | some name =>
        if cookbooks.contains name then
          return [← identity.offense context.file node.span message]
      | none => pure ()
  return []

/-- The rule, where some cookbooks may not be depended on. -/
def rule (cookbooks : List String) : Rule where
  name := identity.name
  code := identity.code
  description := "Forbids depending on the deprecated Poise cookbooks"
  category := .deprecations
  severity := identity.severity
  tags := [.call]
  appliesTo := SourceFile.isMetadata
  check := fun context node => .ofExcept (offenses cookbooks context node)

/-- The rule with the list that its settings give. -/
def configured (settings : RuleSettings) : Rule :=
  rule ((settings.texts? "cookbooks").getD defaultCookbooks)

end RecipeLint.Rules.PoiseDependency
