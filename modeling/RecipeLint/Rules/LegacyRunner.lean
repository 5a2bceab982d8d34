/-
**The legacy test runner.**

`ChefSpec::Runner` was split in two. Every mention of the constant is an offense, fixed by the name
of the runner that talks to a server; one that is looked up from the top is not.
-/

import RecipeLint.Rule

namespace RecipeLint.Rules.LegacyRunner

/-- The names of the constant. -/
def legacyPath : List String := ["ChefSpec", "Runner"]

/-- What the constant is replaced by. -/
def replacement : String := "ChefSpec::ServerRunner"

/-- How an offense names the rule. -/
def identity (severity : Severity) : RuleIdentity :=
  ⟨"chefspec-legacy-runner", "CL001", severity⟩

/-- What an offense says. -/
def message : String :=
  "Use ChefSpec::SoloRunner or ChefSpec::ServerRunner instead of the deprecated ChefSpec::Runner."

/-- The offenses of a node. -/
def offenses (severity : Severity) (context : CheckContext) (node : Node) :
    Except Overflow (List Offense) := do
  if node.isConstant legacyPath then
    let location ← context.file.location node.span
    let offense ← (identity severity).offense context.file node.span message
    return [{ offense with
      suggestion := some ⟨"Replace with " ++ replacement, [⟨location, replacement⟩]⟩ }]
  return []

/-- The rule, with offenses of a severity. -/
def rule (severity : Severity) : Rule where
  name := (identity severity).name
  code := (identity severity).code
  description := "Replaces the deprecated ChefSpec::Runner with ChefSpec::ServerRunner"
  category := .deprecations
  severity := severity
  tags := [.const]
  fixes := true
  check := fun context node => .ofExcept (offenses severity context node)

end RecipeLint.Rules.LegacyRunner
