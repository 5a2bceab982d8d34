/-
**`provides` in the metadata.**

Nothing ever read `provides` in the metadata of a cookbook. A call is an offense, fixed by deleting
it together with the blanks before it.
-/

import RecipeLint.Rule

namespace RecipeLint.Rules.ProvidesMetadata

/-- How an offense names the rule. -/
def identity : RuleIdentity := ⟨"provides-metadata", "CL005", .refactor⟩

/-- What an offense says. -/
def message : String :=
  "The provides metadata.rb method is not used and is unnecessary in cookbooks."

/-- The offenses of a node. -/
def offenses (context : CheckContext) (node : Node) : Except Overflow (List Offense) := do
  if node.methodName? = some "provides" then
    let removal ← context.file.location (spaceToLeft context.file.content node.span)
    let offense ← identity.offense context.file node.span message
    return [{ offense with suggestion := some ⟨"Remove provides", [.remove removal]⟩ }]
  return []

/-- The rule. -/
def rule : Rule where
  name := identity.name
  code := identity.code
  description := "Removes the unused provides metadata method"
  category := .redundant
  severity := identity.severity
  tags := [.call]
  appliesTo := SourceFile.isMetadata
  fixes := true
  check := fun context node => .ofExcept (offenses context node)

end RecipeLint.Rules.ProvidesMetadata
