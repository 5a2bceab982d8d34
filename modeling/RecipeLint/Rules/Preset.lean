/-
**Sets of rules.**

All rules, the three sets of them that have a name, and the rules with the options that settings
give.

* `Preset.rules` — the rules of a set.
* `builtin?` — the rule with a name or code.
* `ofSettings` — the rules that settings ask for.
-/

import RecipeLint.Rules.Copyright
import RecipeLint.Rules.LegacyRunner
import RecipeLint.Rules.PoiseDependency
import RecipeLint.Rules.ProvidesMetadata
import RecipeLint.Rules.RegistryUac
import RecipeLint.Rules.ShellOut
import RecipeLint.Rules.VaultUse

namespace RecipeLint

/-- The sets of rules that have a name. -/
inductive Preset where
  /-- All rules but those for one way of packaging cookbooks. -/
  | recommended
  /-- All rules. -/
  | all
  /-- The rules about deprecated constructs. -/
  | deprecations
  deriving DecidableEq, Repr, Inhabited

/-- A name that no set of rules has. -/
structure UnknownPreset where
  /-- The name. -/
  name : String
  deriving DecidableEq, Repr, Inhabited

/-- What is said about a name that no set of rules has. -/
def UnknownPreset.message (unknown : UnknownPreset) : String :=
  "unknown preset '" ++ unknown.name ++ "' (expected recommended, all or deprecations)"

namespace Rules

/-- All rules. -/
def all : List Rule :=
  [LegacyRunner.rule .warning, PoiseDependency.rule PoiseDependency.defaultCookbooks,
   ShellOut.rule, VaultUse.rule, ProvidesMetadata.rule, Copyright.rule, RegistryUac.rule]

/-- The rule with a name or code. -/
def builtin? (nameOrCode : String) : Option Rule :=
  all.find? fun rule => rule.name == nameOrCode || rule.code == nameOrCode

end Rules

namespace Preset

/-- The name of a set of rules. -/
def name : Preset → String
  | .recommended => "recommended"
  | .all => "all"
  | .deprecations => "deprecations"

/-- The sets of rules that have a name. -/
def every : List Preset := [.recommended, .all, .deprecations]

/-- The set of rules with a name. -/
def read (name : String) : Except UnknownPreset Preset :=
  match every.find? fun preset => preset.name == name with
  | some preset => .ok preset
  | none => .error ⟨name⟩

/-- The rules of a set. -/
def rules : Preset → List Rule
  | .recommended => Rules.all.filter fun rule => rule.category ≠ .effortless
  | .all => Rules.all
  | .deprecations => Rules.all.filter fun rule => rule.category = .deprecations

end Preset

namespace Rules

/-- A rule with the options that settings give. -/
def withOptions (settings : Settings) (rule : Rule) : Rule :=
  let identity := PoiseDependency.identity
  if rule.name = identity.name then
    match settings.rule? identity.name identity.code with
    | some options => PoiseDependency.configured options
    | none => rule
  else rule

/-- The rules that settings ask for, with their options. -/
def ofSettings (settings : Settings) : Except UnknownPreset (List Rule) := do
  let preset ← match settings.preset with
    | some name => Preset.read name
    | none => pure .recommended
  return preset.rules.map (withOptions settings)

end Rules

end RecipeLint
