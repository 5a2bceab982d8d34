/-
**Use of the vault.**

Cookbooks that run without a server cannot use the vault. Loading it, reading an item, and naming
the class of items are offenses.
-/

import RecipeLint.Rule

namespace RecipeLint.Rules.VaultUse

/-- The methods that load a library or a cookbook. -/
def loaders : List String := ["require", "include_recipe", "chef_gem"]

/-- The methods that read an item. -/
def itemReaders : List String := ["chef_vault_item", "chef_vault_item_for_environment"]

/-- The name under which the vault is loaded. -/
def vaultName : String := "chef-vault"

/-- The names of the class of items. -/
def itemPath : List String := ["ChefVault", "Item"]

/-- How an offense names the rule. -/
def identity : RuleIdentity := ⟨"chef-vault-used", "CL004", .refactor⟩

/-- What an offense says. -/
def message : String := "Chef Vault usage is not supported in the Effortless pattern"

/-- Whether a call loads the vault or reads an item. -/
def isVaultCall (node : Node) : Except Overflow Bool := do
  match node.methodName? with
  | none => return false
  | some method =>
    if node.receiver?.isSome then return false
    let arguments ← node.arguments
    if loaders.contains method then
      return arguments.length == 1 &&
        (arguments.head?.bind Node.stringValue?) == some vaultName
    return itemReaders.contains method && arguments.length == 2

/-- Whether a node uses the vault. -/
def isVaultUse (node : Node) : Except Overflow Bool :=
  match node.tag with
  | .call => isVaultCall node
  | .const => .ok (node.isConstant itemPath)
  | _ => .ok false

/-- The offenses of a node. -/
def offenses (context : CheckContext) (node : Node) : Except Overflow (List Offense) := do
  if ← isVaultUse node then
    return [← identity.offense context.file node.span message]
  return []

/-- The rule. -/
def rule : Rule where
  name := identity.name
  code := identity.code
  description := "Flags Chef Vault usage, which Effortless packages cannot support"
  category := .effortless
  severity := identity.severity
  tags := [.call, .const]
  check := fun context node => .ofExcept (offenses context node)

end RecipeLint.Rules.VaultUse
