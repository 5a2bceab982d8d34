/-
**Registry keys for account control.**

A resource of its own sets the values for user account control. A `registry_key` block for a key
below the policies of the system is an offense. The key is that of a `key` property in the block,
or else the name of the resource, and upper and lower case are the same in it.

* `managedKey?` — the key that a block is about.
* `isPolicyKey` — whether a key is below the policies of the system.
-/

import RecipeLint.Rule

namespace RecipeLint.Rules.RegistryUac

/-- The two names of the root of the keys. -/
def roots : List String := ["HKLM", "HKEY_LOCAL_MACHINE"]

/-- The path of the policies of the system below the root. -/
def policyPath : String := "\\SOFTWARE\\Microsoft\\Windows\\CurrentVersion\\Policies\\System"

/-- A character without regard to its case, as far as ASCII letters are concerned: the long `s` and
the sign for kelvin are the letters that they look like. -/
def foldCase (c : Char) : Char :=
  if c.toNat = 0x17F then 's'
  else if c.toNat = 0x212A then 'k'
  else c.toLower

/-- Whether a key is below the policies of the system. -/
def isPolicyKey (key : String) : Bool :=
  let folded := key.toList.map foldCase
  roots.any fun root => ((root ++ policyPath).toList.map foldCase).isPrefixOf folded

/-- The key that a block is about. -/
def managedKey? (node : Node) : Except Overflow (Option String) := do
  match node.blockCall? with
  | none => return none
  | some call =>
    if !call.isCommand "registry_key" then return none
    match node.blockBody.find? fun statement => statement.isCommand "key" with
    | none => call.firstString?
    | some statement =>
      match ← statement.firstString? with
      | some key => return some key
      | none => call.firstString?

/-- How an offense names the rule. -/
def identity : RuleIdentity := ⟨"windows-registry-uac", "CL007", .refactor⟩

/-- What an offense says. -/
def message : String :=
  "Chef Infra Client 15.0 and later includes a windows_uac resource that should be used to set " ++
    "Windows UAC values instead of setting registry keys directly."

/-- The offenses of a node. -/
def offenses (context : CheckContext) (node : Node) : Except Overflow (List Offense) := do
  match ← managedKey? node with
  | some key =>
    if isPolicyKey key then return [← identity.offense context.file node.span message]
    return []
  | none => return []

/-- The rule. -/
def rule : Rule where
  name := identity.name
  code := identity.code
  description := "Prefers the windows_uac resource over UAC registry keys"
  category := .modernize
  severity := identity.severity
  tags := [.block]
  minimumVersion := some ⟨15, 0, 0⟩
  check := fun context node => .ofExcept (offenses context node)

end RecipeLint.Rules.RegistryUac
