/-
**Specialised ways to run a command.**

The specialised variants of `shell_out` were replaced by options. A call of one is an offense,
fixed by the plain name; the variants about the locale also get the option that they implied, after
the last argument but before a block that is passed on.

* `optionFix` — where the option goes.
-/

import RecipeLint.Rule
import RecipeLint.Text.Search

namespace RecipeLint.Rules.ShellOut

/-- The specialised methods. -/
def specialised : List String :=
  ["shell_out_compact", "shell_out_compact!", "shell_out_compact_timeout",
   "shell_out_compact_timeout!", "shell_out_with_timeout", "shell_out_with_timeout!",
   "shell_out_with_systems_locale", "shell_out_with_systems_locale!"]

/-- What the methods about the locale start with. -/
def localeMethod : String := "shell_out_with_systems_locale"

/-- The option that the methods about the locale imply. -/
def localeOption : String := "default_env: false"

/-- How an offense names the rule. -/
def identity : RuleIdentity := ⟨"deprecated-shellout-methods", "CL003", .warning⟩

/-- What an offense says. -/
def message : String :=
  "Many legacy specialized shell_out methods were replaced in Chef Infra Client 14.3 and " ++
    "removed in Chef Infra Client 15. Use shell_out and any additional options if necessary."

/-- The plain method for a specialised one. -/
def replacement (method : String) : String :=
  if method.toList.getLast? = some '!' then "shell_out!" else "shell_out"

/-- Whether an argument passes a block on. -/
def isBlockPass (argument : Node) : Bool :=
  argument.kind == .other "block_argument"

/-- The change that puts a text at a position of a file. -/
def insertion (file : SourceFile) (position : Nat) (text : String) :
    Except Overflow Correction := do
  return .insert (← file.location (.empty position)) text

/-- The change that adds the option to a call: to its arguments, or between its empty parentheses,
or between new ones. -/
def optionFix (file : SourceFile) (node : Node) (methodSpan : Span) :
    Except Overflow Correction := do
  match (← node.arguments).getLast? with
  | some last =>
    if isBlockPass last then insertion file last.span.start (localeOption ++ ", ")
    else insertion file last.span.stop (", " ++ localeOption)
  | none =>
    match Text.breakOn? ['('] (file.text ⟨methodSpan.stop, node.span.stop⟩) with
    | some (before, _) => insertion file (methodSpan.stop + Text.size before + 1) localeOption
    | none => insertion file methodSpan.stop ("(" ++ localeOption ++ ")")

/-- The changes that fix a call of a specialised method. -/
def fixes (file : SourceFile) (node : Node) (method : String) (methodSpan : Span) :
    Except Overflow (List Correction) := do
  let rename : Correction := ⟨← file.location methodSpan, replacement method⟩
  if localeMethod.toList.isPrefixOf method.toList then
    return [rename, ← optionFix file node methodSpan]
  return [rename]

/-- The offenses of a node. -/
def offenses (context : CheckContext) (node : Node) : Except Overflow (List Offense) := do
  match node.kind with
  | .call method methodSpan _ _ =>
    if specialised.contains method then
      let corrections ← fixes context.file node method methodSpan
      let offense ← identity.offense context.file node.span message
      return [{ offense with
        suggestion := some ⟨"Replace " ++ method ++ " with shell_out", corrections⟩ }]
    return []
  | _ => return []

/-- The rule. -/
def rule : Rule where
  name := identity.name
  code := identity.code
  description := "Replaces shell_out helpers removed in Chef Infra Client 15"
  category := .deprecations
  severity := identity.severity
  tags := [.call]
  minimumVersion := some ⟨14, 3, 0⟩
  fixes := true
  check := fun context node => .ofExcept (offenses context node)

end RecipeLint.Rules.ShellOut
