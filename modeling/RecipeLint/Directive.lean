/-
**Allow directives.**

A comment can allow the violation of rules on its line and on the line below:
`# cookbook-lint: allow(CL001, CL002) reason="..."`. A directive names rules by name or code, or
all of them by `all`.

* `Directive.read?` — the directive of a line.
* `Directives.check` — whether a rule is allowed on a line, and why.
-/

import RecipeLint.Text.Blank
import RecipeLint.Text.Search

namespace RecipeLint

/-- A directive that allows the violation of rules. -/
structure Directive where
  /-- The names and codes of the rules, without repetition. -/
  rules : List String
  /-- Why the violation is allowed. -/
  reason : Option String
  deriving DecidableEq, Repr, Inhabited

/-- Whether the violation of a rule is allowed, and why. -/
inductive Allowance where
  /-- It is not. -/
  | denied
  /-- It is, with or without a reason. -/
  | allowed (reason : Option String)
  deriving DecidableEq, Repr, Inhabited

namespace Allowance

/-- Whether the violation is allowed. -/
def isAllowed : Allowance → Bool
  | .allowed _ => true
  | .denied => false

/-- Why the violation is allowed. -/
def reason? : Allowance → Option String
  | .allowed reason => reason
  | .denied => none

end Allowance

namespace Directive

/-- What starts every directive. -/
def marker : List Char := "cookbook-lint:".toList

/-- The names between the parentheses of a directive. -/
def names (list : List Char) : List String :=
  (((Text.splitAt ',' list).map Text.trim).filter (· ≠ [])).eraseDups.map String.ofList

/-- The reason after the parentheses of a directive. -/
def reasonOf? (rest : List Char) : Option String := do
  let value ← Text.strip? "reason=".toList (Text.trim rest)
  let quoted ← Text.strip? ['"'] (Text.trim value)
  let (reason, _) ← Text.breakOn? ['"'] quoted
  if Text.isBlankText reason then none else some (String.ofList reason)

/-- The directive of a line: the first marker must follow the sign that starts a comment, and at
least one rule must be named. -/
def read? (line : List Char) : Option Directive := do
  let (before, after) ← Text.breakOn? marker line
  if (Text.trimEnd before).getLast? ≠ some '#' then none
  let content ← Text.strip? "allow(".toList (Text.trim after)
  let (list, rest) ← Text.breakOn? [')'] (Text.trim content)
  let rules := names list
  if rules.isEmpty then none
  some ⟨rules, reasonOf? rest⟩

/-- Whether a directive names a rule. -/
def covers (directive : Directive) (name code : String) : Bool :=
  directive.rules.contains "all" || directive.rules.contains name || directive.rules.contains code

end Directive

/-- The directives of a file with their lines, from one, in the order of the lines. -/
abbrev Directives := List (Nat × Directive)

namespace Directives

/-- The directives of a text. -/
def scan (content : List Char) : Directives :=
  (Text.lines content).zipIdx.filterMap fun (line, index) =>
    (Directive.read? line).map fun directive => (index + 1, directive)

/-- Whether a rule may be violated on a line: the first directive that names it decides, of those
on the line and on the line above. -/
def check (directives : Directives) (line : Nat) (name code : String) : Allowance :=
  let near := directives.filter fun (place, _) => place == line || place + 1 == line
  match near.find? fun (_, directive) => directive.covers name code with
  | some (_, directive) => .allowed directive.reason
  | none => .denied

end Directives

end RecipeLint
