/-
**Copyright comments.**

A comment about the copyright reads `# Copyright:: <years>, <holder>`. The years run from the
oldest one that the comment names to the current one. The holder is what follows the last year of
the line, or the keyword if there is no year, with old names of the company replaced.

* `years` — the years that a text names.
* `holder` — the holder that a text names.
* `header?` — the comment in its proper form, if it is not in it.
-/

import RecipeLint.Rule
import RecipeLint.Text.Blank
import RecipeLint.Text.Search
import RecipeLint.Text.Word

namespace RecipeLint.Rules.Copyright

/-- The keyword. -/
def keyword : List Char := "Copyright".toList

/-- A text from its first word character on. -/
def dropNonWord (text : List Char) : List Char :=
  text.dropWhile fun c => !Text.isWord c

/-- A text up to the end of its first line. -/
def lineOf (text : List Char) : List Char :=
  text.takeWhile (· ≠ '\n')

/-- What follows the keyword of a copyright comment on its line. -/
def statement? (text : List Char) : Option (List Char) := do
  let (_, after) ← Text.breakOn? ('#' :: ' ' :: keyword) text
  return lineOf (dropNonWord after)

/-! ### Years -/

/-- The value of four digits at the start of a text, and what follows them. -/
def year? : List Char → Option (Nat × List Char)
  | a :: b :: c :: d :: rest => do
    let digits := [a, b, c, d]
    if digits.all Char.isDigit then return (← decimal? digits, rest) else none
  | _ => none

/-- The years from the left, where `skip` characters belong to the year before. -/
def yearsFrom : (skip : Nat) → List Char → List Nat
  | _, [] => []
  | skip + 1, _ :: rest => yearsFrom skip rest
  | 0, c :: rest =>
    match year? (c :: rest) with
    | some (year, _) => year :: yearsFrom 3 rest
    | none => yearsFrom 0 rest

/-- The years that a text names: four digits each, from the left. -/
def years (text : List Char) : List Nat := yearsFrom 0 text

/-- The years from the oldest one that a text names to the current one. -/
def yearRange (text : List Char) (current : Int) : String :=
  match (years text).min? with
  | some (oldest : Nat) =>
    if (oldest : Int) ≠ current then toString oldest ++ "-" ++ toString current
    else toString current
  | none => toString current

/-! ### Holders -/

/-- What follows the last four digits of the first line of a text. -/
def afterLastYear? : List Char → Option (List Char)
  | [] => none
  | '\n' :: _ => none
  | c :: rest =>
    match afterLastYear? rest with
    | some after => some after
    | none => (year? (c :: rest)).map (·.2)

/-- What follows the last year of a line, or the keyword, whichever is found first: at each
position a year on the rest of the line wins over the keyword at the position. -/
def afterYears? : List Char → Option (List Char)
  | [] => none
  | c :: rest =>
    match afterLastYear? (c :: rest) with
    | some after => some after
    | none =>
      match Text.strip? keyword (c :: rest) with
      | some after => some (dropNonWord after)
      | none => afterYears? rest

/-- A text without a comma at its start and then without a blank at its start. -/
def dropSeparator (text : List Char) : List Char :=
  let text := match text with
    | ',' :: rest => rest
    | _ => text
  match text with
  | c :: rest => if Text.isBlank c then rest else text
  | [] => []

/-- A text with every occurrence of a part replaced, where `skip` characters belong to the
occurrence before. -/
def replaceFrom (part replacement : List Char) : (skip : Nat) → List Char → List Char
  | _, [] => []
  | skip + 1, _ :: rest => replaceFrom part replacement skip rest
  | 0, c :: rest =>
    match Text.strip? part (c :: rest) with
    | some _ => replacement ++ replaceFrom part replacement (part.length - 1) rest
    | none => c :: replaceFrom part replacement 0 rest

/-- A line with what starts with an old name of the incorporated company replaced by its name. -/
def renameIncorporated : List Char → List Char
  | [] => []
  | c :: rest =>
    if (Text.strip? "Chef Inc".toList (c :: rest)).isSome ||
        (Text.strip? "Chef, Inc".toList (c :: rest)).isSome then
      "Chef Software, Inc.".toList
    else c :: renameIncorporated rest

/-- The holder that a text names. -/
def holder (text : List Char) : List Char :=
  let named := lineOf (dropSeparator ((afterYears? text).getD []))
  renameIncorporated (replaceFrom "Opscode".toList "Chef Software".toList 0 named)

/-! ### The rule -/

/-- A copyright comment in its proper form; nothing if the text is no such comment or is in its
proper form. -/
def header? (text : String) (current : Int) : Option String := do
  let characters := text.toList
  if characters.head? ≠ some '#' then none
  let found ← statement? characters
  let expected := yearRange characters current ++ ", " ++ String.ofList (holder characters)
  if String.ofList found = expected then none else some ("# Copyright:: " ++ expected)

/-- How an offense names the rule. -/
def identity : RuleIdentity := ⟨"copyright-comment-format", "CL006", .refactor⟩

/-- What an offense says. -/
def message : String := "Properly format copyrights header comments"

/-- The offenses of a node. -/
def offenses (context : CheckContext) (node : Node) : Except Overflow (List Offense) := do
  match node.commentText?.bind fun text => header? text context.file.year with
  | some header =>
    let location ← context.file.location node.span
    let offense ← identity.offense context.file node.span message
    return [{ offense with suggestion := some ⟨"Use '" ++ header ++ "'", [⟨location, header⟩]⟩ }]
  | none => return []

/-- The rule. -/
def rule : Rule where
  name := identity.name
  code := identity.code
  description := "Normalizes copyright header comments"
  category := .style
  severity := identity.severity
  tags := [.comment]
  fixes := true
  check := fun context node => .ofExcept (offenses context node)

end RecipeLint.Rules.Copyright
