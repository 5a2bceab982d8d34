/-
**Case distinctions.**

A case distinction compares a value with the values of its cases, or matches it against their
patterns. What opens the first case decides which of the two it is.

* `Reader.caseDistinction` — both forms, from the word that opens them.
-/

import RecipeLint.Ruby.Pattern

namespace RecipeLint.Ruby.Reader

/-! ### Cases with values -/

/-- Reads a value of a case. -/
def caseValue : Reader Tree := do
  let start ← position
  let value ← if ← sees "*" then signed .splatArgument 1 else plainValue
  return .of .casePattern (← spanFrom start) [value]

/-- Reads a case with values. -/
def whenBranch : Reader (Option Tree) := do
  skipLines
  let start ← position
  unless ← acceptWord "when" do return none
  skipLines
  let values ← within (fun _ => { words := ["then"], commands := false, listed := true }) do
    let first ← caseValue
    let more ← many <| attempt do
      skipSpace
      unless ← accept "," do return none
      skipLines
      some <$> caseValue
    return first :: more
  let branch ← thenBranch clauseStatements ["when", "else", "end"]
  return some (.of .whenBranch (← spanFrom start) (values ++ branch))

/-! ### Cases with patterns -/

/-- Reads the condition that a value has to meet besides a pattern. -/
def guardClause : Reader (List Tree) := do
  let start ← position
  let kind ←
    if ← acceptWord "if" then pure (some Kind.ifGuard)
    else if ← acceptWord "unless" then pure (some .unlessGuard)
    else pure none
  match kind with
  | none => return []
  | some kind =>
    skipLines
    let test ← within (fun _ => { words := Context.innerWords }) (descend .expression)
    return [.of kind (← spanFrom start) [test.tree]]

/-- Reads a clause of a case distinction by patterns. -/
def inClause : Reader (Option Tree) := do
  skipLines
  let start ← position
  unless ← acceptWord "in" do return none
  skipLines
  let pattern ← within (fun _ => { words := ["then", "if", "unless"] }) topPattern
  skipBlanks
  let condition ← guardClause
  let branch ← thenBranch clauseStatements ["in", "else", "end"]
  return some (.of .inClause (← spanFrom start) (pattern :: condition ++ branch))

/-! ### Case distinctions -/

/-- Reads a case distinction. -/
def caseDistinction : Reader Tree :=
  construct do
    let start ← position
    eat 4
    let word ← get
    skipLines
    let isBare := (← get).rest.isEmpty || (← sees ";") ||
      ["when", "else", "end"].any (← get).seesWord
    if isBare then set word
    let value ←
      if isBare then pure [] else List.singleton <$> condition Context.innerWords
    let _ ← terminator
    skipLines
    let isMatch ← seesWord "in"
    let branches ←
      ending Ending.enclose (if isMatch && !value.isEmpty then many inClause else many whenBranch)
    let final ← elseBranch statementsUntil ["end"]
    closingEnd (branches ++ final)
    let kind := if isMatch then Kind.caseMatch else .caseBranch
    return .of kind (← spanFrom start) (value ++ branches ++ final)

end RecipeLint.Ruby.Reader
