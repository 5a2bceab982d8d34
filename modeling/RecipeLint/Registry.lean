/-
**Collections of rules.**

Rules in the order in which they were added, no two with the same name or the same code. Beside
the rules stands, for each kind of node, the list of the places of the rules that look at it.

* `Registry.register` — adds a rule or tells which name is taken.
* `Registry.rulesFor` — the rules that look at a kind of node.
* `Registry.get?` — the rule with a name or code.
-/

import RecipeLint.Rule
import RecipeLint.Text.Visible

namespace RecipeLint

/-- A rule whose name or code is taken. -/
structure DuplicateRule where
  /-- The name or code. -/
  name : String
  deriving DecidableEq, Repr, Inhabited

/-- What is said about a rule whose name or code is taken. -/
def DuplicateRule.message (duplicate : DuplicateRule) : String :=
  "rule '" ++ duplicate.name ++ "' is already registered"

/-- A collection of rules. -/
structure Registry where
  /-- The rules in the order in which they were added. -/
  rules : List Rule := []
  /-- For each kind of node the places of the rules that look at it. -/
  places : Tag → List Nat := fun _ => []
  deriving Inhabited

namespace Registry

/-- The collection without rules. -/
def empty : Registry := {}

/-- Whether a rule has a name or code in common with another. -/
def clashes (first second : Rule) : Bool :=
  first.name == second.name || first.code == second.code

/-- Adds a place to the list of a kind of node, unless it is there. -/
def addPlace (places : Tag → List Nat) (place : Nat) (tag : Tag) : Tag → List Nat :=
  fun queried =>
    if queried = tag ∧ ¬ place ∈ places tag then places tag ++ [place] else places queried

/-- Adds a rule. -/
def register (registry : Registry) (rule : Rule) : Except DuplicateRule Registry :=
  match registry.rules.find? fun existing => clashes existing rule with
  | some existing => .error ⟨if existing.name = rule.name then rule.name else rule.code⟩
  | none =>
    .ok
      { rules := registry.rules ++ [rule]
        places := rule.tags.foldl
          (fun places tag => addPlace places registry.rules.length tag) registry.places }

/-- The rules that look at a kind of node, in the order in which they were added. -/
def rulesFor (registry : Registry) (tag : Tag) : List Rule :=
  (registry.places tag).filterMap fun place => registry.rules[place]?

/-- The first rule with a name or code. -/
def get? (registry : Registry) (nameOrCode : String) : Option Rule :=
  registry.rules.find? fun rule => rule.name == nameOrCode || rule.code == nameOrCode

/-- The collection of several rules, added one after the other. -/
def ofRules (rules : List Rule) : Except DuplicateRule Registry :=
  rules.foldlM register empty

/-! ### Listing -/

/-- A character as it is written between quotes in a listing. -/
def quotedCharacter (c : Char) : List Char :=
  if c = '"' then ['\\', '"']
  else if c = '\\' then ['\\', '\\']
  else if c = '\n' then ['\\', 'n']
  else if c = '\r' then ['\\', 'r']
  else if c = '\t' then ['\\', 't']
  else if c.toNat = 0 then ['\\', '0']
  else if Text.isVisible c then [c]
  else "\\u\x7b".toList ++ Nat.toDigits 16 c.toNat ++ ['\x7d']

/-- The names of the rules, each between quotes, in brackets. -/
def listing (registry : Registry) : String :=
  let quoted := fun rule : Rule =>
    String.ofList ('"' :: rule.name.toList.flatMap quotedCharacter ++ ['"'])
  "[" ++ ", ".intercalate (registry.rules.map quoted) ++ "]"

end Registry

end RecipeLint
