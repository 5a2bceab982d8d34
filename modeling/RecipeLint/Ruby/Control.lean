/-
**Control flow.**

Conditionals, loops, bodies that handle exceptions, lambdas and jumps. Each reader starts at the
word that opens its construct.
-/

import RecipeLint.Ruby.Parameter

namespace RecipeLint.Ruby.Reader

/-- Reads a construct that a word opens. -/
def construct {α : Type} (reader : Reader α) : Reader α := do
  let start ← position
  ending (fun early => { early.reach start with embodied := true }) reader

/-- Reads a condition, which one of the words may follow. -/
def condition (words : List String) : Reader Tree := do
  skipLines
  ending Ending.enclose (within (fun _ => { words := words, unnamed := true }) (descend .statement))

/-! ### Conditionals -/

/-- Reads the branches of a conditional that start with `elsif`, each with where it starts. -/
def elsifBranches : Reader (List (Nat × List Tree)) :=
  many do
    let start ← position
    unless ← acceptWord "elsif" do return none
    let test ← condition Context.innerWords
    let branch ← thenBranch clauseStatements ["elsif", "else", "end"]
    return some (start, test :: branch)

/-- Nests the branches of a conditional: each alternative is the last part of the one before and
reaches to the same end. -/
def nestAlternatives (stop : Nat) (branches : List (Nat × List Tree)) (final : List Tree) :
    List Tree :=
  branches.foldr
    (fun (start, parts) inner => [.of .elsifBranch ⟨start, stop⟩ (parts ++ inner)]) final

/-- Reads a conditional of a kind that a word opens. -/
def conditional (kind : Kind) (wordLength : Nat) : Reader Tree :=
  construct do
    let start ← position
    eat wordLength
    let test ← condition Context.innerWords
    let branch ← thenBranch statementsUntil ["elsif", "else", "end"]
    let branches ← elsifBranches
    let final ← elseBranch statementsUntil ["end"]
    let stop := (← get).last
    closingEnd (branch ++ branches.flatMap (·.2) ++ final)
    let alternatives := nestAlternatives stop branches final
    return .of kind (← spanFrom start) (test :: branch ++ alternatives)

/-! ### Loops -/

/-- Reads the body of a loop from the word `do`, or from the terminator that stands for it, to the
word that ends it. -/
def loopBody : Reader Tree := do
  skipBlanks
  let start ← position
  let opened ←
    if ← acceptStem "do" then pure (some start) else terminator
  match opened with
  | none => unfinished none
  | some start =>
    let statements ← statementsUntil ["end"]
    closingEnd statements
    return .of .loopBody (← spanFrom start) statements

/-- Reads a loop with a condition. -/
def conditionLoop (kind : Kind) (wordLength : Nat) : Reader Tree :=
  construct do
    let start ← position
    eat wordLength
    let test ← condition ["do"]
    let body ← loopBody
    return .of kind (← spanFrom start) [test, body]

/-- Reads the targets of a loop over a collection. -/
def loopTargets : Reader Tree :=
  within (fun _ => { words := ["in"], lines := false, commands := false, listed := true }) do
    skipLines
    let start ← position
    let first ← descend .target
    let more ← many <| attempt do
      skipLines
      unless ← accept "," do return none
      skipLines
      if ← seesWord "in" then return none
      some <$> descend .target
    skipLines
    let comma ← accept ","
    let isList := comma || !more.isEmpty || first.is .restAssignment ||
      first.is .destructuredLeftAssignment
    if isList then return .of .leftAssignmentList (← spanFrom start) (first :: more)
    return first

/-- Reads a loop over a collection. -/
def collectionLoop : Reader Tree :=
  construct do
    let start ← position
    eat 3
    let targets ← ending Ending.enclose loopTargets
    skipLines
    let valueStart ← position
    unless ← acceptWord "in" do unfinished none
    skipLines
    let value ← ending Ending.enclose
      (within (fun _ => { words := ["do"], commands := false }) (descend (.operand 0)))
    let values := Tree.of .inValue (← spanFrom valueStart) [value.tree]
    let body ← loopBody
    return .of .forLoop (← spanFrom start) [targets.as .pattern, values, body]

/-! ### Bodies, lambdas and jumps -/

/-- Reads a body between `begin` and `end`. -/
def beginBody : Reader Tree :=
  construct do
    let start ← position
    eat 5
    let _ ← terminator
    let parts ← bodyParts statementsUntil
    closingEnd parts
    return .of .beginBody (← spanFrom start) parts

/-- Reads the parameters of a lambda. -/
def lambdaParameters : Reader (List Tree) := do
  if ← sees "(" then return [← parameterList .lambdaParameters]
  if (← sees "\x7b") || (← seesWord "do") then return []
  within (fun _ => { words := ["do"], lines := false, commands := false, listed := true }) do
    return [← bareParameters .lambdaParameters]

/-- Reads a lambda. -/
def lambdaLiteral : Reader Tree :=
  construct do
    let start ← position
    eat 2
    skipLines
    let parameters ← ending Ending.enclose lambdaParameters
    skipLines
    let block : Reader Tree := do
      if ← sees "\x7b" then braceBlock false
      else if ← seesWord "do" then doBlock
      else unfinished none
    let body ← ending (fun early => { early with settled := false }) block
    return .of .lambdaLiteral (← spanFrom start) (parameters ++ [body])

/-- Reads a jump of a kind with arguments in parentheses, if it has any. -/
def plainJump (kind : Kind) (wordLength : Nat) : Reader Tree := do
  let start ← position
  eat wordLength
  unless ← sees "(" do return .leaf kind (← spanFrom start)
  let arguments ← bracketedArguments
  return .of kind (← spanFrom start) [arguments]

/-- Reads a jump of a kind, such as a return, with its arguments. A brace after it opens a hash. -/
def jump (kind : Kind) (wordLength : Nat) : Reader Operand := do
  let start ← position
  let plain ← plainJump kind wordLength
  unless plain.parts.isEmpty do return { tree := plain }
  let arguments ← attempt do
    skipSpace
    let context ← context
    let cursor ← get
    unless context.commands do return none
    let isName := cursor.seesWord "do" && !context.words.contains "do"
    let isHash := cursor.sees "\x7b" && !context.words.contains "\x7b"
    let follows := isHash || isName || startsArgument context cursor.isSpaced cursor.rest ||
      startsUnnamedPair cursor.isSpaced cursor.rest
    unless follows do return none
    some <$> commandArguments []
  match arguments with
  | none => return { tree := plain }
  | some arguments =>
    return { tree := .of kind (← spanFrom start) [arguments], command := true }

end RecipeLint.Ruby.Reader
