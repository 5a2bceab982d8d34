/-
**Formal parameters and blocks.**

The parameters of methods, lambdas and blocks, and the two forms of a block.

* `Reader.parameter` — one formal parameter.
* `Reader.braceBlock`, `Reader.doBlock` — a block with its parameters and its body.
-/

import RecipeLint.Ruby.Argument

namespace RecipeLint.Ruby.Reader

/-! ### Parameters -/

/-- The number of characters of the name of a parameter at the start of a text. A word that may
follow the parameters is no name. -/
def parameterNameLength (words : List String) (text : List Char) : Nat :=
  let word := wordOf text
  if nameKind word = .constant || words.contains (String.ofList word) then 0 else word.length

/-- Reads the name of a parameter after its sign, if there is one. -/
def parameterName : Reader (List Tree) := do
  let bare ← get
  skipSpace
  let count := parameterNameLength (← context).words (← get).rest
  if count = 0 then
    set bare
    return []
  return [(← leaf .identifier count).as .name]

/-- Reads parameters separated by commas. -/
def parametersFrom (first : Tree) : Reader (List Tree) := do
  let more ← many <| attempt do
    skipSpace
    unless ← accept "," do return none
    skipSpace
    if ← sees "|" then return none
    if (← sees ";") && (← context).barred then return none
    some <$> descend .parameter
  return first :: more

/-- Reads the names of the local variables of a block, which a semicolon separates from its
parameters. -/
def blockLocals : Reader (List Tree) := do
  unless ← accept ";" do return []
  let localName : Reader Tree := do
    skipLines
    match ← parameterName with
    | [] => missing "identifier"
    | name :: _ => return .leaf .identifier name.span
  let first ← localName
  let more ← many <| attempt do
    skipLines
    unless ← accept "," do return none
    some <$> localName
  return first :: more

/-- Reads a parenthesised list of parameters as a node of a kind. -/
def parameterList (kind : Kind) : Reader Tree := do
  let start ← position
  eat 1
  within (fun _ => { lines := false, commands := false, listed := true }) do
    skipLines
    if ← accept ")" then return .leaf kind (← spanFrom start)
    let parameters ← parametersFrom (← descend .parameter)
    skipLines
    unless ← accept ")" do unfinished none
    return .of kind (← spanFrom start) parameters

/-- Reads a list of parameters without parentheses as a node of a kind. -/
def bareParameters (kind : Kind) : Reader Tree := do
  let start ← position
  if ← sees "(" then unexpected
  let parameters ← parametersFrom (← descend .parameter)
  return .of kind (← spanFrom start) parameters

/-- Reads a formal parameter. -/
def parameter : Reader Tree := do
  let start ← position
  if ← accept "..." then return .leaf .forwardParameter (← spanFrom start)
  if ← accept "**" then
    let bare ← get
    skipSpace
    if ← acceptWord "nil" then return .leaf .hashSplatNil (← spanFrom start)
    set bare
    let name ← parameterName
    return .of .hashSplatParameter (← spanFrom start) name
  if ← accept "*" then
    let name ← parameterName
    return .of .splatParameter (← spanFrom start) name
  if ← accept "&" then
    let name ← parameterName
    return .of .blockParameter (← spanFrom start) name
  if ← sees "(" then return ← parameterList .destructuredParameter
  match ← parameterName with
  | [] => missing "identifier"
  | name :: _ =>
    let bare ← get
    if ← accept ":" then
      let colon ← get
      skipSpace
      if startsOperand (← context) (← get).rest then
        let value ← plainValue
        return .of .keywordParameter (← spanFrom start) [name, value]
      set colon
      return .of .keywordParameter (← spanFrom start) [name]
    skipSpace
    if ← accept "=" then
      skipLines
      let value ← plainValue
      return .of .optionalParameter (← spanFrom start) [name, value]
    set bare
    return .leaf .identifier name.span

/-! ### Blocks -/

/-- Reads the parameters of a block between vertical bars, if there are any. -/
def blockParameters : Reader (List Tree) := do
  let start ← position
  unless ← accept "|" do return []
  let bars : Context := { lines := false, commands := false, listed := true, barred := true }
  ending Ending.enclose <| within (fun _ => bars) do
    skipLines
    let parameters ←
      if (← sees "|") || (← sees ";") || (← sees ",") then pure []
      else parametersFrom (← descend .parameter)
    skipLines
    let _ ← accept ","
    skipLines
    let locals ← blockLocals
    skipLines
    unless ← accept "|" do unfinished none
    return [.of .blockParameters (← spanFrom start) (parameters ++ locals)]

/-- A node that wraps parts up to the end of the last token; nothing if there are no parts. -/
def wrapped (kind : Kind) (parts : List Tree) : Reader (List Tree) := do
  match parts with
  | [] => return []
  | first :: _ => return [.of kind (← spanFrom first.span.start) parts]

/-- Reads a block in braces. If its callee has no arguments, the brace might as well open a hash
that is one. -/
def braceBlock (mayBeHash : Bool) : Reader Tree := do
  let start ← position
  inside start <| ending (Ending.settle start) do
    eat 1
    skipLines
    let parameters ← blockParameters
    let isOpen := mayBeHash && parameters.isEmpty
    let body ← wrapped .blockBody (← if isOpen then statementsInBrace else statementsUntil [])
    if ← accept "\x7d" then return .of .block (← spanFrom start) (parameters ++ body)
    unclosedBody "\x7d" body

/-! ### Branches and bodies -/

/-- Reads the branch after a condition up to a closing word: a terminator with statements, or the
word `then`. A terminator alone is no branch. -/
def thenBranch (statementsUntil : List String → Reader (List Tree)) (closers : List String) :
    Reader (List Tree) := do
  let ended ← terminator
  skipLines
  let start := ended.getD (← position)
  if ← (if ended.isNone then acceptStem "then" else acceptWord "then") then
    let statements ← statementsUntil ("in" :: Context.partWords)
    return [.of .thenBranch (← spanFrom start) statements]
  if ended.isNone then unfinished none
  let statements ← statementsUntil closers
  if statements.isEmpty then return []
  return [.of .thenBranch (← spanFrom start) statements]

/-- Reads an alternative that starts with `else`. -/
def elseBranch (statementsUntil : List String → Reader (List Tree)) (closers : List String) :
    Reader (List Tree) := do
  let start ← position
  unless ← acceptWord "else" do return []
  let _ ← terminator
  let statements ← statementsUntil closers
  return [.of .elseBranch (← spanFrom start) statements]

/-- The words that end a part of a body that may handle exceptions. -/
def bodyClosers : List String := ["end", "rescue", "else", "ensure"]

/-- Reads the exceptions that a clause handles. -/
def exceptions : Reader (List Tree) :=
  within (fun _ => { words := ["then"], commands := false, listed := true }) do
    skipBlanks
    let exception : Reader Tree := do
      if ← sees "*" then signed .splatArgument 1 else plainValue
    let text := (← get).rest
    unless text.head? = some '*' || startsOperand (← context) text do return []
    let start ← position
    let first ← exception
    let more ← many <| attempt do
      skipSpace
      unless ← accept "," do return none
      skipLines
      some <$> exception
    return [.of .exceptions (← spanFrom start) (first :: more)]

/-- Reads a clause of a body that handles exceptions or runs after it. -/
def bodyClause : Reader (Option Tree) := do
  let start ← position
  if ← acceptWord "rescue" then
    let handled ← exceptions
    let variableNode ← attempt do
      skipBlanks
      let arrow ← position
      unless ← accept "=>" do return none
      skipLines
      let target ← within (fun _ => { words := ["then"], commands := false }) (descend .target)
      return some (Tree.of .exceptionVariable (← spanFrom arrow) [target])
    let body ← thenBranch clauseStatements bodyClosers
    return some (.of .rescueClause (← spanFrom start) (handled ++ variableNode.toList ++ body))
  if ← seesWord "else" then return (← elseBranch clauseStatements bodyClosers).head?
  if ← acceptWord "ensure" then
    let statements ← clauseStatements bodyClosers
    return some (.of .ensureClause (← spanFrom start) statements)
  return none

/-- Reads statements and the clauses that follow them. -/
def bodyParts (statementsUntil : List String → Reader (List Tree)) : Reader (List Tree) := do
  let statements ← statementsUntil bodyClosers
  let clauses ← many bodyClause
  return statements ++ clauses

/-- Takes the word that ends a construct. If it is missing, it alone completes the construct only
after an empty body. -/
def closingEnd (body : List Tree) : Reader Unit := do
  unless ← acceptWord "end" do unclosedBody "end" body

/-- Reads a block between `do` and `end`. -/
def doBlock : Reader Tree := do
  let start ← position
  inside start <| ending (fun early => { early.settle start with embodied := true }) do
    eat 2
    let _ ← terminator
    skipLines
    let parameters ← blockParameters
    unless parameters.isEmpty do
      let _ ← terminator
    let body ← wrapped .bodyStatement (← bodyParts clauseStatements)
    closingEnd body
    return .of .doBlock (← spanFrom start) (parameters ++ body)

end RecipeLint.Ruby.Reader
