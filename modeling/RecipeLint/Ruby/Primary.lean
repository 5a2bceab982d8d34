/-
**Primaries.**

The expressions without operators: literals, names, constructs that a word opens, and what is
built from them by calls, blocks, scopes and indices.

* `Reader.atom` — what a primary starts with.
* `Reader.extension` — one step of building a larger primary from a smaller one.
* `Reader.primary` — as many steps as there are.
-/

import RecipeLint.Ruby.Definition

namespace RecipeLint.Ruby

/-- The parts of a call that a node names, if arguments may be added to it. -/
def Tree.calleeParts? (tree : Tree) : Option (List Tree) :=
  match tree.kind with
  | .identifier | .constant | .superCall | .selfReference | .instanceVariable | .classVariable
  | .globalVariable => some [tree.as .method]
  | .call =>
    if (tree.part? .arguments).isNone && (tree.part? .block).isNone then some tree.parts else none
  | .scopeResolution =>
    match tree.part? .scope, tree.part? .name with
    | some scope, some name => some [scope.as .receiver, name.as .method]
    | _, _ => none
  | _ => none

/-- The parts of a call to which a block may be added. -/
def Tree.blocklessParts? (tree : Tree) : Option (List Tree) :=
  match tree.calleeParts? with
  | some parts => some parts
  | none => if tree.is .call && (tree.part? .block).isNone then some tree.parts else none

/-- Whether a node can be assigned to. -/
def Tree.isAssignable (tree : Tree) : Bool :=
  match tree.kind with
  | .identifier | .constant | .selfReference | .superCall | .instanceVariable | .classVariable
  | .globalVariable | .nilLiteral | .trueLiteral | .falseLiteral | .scopeResolution
  | .elementReference => true
  | .call =>
    (tree.part? .receiver).isSome && (tree.part? .method).isSome &&
      (tree.part? .arguments).isNone && (tree.part? .block).isNone
  | _ => false

/-- Whether an arrow stands in a text before the bracket that closes it, outside of quotes and of
brackets in it. -/
def hasArrow : Option Char → Nat → List Char → Bool
  | _, _, [] => false
  | some quote, depth, '\\' :: _ :: text => hasArrow (some quote) depth text
  | some quote, depth, c :: text => hasArrow (if c = quote then none else some quote) depth text
  | none, depth, '=' :: '>' :: text => depth = 0 || hasArrow none depth text
  | none, depth, c :: text =>
    match c with
    | '"' | '\'' => hasArrow (some c) depth text
    | '(' | '[' | '{' => hasArrow none (depth + 1) text
    | ')' | ']' | '}' => depth != 0 && hasArrow none (depth - 1) text
    | _ => hasArrow none depth text

namespace Reader

/-! ### Atoms -/

/-- Reads a name that is no reserved word. With a mark it is a call. -/
def plainName : Reader Tree := do
  let text := (← get).rest
  let name := nameOf text
  if name.isEmpty then unexpected
  if (← read).reserved = some (← position) && reservedWords.contains (String.ofList name) then
    unexpected
  let plain ← leaf (nameKind name) name.length
  if name.length = (wordOf text).length then return plain
  return .of .call plain.span [plain.as .method]

/-- Reads a block of statements that a word and braces enclose. -/
def wordBlock (kind : Kind) (wordLength : Nat) : Reader Tree := do
  let start ← position
  eat wordLength
  skipLines
  unless ← accept "\x7b" do unfinished none
  let statements ← statementsUntil []
  unless ← accept "\x7d" do unclosedBody "\x7d" statements
  return .of kind (← spanFrom start) statements

/-- Reads a construct that a word opens and another ends, or a word that is a value. A reserved word
that can open nothing here is a mere name. -/
def wordTree : Reader Tree := do
  match String.ofList (nameOf (← get).rest) with
  | "nil" | "NIL" => leaf .nilLiteral 3
  | "true" | "TRUE" => leaf .trueLiteral 4
  | "false" | "FALSE" => leaf .falseLiteral 5
  | "self" => leaf .selfReference 4
  | "super" => leaf .superCall 5
  | "if" => conditional .ifBranch 2
  | "unless" => conditional .unlessBranch 6
  | "while" => conditionLoop .whileLoop 5
  | "until" => conditionLoop .untilLoop 5
  | "for" => collectionLoop
  | "case" => caseDistinction
  | "begin" => beginBody
  | "def" => methodDefinition
  | "class" => classDefinition
  | "module" => moduleDefinition
  | "redo" => plainJump .redoJump 4
  | "retry" => plainJump .retryJump 5
  | _ => plainName

/-- Reads what a word starts. -/
def wordAtom : Reader Operand := do
  match String.ofList (nameOf (← get).rest) with
  | "return" => jump .returnJump 6
  | "break" => jump .breakJump 5
  | "next" => jump .nextJump 4
  | "yield" => jump .yieldJump 5
  | _ => return { tree := ← wordTree }

/-- Reads a constant that belongs to no scope. -/
def globalConstant : Reader Tree := do
  let start ← position
  ending (Ending.reach start) do
    eat 2
    skipLines
    let word := wordOf (← get).rest
    unless nameKind word = .constant do missing "constant"
    let name ← leaf .constant word.length
    return .of .scopeResolution (← spanFrom start) [name.as .name]

/-- Reads what no word starts. -/
def signAtom : Reader Tree := do
  let text := (← get).rest
  match text with
  | [] => missing "identifier"
  | c :: rest =>
    if c.isDigit then number
    else if startsString text then chained (← quotedString)
    else if c == backQuote then delimited .subshell 1 (.quoted backQuote true)
    else if c == '(' then parenthesized
    else if c == '[' then arrayLiteral
    else if c == '{' then hashLiteral
    else if c == '/' then regexFlags (← delimited .regexLiteral 1 (.quoted '/' true))
    else if startsPercent false text then chained (← percentLiteral)
    else if c == ':' then if rest.head? = some ':' then globalConstant else symbol
    else if c == '-' && rest.head? = some '>' then lambdaLiteral
    else if (heredocStart? text).isSome then heredocBeginning
    else if startsCharacter text then characterLiteral
    else
      match variableOf? text with
      | some (kind, count) => leaf kind count
      | none => unexpected

/-- Reads what a primary starts with. -/
def atom : Reader Operand := do
  if (← peek).any isWordStart then wordAtom
  else return { tree := ← signAtom }

/-! ### Calls -/

/-- Adds a part to a call. -/
def withPart (tree : Tree) (parts : List Tree) (part : Tree) : Reader Tree := do
  return .of .call (← spanFrom tree.span.start) (parts ++ [part])

/-- Reads the method that is called on a receiver. -/
def calledMethod (receiver : Tree) : Reader Tree := do
  let start := receiver.span.start
  if (← get).rest.isEmpty then ending (Ending.reach start) (missing "identifier")
  let text := (← get).rest
  let name := methodNameOf text
  let (kind, count) ←
    if !name.isEmpty then pure (nameKind name, name.length)
    else
      match operatorNameLength? text with
      | some count => pure (.operatorName, count)
      | none => missing "identifier"
  let method ← leaf kind count
  return .of .call (← spanFrom start) [receiver.as .receiver, method.as .method]

/-- Reads what follows a dot: the method that is called, or the arguments of a call without
name. -/
def dottedCall (receiver : Tree) : Reader Tree := do
  if ← sees "(" then
    let arguments ← ending (Ending.follow receiver.span.start (← position)) bracketedArguments
    return .of .call (← spanFrom receiver.span.start)
      [receiver.as .receiver, arguments.as .arguments]
  skipLines
  calledMethod receiver

/-- Reads what follows a double colon: a constant in a scope, or the method of a call. -/
def scopedName (scope : Tree) : Reader Tree := do
  eat 2
  let start := scope.span.start
  if ← sees "(" then return ← dottedCall scope
  skipLines
  let name := nameOf (← get).rest
  let isPlain := name.length = (wordOf (← get).rest).length
  if nameKind name = .constant && isPlain then
    let last ← leaf .constant name.length
    return .of .scopeResolution (← spanFrom start) [scope.as .scope, last.as .name]
  calledMethod scope

/-- The number of characters of the sign of a call at the cursor, zero if there is none. A double
colon stands right after the receiver. -/
def callSignLength (colons : Bool) : Reader Nat := do
  let cursor ← get
  if cursor.sees "&." then return 2
  if cursor.sees "." && !cursor.sees ".." then return 1
  if colons && cursor.sees "::" && !cursor.isSpaced then return 2
  return 0

/-- Reads the indices of an element. -/
def elementReference (object : Tree) : Reader Tree := do
  let start ← position
  eat 1
  let indices ←
    inside start (ending (Ending.follow object.span.start start) (elementsUntil argument "]"))
  return .of .elementReference (← spanFrom object.span.start) (object :: indices)

/-! ### Commands -/

/-- Whether an expression starts with a sign or word that takes an arrow after it for its own. -/
def takesArrow (spaced : Bool) (text : List Char) : Bool :=
  match text with
  | '!' :: _ => true
  | '~' :: _ => true
  | '+' :: rest => !(rest.dropWhile isGap).head?.any Char.isDigit
  | '-' :: c :: rest => !c.isDigit && c != '>' && isPartOfOperand spaced (c :: rest)
  | _ => nameOf text = "not".toList || nameOf text = "defined?".toList

/-- Whether a brace after a name opens a hash that is its argument, rather than a block. -/
def opensHash : Reader Bool := do
  let brace ← get
  let decision ← tentative do
    eat 1
    skipLines
    let text := (← get).rest
    if (keyOf text).isSome || (← sees "**") then return some true
    if ← accept "\x7d" then
      let context ← context
      skipSpace
      return some ((!context.listed && (← sees ",")) ||
        ((← sees "\x7b") && !context.words.contains "\x7b") ||
        ((← seesWord "do") && !context.words.contains "do"))
    if startsString text then
      let _ ← quotedString
      if (← sees ":") && !(← sees "::") then return some true
      set (brace.eat 1)
      skipLines
    unless hasArrow none 0 text && !takesArrow (← get).isSpaced text do return some false
    let key ← within (fun _ => .bracketed) plainValue
    skipSpace
    unless ← accept "=>" do return some false
    skipLines
    let _ ← within (fun _ => .bracketed) plainValue
    skipBlanks
    let isAssignment := key.is .assignment || key.is .operatorAssignment
    return some (!isAssignment && ((← sees ",") || (← sees "\x7d")))
  set brace
  return decision.getD false

/-- Whether a text after the method that is called on a command with a block starts its first
argument: whatever can be one is one. -/
def startsChainedArgument (context : Context) (text : List Char) : Bool :=
  startsArgument context true text ||
    (!text.head?.any isWordStart && startsOperand context text)

/-- Reads the method that is called on a command with a block, with its arguments. -/
def chainedCommand (command : Tree) : Reader (Option Tree) :=
  attempt do
    skipSpace
    let count ← callSignLength true
    if count = 0 then return none
    eat count
    skipLines
    let call ← calledMethod command
    let arguments ← attempt do
      skipSpace
      unless startsChainedArgument (← context) (← get).rest do return none
      some <$> commandArguments []
    match arguments with
    | none => return some call
    | some arguments => return some (← withPart call call.parts (arguments.as .arguments))

/-- Reads the arguments of a call without parentheses, and its block. -/
def command (callee : Tree) (parts : List Tree) : Reader Operand := do
  let arguments ← commandArguments ["do", "\x7b"]
  let call ← withPart callee parts (arguments.as .arguments)
  let block ← attempt do
    skipSpace
    if ← sees "\x7b" then return some (← braceBlock false)
    let words := (← context).words
    if (← seesWord "do") && !words.contains "do" then return some (← doBlock)
    return none
  match block with
  | none => return { tree := call, command := true }
  | some block =>
    let complete ← withPart call call.parts (block.as .block)
    let chained ← chainedCommand complete
    return { tree := chained.getD complete, command := true }

/-! ### Extensions -/

/-- Reads the part that follows a primary without a gap, if there is one. -/
def tightExtension (tree : Tree) : Reader (Option Tree) := do
  let cursor ← get
  if cursor.isSpaced then return none
  if cursor.sees "::" then return some (← scopedName tree)
  if cursor.sees "[" then return some (← elementReference tree)
  if cursor.sees "(" then
    if let some parts := tree.calleeParts? then
      return some (← withPart tree parts ((← bracketedArguments).as .arguments))
  return none

/-- Reads the block that follows the indices of an element, if there is one. -/
def indexedBlock (tree : Tree) : Reader (Option Tree) := do
  let words := (← context).words
  if tree.parts.any fun part => part.is .block || part.is .doBlock then return none
  let block ←
    if (← sees "\x7b") && !words.contains "\x7b" then some <$> braceBlock false
    else if (← seesWord "do") && !words.contains "do" then some <$> doBlock
    else pure none
  match block with
  | none => return none
  | some block =>
    return some (.of .elementReference (← spanFrom tree.span.start) (tree.parts ++ [block]))

/-- Reads the block that follows a primary, if there is one. -/
def blockExtension (tree : Tree) : Reader (Option Tree) := do
  if tree.is .elementReference then return ← indexedBlock tree
  let words := (← context).words
  match tree.blocklessParts? with
  | none => return none
  | some parts =>
    if (← sees "\x7b") && !(tree.is .scopeResolution && words.contains "\x7b") then
      let block ← braceBlock tree.calleeParts?.isSome
      return some (← withPart tree parts (block.as .block))
    if (← seesWord "do") && !words.contains "do" then
      return some (← withPart tree parts ((← doBlock).as .block))
    return none

/-- Reads the arguments without parentheses that follow a primary, if there are any. -/
def commandExtension (tree : Tree) : Reader (Option Operand) := do
  let context ← context
  let cursor ← get
  match tree.calleeParts? with
  | none => return none
  | some parts =>
    unless context.commands do return none
    let isFirst := (tree.is .identifier || tree.is .constant) &&
      context.opening == some tree.span.start
    let followed := if isFirst then context.opened else context
    let follows ←
      if cursor.sees "\x7b" then opensHash
      else pure (startsArgument followed cursor.isSpaced cursor.rest ||
        (context.unnamed && startsUnnamedPair cursor.isSpaced cursor.rest))
    if follows then return some (← command tree parts) else return none

/-- Whether the ampersand of a block argument starts a line, which it cannot go on with. -/
def seesStrayAmpersand (tree : Tree) (before : Cursor) : Reader Bool := do
  let context ← context
  let cursor ← get
  let gap := before.rest.take (cursor.offset - before.offset)
  return tree.calleeParts?.isSome && context.commands && context.lines && cursor.sees "&" &&
    startsArgument context true cursor.rest && gap.contains '\n' && !gap.contains '\\'

/-- One step of building a larger primary. -/
def extension (operand : Operand) : Reader (Option Operand) := do
  if operand.command then return none
  let tree := operand.tree
  if let some longer ← tightExtension tree then return some { tree := longer }
  let before ← get
  attempt do
    skipSpace
    if ← seesStrayAmpersand tree before then unexpected
    if let some command ← commandExtension tree then return some command
    if let some longer ← blockExtension tree then return some { tree := longer }
    let mayChain := tree.is .stringLiteral || tree.is .chainedString
    if (← sees "[") && !mayChain then return some { tree := ← elementReference tree }
    let count ← callSignLength false
    if count = 0 then return none
    eat count
    return some { tree := ← dottedCall tree }

/-- Reads as large a primary as there is from one that has been read. -/
def largest (operand : Operand) : Reader Operand :=
  extend extension operand

/-- Reads a primary. -/
def primary : Reader Operand := do
  largest (← atom)

/-! ### Targets of assignments -/

/-- Reads the targets of a multiple assignment after the first, up to the last comma that a target
follows. -/
def moreTargets : Reader (List Tree) :=
  many <| attempt do
    skipLines
    unless ← accept "," do return none
    skipLines
    if (← sees "=") || (← sees ")") || (← get).rest.isEmpty then return none
    some <$> descend .target

/-- Reads a single target of an assignment. -/
def plainTarget : Reader Tree := do
  let inner ← within (fun context => { context with commands := false, listed := true }) primary
  if inner.tree.isAssignable then return inner.tree
  unexpected

/-- Reads a target of a multiple assignment. -/
def target : Reader Tree := do
  let start ← position
  if ← accept "*" then
    let bare ← get
    skipLines
    let context ← context
    let words := context.words.filter (· == "in")
    if startsOperand { context with words := words } (← get).rest then
      let inner ← plainTarget
      return .of .restAssignment (← spanFrom start) [inner]
    set bare
    return .leaf .restAssignment (← spanFrom start)
  if ← accept "(" then
    skipLines
    let first ← descend .target
    if first.isAssignable then
      skipBlanks
      if (← get).isAtLineEnd then unexpected
    let more ← moreTargets
    skipLines
    let isSeveral := (← accept ",") || !more.isEmpty || first.is .restAssignment ||
      first.is .destructuredLeftAssignment
    unless isSeveral do unexpected
    skipLines
    unless ← accept ")" do missing ")"
    return .of .destructuredLeftAssignment (← spanFrom start) (first :: more)
  plainTarget

end Reader

end RecipeLint.Ruby
