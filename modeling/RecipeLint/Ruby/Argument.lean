/-
**Arguments.**

The arguments of calls with and without parentheses, and the elements of arrays and hashes.

* `startsArgument` — whether a text after a name is read as its first argument rather than as an
  operator, a block or a modifier.
* `startsOperand` — whether a text starts an expression where no operator may stand.
* `Reader.bracketedArguments`, `Reader.commandArguments` — the two forms of an argument list.
-/

import RecipeLint.Ruby.Completion
import RecipeLint.Ruby.Literal

namespace RecipeLint.Ruby

/-! ### What a text starts -/

/-- Whether a word goes on with what stands before it. -/
def Context.hasFollower (context : Context) (word : String) : Bool :=
  word == "and" || word == "or" || (context.commands && word == "in") ||
    context.words.contains word

/-- Whether a sign is written right before its operand: something follows, and no gap. -/
def isTight (text : List Char) : Bool :=
  text.head?.any fun c => !isGap c && c != '\x0b' && c != '\x0c'

/-- Whether a text after a minus sign or a star makes the sign a part of its operand: a gap stands
before the sign and none after it. -/
def isPartOfOperand (spaced : Bool) (text : List Char) : Bool :=
  spaced && text.head? != some '=' && (text.isEmpty || isTight text)

/-- Whether a text with a slash is a regular expression where a division could stand as well. -/
def isRegex (spaced : Bool) (text : List Char) : Bool :=
  spaced && text.head?.all fun c => !isGap c && c != '='

/-- Whether a text starts an expression where an operator may stand as well, and where `words` tells
whether the word at its start does. -/
def startsValue (spaced : Bool) (words : String → Bool) (text : List Char) : Bool :=
  match text with
  | [] => false
  | c :: rest =>
    if isWordStart c then words (String.ofList (nameOf text))
    else if c.isDigit || c == '\'' || c == '"' || c == backQuote then true
    else if c == '@' || c == '$' then true
    else if c == ':' then startsSymbol text || (rest.head? == some ':' && spaced)
    else if c == '-' then rest.head? == some '>' || isPartOfOperand spaced rest
    else if c == '/' then isRegex spaced rest
    else if c == '!' then rest.head? != some '=' && rest.head? != some '~'
    else if c == '~' then true
    else if c == '%' then Reader.startsPercent true text
    else if c == '<' then (Reader.heredocStart? text).isSome
    else if c == '?' then Reader.startsCharacter text
    else false

/-- Whether a text after a name, which a gap separates from it or not, starts its first
argument. -/
def startsArgument (context : Context) (spaced : Bool) (text : List Char) : Bool :=
  match text with
  | '[' :: _ => spaced
  | '(' :: _ => spaced
  | '*' :: '*' :: rest => isPartOfOperand spaced rest
  | '*' :: rest => isPartOfOperand spaced rest
  | '&' :: c :: _ => c != '&' && c != '.' && c != '=' && isTight [c]
  | ['&'] => true
  | _ =>
    (argumentKeyOf text).isSome ||
      startsValue spaced (fun word => word != "do" && !context.hasFollower word) text

/-- Whether a text starts an expression where no operator may stand. -/
def startsOperand (context : Context) (text : List Char) : Bool :=
  match text with
  | '[' :: _ => true
  | '(' :: _ => true
  | '{' :: _ => true
  | '+' :: _ => true
  | '-' :: _ => true
  | '!' :: _ => true
  | '/' :: _ => true
  | '.' :: '.' :: _ => true
  | ':' :: ':' :: _ => true
  | '%' :: _ => Reader.startsPercent false text
  | _ =>
    startsValue true
      (fun word => openingWords.contains word || !context.hasFollower word) text

/-- Whether a text starts the upper end of a range, rather than an operator after a range that has
none. -/
def startsUpperEnd (context : Context) (spaced : Bool) (text : List Char) : Bool :=
  match text with
  | '[' :: _ => true
  | '(' :: _ => true
  | '{' :: _ => true
  | '+' :: rest => rest.head? != some '='
  | '-' :: rest => rest.head? != some '='
  | '.' :: '.' :: _ => true
  | ':' :: ':' :: _ => true
  | _ =>
    startsValue spaced
      (fun word => openingWords.contains word || !context.hasFollower word) text

namespace Reader

/-! ### Values -/

/-- Reads an expression of operators. -/
def plainValue : Reader Tree := do
  return (← within Context.element (descend (.operand 0))).tree

/-- Reads the value of a pair whose key has been read. After a name it may be left out. -/
def pairValue (start : Nat) (key : Tree) : Reader Tree := do
  let after ← get
  skipLines
  if !key.is .hashKeySymbol || startsOperand (← context).plain (← get).rest then
    let value ← ending (Ending.settle (← position)) plainValue
    return .of .pair (← spanFrom start) [key, value]
  set after
  return .of .pair (← spanFrom start) [key]

/-- Reads a pair whose key is a name with a colon, if `nameOf` finds one here. -/
def keyedPair? (nameOf : List Char → Option (List Char)) : Reader (Option Tree) := do
  match nameOf (← get).rest with
  | none => return none
  | some name =>
    let start ← position
    let key ← leaf .hashKeySymbol name.length
    eat 1
    return some (← pairValue start key)

/-- Whether a colon right after the name of a method or an opening bracket is a key without a name:
the here document or the lambda behind it can be nothing but its value. -/
def startsUnnamedPair (spaced : Bool) (text : List Char) : Bool :=
  match text with
  | ':' :: rest =>
    let value := rest.dropWhile isGap
    !spaced && rest.head?.any isGap &&
      ((Text.strip? "->".toList value).isSome || (heredocStart? value).isSome)
  | _ => false

/-- Reads a pair whose key is a colon, if one starts here. -/
def unnamedPair? : Reader (Option Tree) := do
  let cursor ← get
  unless startsUnnamedPair cursor.isSpaced cursor.rest do return none
  let key := Tree.leaf .hashKeySymbol (Span.empty cursor.offset)
  eat 1
  return some (← pairValue cursor.offset key)

/-- Reads what a sign such as a star makes of the value after it, which may be left out. -/
def signedBy (value : Reader Tree) (kind : Kind) (length : Nat) : Reader Tree := do
  let start ← position
  eat length
  let after ← get
  skipSpace
  if kind = .blockArgument && (← get).rest.isEmpty && (← get).isSpaced then unfinished none
  if startsOperand (← context).plain (← get).rest then
    let value ← value
    return .of kind (← spanFrom start) [value]
  set after
  return .leaf kind (← spanFrom start)

/-- Reads what a sign makes of an expression of operators. -/
def signed (kind : Kind) (length : Nat) : Reader Tree :=
  signedBy plainValue kind length

/-! ### Pairs and arguments -/

/-- Reads an arrow and the value after it, which make a pair with the key before it. -/
def arrowValue (start : Nat) (key : Tree) : Reader Tree := do
  let arrow ← position
  eat 2
  skipLines
  let value ← ending (Ending.settle arrow) plainValue
  return .of .pair (← spanFrom start) [key, value]

/-- Whether a comma or a closing bracket is next, or the line ends. -/
def seesElementEnd : Reader Bool := do
  skipSpace
  let cursor ← get
  return cursor.isAtLineEnd ||
    cursor.rest.head?.all fun c => c == ',' || c == ')' || c == ']' || c == '}' || c == ';'

/-- The words that name a value only in a pattern. -/
def patternWords : List String := ["__LINE__", "__FILE__", "__ENCODING__"]

/-- Whether an arrow is next with such a word after it. -/
def seesPatternWord : Reader Bool := do
  let arrow ← get
  eat 2
  skipLines
  let found := patternWords.any (← get).seesWord
  set arrow
  return found

/-- Reads what an arrow makes of an expression before it: the key of a pair, or the value that is
matched against a pattern if what follows can only be a pattern. -/
def arrowTail (start : Nat) (key : Tree) : Reader Tree := do
  let pair : Reader Tree := do
    if ← seesPatternWord then unexpected
    let pair ← arrowValue start key
    let after ← get
    let words := (← context).words
    let isLast ← seesElementEnd
    let cursor ← get
    let opensBlock := words.contains "\x7b" && cursor.sees "\x7b"
    unless isLast || opensBlock || words.any cursor.seesWord do unexpected
    set after
    return pair
  let matchedTree : Reader Tree := do
    eat 2
    skipLines
    if constructWords.any (← get).seesWord then unexpected
    let pattern ← descend (.pattern true)
    return .of .matchPattern (← spanFrom start) [key, pattern]
  either pair matchedTree

/-- Reads what follows an expression that may be the key of a pair. -/
def pairTail (start : Nat) (key : Operand) : Reader Tree := do
  if key.command then return key.tree
  if key.tree.is .stringLiteral && (← sees ":") && !(← sees "::") then
    eat 1
    return ← pairValue start key.tree
  let pair ← attempt do
    skipSpace
    unless ← sees "=>" do return none
    return some (← arrowTail start key.tree)
  return pair.getD key.tree

/-- Whether three dots stand for the arguments of the surrounding method. -/
def seesForwarding : Reader Bool := do
  unless ← sees "..." do return false
  let cursor ← get
  eat 3
  skipSpace
  let isRange := startsOperand (← context) (← get).rest
  set cursor
  return !isRange

/-- Reads an argument whose value is no pair by the reader of such a value. -/
def argumentOf (plain : Reader Operand) : Reader Tree := do
  if let some pair ← keyedPair? argumentKeyOf then return pair
  if let some pair ← unnamedPair? then return pair
  if ← sees "**" then return ← signed .hashSplatArgument 2
  if ← sees "*" then return ← signed .splatArgument 1
  if ← sees "&" then
    unless startsArgument (← context) true (← get).rest do unexpected
    return ← signed .blockArgument 1
  if ← seesForwarding then return ← leaf .forwardArgument 3
  let start ← position
  let value ← plain
  pairTail start value

/-- Reads an argument or an element between brackets, where `and` and `or` may join expressions. -/
def argument : Reader Tree :=
  argumentOf (descend .expression)

/-- Reads an argument without parentheses: `and` and `or` after it join the whole call to what
follows. -/
def commandArgument : Reader Tree :=
  argumentOf (descend (.matched 2))

/-- Reads an element of a hash. -/
def hashElement : Reader Tree := do
  if let some pair ← keyedPair? keyOf then return pair
  if ← sees "**" then return ← signed .hashSplatArgument 2
  let start ← position
  let key ← plainValue
  if key.is .stringLiteral && (← sees ":") && !(← sees "::") then
    eat 1
    return ← pairValue start key
  skipSpace
  unless ← sees "=>" do unfinished none
  arrowValue start key

/-! ### Lists -/

/-- Reads elements separated by commas up to a closing bracket, at most `bound` of them after a
number of others. A comma that another follows is to blame itself. -/
def elementsUpTo (element : Reader Tree) (closing : String) : Nat → Nat → Reader (List Tree)
  | 0, _ => missing closing
  | bound + 1, count => do
    skipLines
    if ← accept closing then return []
    if (← get).rest.isEmpty then
      ending (fun early => { early with embodied := count = 0 }) (missing closing)
    let value ← ending Ending.enclose element
    skipLines
    if ← accept closing then return [value]
    let comma ← get
    unless ← accept "," do
      let isClear := closing = "\x7d" || value.admitsBracket count
      unfinished (if isClear then some closing else none)
    skipLines
    if ← sees "," then throw (.unexpected comma.tokenSpan comma.tokenSpan [])
    return value :: (← elementsUpTo element closing bound (count + 1))

/-- Reads elements separated by commas up to a closing bracket. -/
def elementsUntil (element : Reader Tree) (closing : String) : Reader (List Tree) := do
  within (fun _ => .bracketed) (elementsUpTo element closing (← bound) 0)

/-- Reads the arguments between parentheses. -/
def bracketedArguments : Reader Tree := do
  let start ← position
  eat 1
  let arguments ← inside start (ending (Ending.settle start) (elementsUntil argument ")"))
  modify (·.complete start)
  return .of .argumentList (← spanFrom start) arguments

/-- Reads arguments without parentheses, which one of the words may follow. -/
def commandArguments (words : List String) : Reader Tree :=
  within (fun context =>
      { context.before ("and" :: "or" :: words) with
        commands := true, listed := true, keyed := true, unnamed := false }) do
    let start ← position
    let first ← ending (Ending.settle start) commandArgument
    let more ← many <| attempt do
      skipSpace
      let comma ← get
      unless ← accept "," do return none
      skipLines
      if ← sees "," then throw (.unexpected comma.tokenSpan comma.tokenSpan [])
      some <$> ending (Ending.settle comma.offset) commandArgument
    return .of .argumentList (← spanFrom start) (first :: more)

/-- Reads an array. -/
def arrayLiteral : Reader Tree := do
  let start ← position
  eat 1
  let elements ← ending (Ending.reach start) (elementsUntil argument "]")
  return .of .arrayLiteral (← spanFrom start) elements

/-- Reads a hash. -/
def hashLiteral : Reader Tree := do
  let start ← position
  eat 1
  let elements ← ending (Ending.reach start) (elementsUntil hashElement "\x7d")
  return .of .hashLiteral (← spanFrom start) elements

/-- The closing token that alone completes a construct here: the body before it is empty, or its
last statement has no terminator and admits the token. -/
def closerAfter (closer : String) (body : List Tree) : Reader (Option String) := do
  let cursor ← get
  match body.getLast? with
  | none => return some closer
  | some last =>
    return if cursor.offset = cursor.last && last.admitsEnd then some closer else none

/-- Fails because the token that closes a construct after its body is missing. -/
def unclosedBody {α : Type} (closer : String) (body : List Tree) : Reader α := do
  let parts := (body.filter (·.kind.wrapsBody)).flatMap Tree.parts
  let statements := if parts.any (·.is .rescueClause) then [] else parts.map (·.span)
  ending (fun early => { early with statements := statements })
    (unfinished (← closerAfter closer body))

/-- Reads statements between parentheses. -/
def parenthesized : Reader Tree := do
  let start ← position
  ending (Ending.reach start) do
    eat 1
    let statements ← statementsUntil []
    if ← accept ")" then return .of .parenthesizedStatements (← spanFrom start) statements
    unclosedBody ")" statements

end Reader

end RecipeLint.Ruby
