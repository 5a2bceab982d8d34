/-
**Statements and programs.**

Lists of statements, statements with their modifiers, and expressions joined by words. The goals
of the readers are tied together here, with a bound on how deep they nest.

* `Reader.rule` — the reader of each nested construct.
* `Reader.descent` — the readers with nested constructs up to a depth.
* `readProgram` — the concrete tree of a text.
-/

import RecipeLint.Ruby.Operator

namespace RecipeLint.Ruby

namespace Reader

/-! ### Expressions -/

/-- Reads an expression, in which `and` and `or` may join others. -/
def expression : Reader Operand := do
  let first ← descend (.matched (joiningLevel + 1))
  first |> extend fun left => attempt do
    skipSpace
    let count ← joiningLength
    if count = 0 then return none
    eat count
    skipLines
    let right ←
      within (fun context => { context with unnamed := false })
        (descend (.matched (joiningLevel + 1)))
    let tree := Tree.of .binary (← spanFrom first.tree.span.start) [left.tree, right.tree]
    return some { tree := tree, command := left.command || right.command : Operand }

/-! ### Statements -/

/-- The words that modify the statement before them. -/
def modifiers : List (String × Kind) :=
  [("if", .ifModifier), ("unless", .unlessModifier), ("while", .whileModifier),
   ("until", .untilModifier), ("rescue", .rescueModifier)]

/-- Reads a modifier of the statement before it. -/
def modifier (statement : Tree) : Reader (Option Tree) :=
  attempt do
    skipSpace
    let cursor ← get
    match modifiers.find? fun (word, _) => cursor.seesStem word with
    | none => return none
    | some (word, kind) =>
      eat word.length
      skipLines
      let test ← descend .expression
      return some (.of kind (← spanFrom statement.span.start) [statement, test.tree])

/-- Reads a statement without its modifiers. -/
def bareStatement : Reader Tree := do
  let cursor ← get
  if cursor.seesWord "alias" then aliasName
  else if cursor.seesWord "undef" then undefName
  else if cursor.seesWord "BEGIN" then wordBlock .beginBlock 5
  else if cursor.seesWord "END" then wordBlock .endBlock 3
  else return (← descend .expression).tree

/-- Reads a statement with its modifiers. -/
def statement : Reader Tree :=
  within (·.before (modifiers.map (·.1))) do
    let bare ← bareStatement
    extend modifier bare

/-- Whether a list of statements ends before a text. -/
def endsStatements (words : List String) (text : List Char) : Bool :=
  match text with
  | [] => true
  | c :: _ =>
    isCloser c || words.contains (String.ofList (nameOf text))

/-- Reads a list of at most `bound` statements, which one of the words ends at its start. Only the
last may lack a terminator. -/
def statementsUpTo (closers : List String) : Nat → Reader (List Tree)
  | 0 => return []
  | bound + 1 => do
    skipLines
    let text := (← get).rest
    if endsStatements closers text then return []
    let later := (← context).laterClosers
    if text.head? = some ';' then
      let empty ← leaf .emptyStatement 1
      return empty :: (← statementsUpTo later bound)
    let first ← ending (Ending.reach (← position)) (descend .statement)
    if (← terminator).isNone then return [first]
    return first :: (← statementsUpTo later bound)

/-- Reads a list of statements and moves to the token after it. -/
def statements : Reader (List Tree) := do
  let list ← statementsUpTo (← context).closers (← bound)
  skipLines
  return list

/-! ### Nesting -/

/-- The reader of each nested construct. -/
def rule : (goal : Goal) → Reader goal.Result
  | .statements => statements
  | .statement => statement
  | .expression => expression
  | .matched level => matched level
  | .operand level => operand level
  | .parameter => parameter
  | .target => target
  | .pattern top => if top then topPattern else patternExpression

/-- Reads nested constructs up to a depth, each with at most `bound` repetitions. -/
def descent (bound : Nat) (reserved : Option Nat) : Nat → Descent
  | 0, _, _, cursor => .error (cursor.failure cursor.tokenSpan)
  | depth + 1, goal, context, cursor =>
    match rule goal ⟨descent bound reserved depth, bound, context, reserved⟩ cursor with
    | .ok (result, after) => .ok (result, after.complete cursor.offset)
    | .error failure => .error (failure.inside cursor.offset)

end Reader

/-! ### Programs -/

/-- Every nested construct is followed by fewer than this many others before a character is
read. -/
def nestingPerCharacter : Nat := 8

/-- The mark of the encoding that may stand before a text. -/
def byteOrderMark : Char := Char.ofNat 0xFEFF

/-- The word after which a text is data and no program. -/
def dataWord : String := "__END__"

/-- The number of characters of the closing brackets and words at the start of a text, and of the
gaps between them. -/
def closersLength : Nat → List Char → Nat
  | 0, _ => 0
  | bound + 1, text =>
    let gaps := (text.takeWhile isGap).length
    let rest := text.drop gaps
    if rest.head?.any isCloser || nameOf rest = "end".toList then
      let count := gaps + tokenLength rest
      count + closersLength bound (text.drop count)
    else 0

/-- Fails at a token that nothing can take, and at the closing brackets and words after it. -/
def strayToken {α : Type} : Reader α := do
  let cursor ← get
  let bound ← Reader.bound
  let count := if cursor.rest.head?.any isCloser then closersLength bound cursor.rest else 0
  let closers := Text.size (cursor.rest.take count)
  let span : Span := ⟨cursor.offset, max cursor.tokenSpan.stop (cursor.offset + closers)⟩
  throw (cursor.failure span)

/-- Reads a text to its end, with the data after it as a part of its own. -/
def program : Reader (List Tree) := do
  if (← Reader.peek) = some byteOrderMark then modify fun cursor => cursor.skip 1
  let statements ←
    Reader.within
      (fun _ =>
        { words := [dataWord], closers := [dataWord], laterClosers := [dataWord], unnamed := true })
      (Reader.descend .statements)
  if (← get).rest.isEmpty then return statements
  if ← Reader.acceptWord dataWord then
    return statements ++ [← Reader.leaf .uninterpreted (← get).rest.length]
  strayToken

/-- The concrete tree of a text, where a reserved word at a position is no name: what was put aside
while reading stands in the innermost construct around it. -/
def readProgramWith (reserved : Option Nat) (text : List Char) : Except Failure Tree := do
  let bound := text.length + 2
  let depth := nestingPerCharacter * bound
  let (parts, cursor) ←
    program ⟨Reader.descent bound reserved depth, bound, {}, reserved⟩ (Cursor.start text)
  let extras := cursor.extras.mergeSort fun first second => first.span.start ≤ second.span.start
  return extras.foldl (fun tree extra => Tree.insert extra tree)
    (.of .program ⟨0, Text.size text⟩ parts)

/-- The concrete tree of a text. -/
def readProgram (text : List Char) : Except Failure Tree :=
  readProgramWith none text

end RecipeLint.Ruby
