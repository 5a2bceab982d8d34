/-
**Reading a Ruby text.**

A cursor walks over the characters of a text and remembers, in bytes, where it is and where the
last token ended. A reader moves the cursor and either yields a value or fails with the place and
the cause. Readers for nested constructs call each other through a `Goal`; the bound on the depth
of such calls is added where the goals are tied together.

* `Reader.many` — repeats a reader until it yields nothing.
* `Reader.descend` — reads a nested construct.
-/

import RecipeLint.Ruby.Failure
import RecipeLint.Ruby.Tree

namespace RecipeLint.Ruby

/-- A here document that has begun on the current line and whose body follows the line. -/
structure Heredoc where
  /-- The word that ends the body. -/
  word : List Char
  /-- Whether the body may hold interpolations and escapes. -/
  interpolates : Bool
  /-- Whether the final word may be indented. -/
  indented : Bool
  deriving Repr, Inhabited

/-- A place in the text, with what has been met on the way that belongs to no construct. -/
structure Cursor where
  /-- The characters still to be read. -/
  rest : List Char
  /-- The number of bytes read. -/
  offset : Nat
  /-- The position after the last token. -/
  last : Nat
  /-- The last token. -/
  previous : Span
  /-- Where the constructs stand that end with the last token, the outermost first. -/
  completed : List Span
  /-- Comments and bodies of here documents, the latest first. -/
  extras : List Tree
  /-- Here documents whose bodies are still to come, the oldest first. -/
  heredocs : List Heredoc
  deriving Inhabited

/-- What holds for the constructs read at a place. -/
structure Context where
  /-- The reserved words, and the brace that opens a block, which may follow what is read. -/
  words : List String := []
  /-- The words that end a list of statements at its start. -/
  closers : List String := []
  /-- The words that end a list of statements after a statement. -/
  laterClosers : List String := []
  /-- Whether the key of a pair after the name of a method may lack its name. -/
  unnamed : Bool := false
  /-- Where the first token after a brace stands that opens either a block or a hash. -/
  opening : Option Nat := none
  /-- Whether a line break ends what is read, rather than being a mere gap. -/
  lines : Bool := true
  /-- Whether a call may take arguments without parentheses. -/
  commands : Bool := true
  /-- Whether a comma may follow what is read. -/
  listed : Bool := false
  /-- Whether an arrow makes what is read a key. -/
  keyed : Bool := false
  /-- Whether a vertical bar ends what is read. -/
  barred : Bool := false
  deriving Inhabited

namespace Context

/-- Where only an expression of operators can stand, not a call without parentheses. -/
def plain (context : Context) : Context :=
  { context with commands := false, keyed := false }

/-- Where a comma separates expressions of operators. -/
def element (context : Context) : Context :=
  { context.plain with listed := true }

/-- Where further words may follow. -/
def before (context : Context) (words : List String) : Context :=
  { context with words := words ++ context.words }

/-- The words that open a further part of a construct with a body, or end it. -/
def partWords : List String :=
  ["end", "rescue", "else", "elsif", "ensure", "when"]

/-- The words that may follow a statement or a condition inside of a construct. -/
def innerWords : List String :=
  "then" :: partWords

/-- A list of statements inside of a construct, which a closing word ends at its start. -/
def body (closers : List String) : Context :=
  { words := innerWords, closers := closers, laterClosers := "in" :: partWords ++ closers,
    unnamed := true }

/-- What holds after the first name behind a brace that opens either a block or a hash: of the words
that may follow a statement inside of a construct, only those that modify it may follow. -/
def opened (context : Context) : Context :=
  { context with words := context.words.filter fun word =>
      word == "rescue" || !innerWords.contains word }

/-- The inside of brackets: line breaks are gaps, commas separate, and arrows make keys. -/
def bracketed : Context :=
  { lines := false, listed := true, keyed := true, unnamed := true }

end Context

/-- An expression that has been read. -/
structure Operand where
  /-- The tree of the expression. -/
  tree : Tree
  /-- Whether it is a command, such as a call without parentheses, to which no operator can be
  applied. -/
  command : Bool := false
  deriving Inhabited

/-- The nested constructs. -/
inductive Goal where
  /-- A list of statements, up to a word or bracket that ends it. -/
  | statements
  /-- A statement with its modifiers. -/
  | statement
  /-- An expression, in which `and` and `or` may join others. -/
  | expression
  /-- An expression of operators that bind at least as tightly as the level, and what it is matched
  against. -/
  | matched (level : Nat)
  /-- An expression of operators that bind at least as tightly as the level. -/
  | operand (level : Nat)
  /-- A formal parameter. -/
  | parameter
  /-- A target of a multiple assignment. -/
  | target
  /-- A pattern; at the top, commas separate the patterns of elements. -/
  | pattern (top : Bool)

/-- What reading a nested construct yields. -/
abbrev Goal.Result : Goal → Type
  | .statements => List Tree
  | .expression => Operand
  | .matched _ => Operand
  | .operand _ => Operand
  | _ => Tree

/-- A way to read every nested construct. -/
abbrev Descent := (goal : Goal) → Context → Cursor → Except Failure (goal.Result × Cursor)

/-- What a reader can ask for. -/
structure Setting where
  /-- How nested constructs are read. -/
  descent : Descent
  /-- More than the number of characters of the text, and so of times that a reader which takes a
  character can be repeated. -/
  bound : Nat
  /-- What holds here. -/
  context : Context
  /-- Where a reserved word stands that is no name, if there is one. -/
  reserved : Option Nat

/-- A reader of part of a text. -/
abbrev Reader := ReaderT Setting (StateT Cursor (Except Failure))

/-! ### The cursor -/

namespace Cursor

/-- The start of a text. -/
def start (text : List Char) : Cursor :=
  { rest := text, offset := 0, last := 0, previous := Span.empty 0, completed := [], extras := [],
    heredocs := [] }

/-- Passes over characters that are no token. -/
def skip (cursor : Cursor) (count : Nat) : Cursor :=
  { cursor with
    rest := cursor.rest.drop count
    offset := cursor.offset + Text.size (cursor.rest.take count) }

/-- Passes over characters that end a token. -/
def eat (cursor : Cursor) (count : Nat) : Cursor :=
  let next := cursor.skip count
  { next with last := next.offset, previous := ⟨cursor.offset, next.offset⟩ }

/-- Whether the text goes on with `expected`. -/
def sees (cursor : Cursor) (expected : String) : Bool :=
  (Text.strip? expected.toList cursor.rest).isSome

/-- Whether the word at the cursor is `expected`. -/
def seesWord (cursor : Cursor) (expected : String) : Bool :=
  nameOf cursor.rest == expected.toList

/-- Whether the word at the cursor is `expected`, whatever mark follows it. -/
def seesStem (cursor : Cursor) (expected : String) : Bool :=
  wordOf cursor.rest == expected.toList

/-- Whether blanks stand between the last token and the cursor. -/
def isSpaced (cursor : Cursor) : Bool :=
  cursor.last < cursor.offset

/-- The range of bytes of the token at the cursor. -/
def tokenSpan (cursor : Cursor) : Span :=
  ⟨cursor.offset, cursor.offset + Text.size (cursor.rest.take (tokenLength cursor.rest))⟩

/-- The end of the last token or of a comment after it. -/
def lastStop (cursor : Cursor) : Nat :=
  match cursor.extras with
  | extra :: _ => if extra.is .comment then max cursor.last extra.span.stop else cursor.last
  | [] => cursor.last

/-- Remembers that a construct which starts at a place ends with the last token. -/
def complete (start : Nat) (cursor : Cursor) : Cursor :=
  if cursor.last ≤ start then cursor
  else
    let inner := cursor.completed.filter fun span => span.stop = cursor.last
    if inner.any fun span => span.start = start then { cursor with completed := inner }
    else { cursor with completed := ⟨start, cursor.last⟩ :: inner }

/-- The failure at a token, given its range of bytes. -/
def failure (cursor : Cursor) (span : Span) : Failure :=
  let inner := cursor.completed.filter fun span => span.stop = cursor.last
  let starts := if inner.isEmpty then [cursor.previous.start] else inner.reverse.map (·.start)
  .unexpected span cursor.previous starts

/-- Whether the cursor is at the end of a line. The carriage return of a line end counts only
where the body of a here document is to start. -/
def isAtLineEnd (cursor : Cursor) : Bool :=
  match cursor.rest with
  | '\n' :: _ => true
  | '\r' :: _ => !cursor.heredocs.isEmpty
  | _ => false

end Cursor

namespace Reader

/-! ### Elementary readers -/

/-- Reads a nested construct. -/
def descend (goal : Goal) : Reader goal.Result :=
  fun setting cursor => setting.descent goal setting.context cursor

/-- What holds here. -/
def context : Reader Context := do
  return (← read).context

/-- More than the number of characters that are left. -/
def bound : Reader Nat := do
  return (← read).bound

/-- Reads where something else holds. -/
def within {α : Type} (change : Context → Context) (reader : Reader α) : Reader α :=
  fun setting cursor => reader { setting with context := change setting.context } cursor

/-- The position of the cursor. -/
def position : Reader Nat := do
  return (← get).offset

/-- The range from a position to the end of the last token. -/
def spanFrom (start : Nat) : Reader Span := do
  return ⟨start, (← get).last⟩

/-- The next character. -/
def peek : Reader (Option Char) := do
  return (← get).rest.head?

/-- Whether the text goes on with `expected`. -/
def sees (expected : String) : Reader Bool := do
  return (← get).sees expected

/-- Whether the word at the cursor is `expected`. -/
def seesWord (expected : String) : Reader Bool := do
  return (← get).seesWord expected

/-- Takes the next characters as a token. -/
def eat (count : Nat) : Reader Unit :=
  modify (·.eat count)

/-- Takes `expected` if the text goes on with it. -/
def accept (expected : String) : Reader Bool := do
  if ← sees expected then
    eat expected.length
    return true
  return false

/-- Takes a word if it is `expected`. -/
def acceptWord (expected : String) : Reader Bool := do
  if ← seesWord expected then
    eat expected.length
    return true
  return false

/-- Takes a word if it is `expected`, where a mark after it cannot belong to it. -/
def acceptStem (expected : String) : Reader Bool := do
  if (← get).seesStem expected then
    eat expected.length
    return true
  return false

/-- Fails at the token at the cursor. -/
def unexpected {α : Type} : Reader α := do
  let cursor ← get
  throw (cursor.failure cursor.tokenSpan)

/-- Fails because the text ends, or because of the token that stands here. One token may complete
what was begun. -/
def unfinished {α : Type} (token : Option String) : Reader α := do
  let cursor ← get
  if cursor.rest.isEmpty then
    throw (.ended
      { token := token, position := cursor.lastStop, last := cursor.last, start := cursor.last })
  else unexpected

/-- Fails because a token should stand here. -/
def missing {α : Type} (token : String) : Reader α :=
  unfinished (some token)

/-- Sees an early end of the text from further outside. -/
def ending {α : Type} (change : Ending → Ending) (reader : Reader α) : Reader α :=
  fun setting cursor =>
    match reader setting cursor with
    | .error (.ended early) => .error (.ended (change early))
    | outcome => outcome

/-- Reads a part of a construct that starts at a place. -/
def inside {α : Type} (start : Nat) (reader : Reader α) : Reader α :=
  fun setting cursor =>
    match reader setting cursor with
    | .error failure => .error (failure.inside start)
    | outcome => outcome

/-- Takes the next characters as a node without parts. -/
def leaf (kind : Kind) (count : Nat) : Reader Tree := do
  let start ← position
  eat count
  return .leaf kind (← spanFrom start)

/-- Reads, and gives up what was read if it yields nothing. -/
def attempt {α : Type} (reader : Reader (Option α)) : Reader (Option α) := do
  let cursor ← get
  match ← reader with
  | some value => return some value
  | none =>
    set cursor
    return none

/-- Reads, and gives up what was read if it fails. -/
def tentative {α : Type} (reader : Reader (Option α)) : Reader (Option α) :=
  fun setting cursor =>
    match reader setting cursor with
    | .ok (some value, after) => .ok (some value, after)
    | _ => .ok (none, cursor)

/-- Reads by the first reader, or by the second if the first fails. If both fail, the failure of the
first stands. -/
def either {α : Type} (first second : Reader α) : Reader α :=
  fun setting cursor =>
    match first setting cursor with
    | .ok result => .ok result
    | .error failure =>
      match second setting cursor with
      | .ok result => .ok result
      | .error _ => .error failure

/-! ### Repetition -/

/-- Repeats a reader at most `bound` times, until it yields nothing. -/
def manyUpTo {α : Type} (reader : Reader (Option α)) : Nat → Reader (List α)
  | 0 => return []
  | bound + 1 => do
    match ← reader with
    | none => return []
    | some value => return value :: (← manyUpTo reader bound)

/-- Repeats a reader, which takes at least a character each time, until it yields nothing. -/
def many {α : Type} (reader : Reader (Option α)) : Reader (List α) := do
  manyUpTo reader (← bound)

/-- Extends a value at most `bound` times, until there is no extension. -/
def extendUpTo {α : Type} (extension : α → Reader (Option α)) : Nat → α → Reader α
  | 0, value => return value
  | bound + 1, value => do
    match ← extension value with
    | none => return value
    | some longer => extendUpTo extension bound longer

/-- Extends a value, by at least a character each time, until there is no extension. -/
def extend {α : Type} (extension : α → Reader (Option α)) (value : α) : Reader α := do
  extendUpTo extension (← bound) value

end Reader

end RecipeLint.Ruby
