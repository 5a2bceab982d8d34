/-
**What stands between tokens.**

Gaps, comments, line continuations, line breaks and the bodies of here documents. Comments and
bodies are put aside; the tree takes them in when it is complete.

* `Reader.skipBlanks` — moves to the next token of the line.
* `Reader.skipLines` — moves to the next token, over line breaks.
* `Reader.skipSpace` — moves to the next token that can go on with what has been read.
* `Reader.terminator` — takes what ends a statement. A line break ends none if the next line goes
  on with a dot or an ampersand, and it stands after the comments that follow the statement.
-/

import RecipeLint.Ruby.Reader

namespace RecipeLint.Ruby

namespace Cursor

/-- Passes over a comment that reaches to the end of the line. -/
def comment (cursor : Cursor) : Cursor :=
  let length := (cursor.rest.takeWhile (· ≠ '\n')).length
  let next := cursor.skip length
  { next with extras := .leaf .comment ⟨cursor.offset, next.offset⟩ :: cursor.extras }

/-- The number of characters up to and with the word `=end` that closes a comment. An equals sign
before another character than the first of the word hides that character. -/
def blockCommentBody? : List Char → Option Nat
  | [] => none
  | '=' :: 'e' :: 'n' :: 'd' :: _ => some 4
  | '=' :: 'e' :: 'n' :: _ :: text => (blockCommentBody? text).map (· + 4)
  | '=' :: 'e' :: c :: text =>
    if c = 'n' then none else (blockCommentBody? text).map (· + 3)
  | '=' :: c :: text =>
    if c = 'e' then none else (blockCommentBody? text).map (· + 2)
  | _ :: text => (blockCommentBody? text).map (· + 1)

/-- The number of characters of a comment between `=begin` and `=end`. -/
def blockCommentLength? (text : List Char) : Option Nat := do
  let inside ← Text.strip? "=begin".toList text
  let line := (inside.takeWhile (· ≠ '\n')).length
  let body := inside.drop line
  let count ← if body.isEmpty then none else blockCommentBody? (body.drop 1)
  let last := ((body.drop (1 + count)).takeWhile (· ≠ '\n')).length
  return 6 + line + 1 + count + last

/-- Passes over a comment of several lines, if one starts here. One that nothing closes is to
blame up to the end of the text. -/
def blockComment (cursor : Cursor) : Except Failure Cursor :=
  match blockCommentLength? cursor.rest with
  | some length =>
    let next := cursor.skip length
    .ok { next with extras := .leaf .comment ⟨cursor.offset, next.offset⟩ :: cursor.extras }
  | none =>
    if cursor.sees "=begin" then
      let body := (cursor.rest.reverse.dropWhile (· = '\n')).reverse
      let span : Span := ⟨cursor.offset, cursor.offset + Text.size body⟩
      .error (.unexpected span span [])
    else .ok cursor

/-- Whether a text starts with a literal with delimiters, or with a sign that may be a part of what
it stands before. -/
def startsAttached (text : List Char) : Bool :=
  match text with
  | ':' :: ':' :: _ => false
  | '-' :: '>' :: _ => false
  | '/' :: c :: _ => !isGap c
  | '%' :: c :: _ => !isGap c
  | '&' :: c :: _ => !isGap c && c != '&' && c != '.'
  | '<' :: '<' :: c :: _ => !isGap c && c != '='
  | c :: _ => c == backQuote || "\"':-*".toList.contains c
  | [] => false

/-- Whether what follows a backslash makes it a mere gap: the end of a line where it may end a
statement, what starts attached to something, or a key. -/
def mayFollowBackslash (lines : Bool) (text : List Char) : Bool :=
  let blank := text.takeWhile isGap
  let rest := text.drop blank.length
  (lines && blank.contains '\n') || startsAttached rest || (keyOf rest).isSome ||
    (nameOf rest).length != (wordOf rest).length

/-- Passes over gaps, comments and continued lines, at most `bound` of them. The end of a line is
not passed, and may end a statement or not. -/
def blanks (lines : Bool) : Nat → Cursor → Except Failure Cursor
  | 0, cursor => .ok cursor
  | bound + 1, cursor =>
    match cursor.rest with
    | [] => .ok cursor
    | ['\\'] => .ok (cursor.skip 1)
    | '\\' :: '\n' :: _ => blanks lines bound (cursor.skip 2)
    | '\\' :: '\r' :: '\n' :: _ => blanks lines bound (cursor.skip 3)
    | '\\' :: c :: rest =>
      if isGap c && mayFollowBackslash lines (c :: rest) then blanks lines bound (cursor.skip 2)
      else
        let span : Span := ⟨cursor.offset + 1, cursor.offset + 1 + c.utf8Size⟩
        .error (.unexpected span span [])
    | '#' :: _ => blanks lines bound cursor.comment
    | c :: _ =>
      if isGap c && !cursor.isAtLineEnd then blanks lines bound (cursor.skip 1) else .ok cursor

end Cursor

namespace Reader

/-- Moves to the next token of the line, or to the end of the line, which may end a statement or
not. -/
def skipGaps (lines : Bool) : Reader Unit := do
  let cursor ← get
  set (← (cursor.blanks lines (← bound) : Except Failure Cursor))

/-- Moves to the next token of the line, or to the end of the line. -/
def skipBlanks : Reader Unit :=
  skipGaps true

/-! ### Escapes and interpolations -/

/-- The number of characters of the escape that starts a text, if it is well formed. -/
def escapeLength? (text : List Char) : Option Nat :=
  let isOctal := fun c : Char => '0' ≤ c && c ≤ '7'
  match text with
  | '\\' :: 'x' :: digits =>
    let count := ((digits.take 2).takeWhile isHexDigit).length
    if count = 0 then none else some (2 + count)
  | '\\' :: 'u' :: '{' :: digits =>
    let count := (digits.takeWhile fun c => isHexDigit c || c == ' ').length
    if count ≠ 0 ∧ digits[count]? = some '}' then some (4 + count) else none
  | '\\' :: 'u' :: digits =>
    if ((digits.take 4).takeWhile isHexDigit).length = 4 then some 6 else none
  | '\\' :: c :: digits =>
    if isOctal c then some (2 + ((digits.take 2).takeWhile isOctal).length) else some 2
  | _ => none

/-- The number of characters of an escape with the ends of lines escaped right before it. -/
def continuedEscapeLength? : List Char → Option Nat
  | '\\' :: '\n' :: rest =>
    if rest.head? = some '\\' then ((continuedEscapeLength? rest).map (· + 2)).or (some 2)
    else some 2
  | text => escapeLength? text

/-- The number of characters of an escape with the gaps and continued lines before it. A continued
line that a gap and no escape follows is a gap itself. -/
def spacedEscapeLength? : List Char → Option Nat
  | '\\' :: '\n' :: rest =>
    match spacedEscapeLength? rest with
    | some count => some (count + 2)
    | none => if rest.head?.any isGap then none else some 2
  | '\\' :: rest => escapeLength? ('\\' :: rest)
  | c :: rest => if isGap c then (spacedEscapeLength? rest).map (· + 1) else none
  | [] => none

/-- Reads an escape. -/
def escapeSequence : Reader Tree := do
  match continuedEscapeLength? (← get).rest with
  | some count => leaf .escapeSequence count
  | none => unexpected

/-- Whether a text after a number sign is a variable whose value the sign alone interpolates. -/
def isShortVariable (text : List Char) : Bool :=
  let startsName := fun c : Char => c.isAlpha || c == '_'
  match text with
  | '@' :: '@' :: c :: _ => startsName c
  | '@' :: c :: _ => startsName c
  | '$' :: '-' :: c :: _ => startsName c
  | '$' :: c :: _ =>
    isPlainWordPart c || c == backQuote || "!@&'+~=/\\,;.<>*$?:\"".toList.contains c
  | _ => false

/-- Whether a text starts with an interpolation. -/
def startsInterpolation (text : List Char) : Bool :=
  match text with
  | '#' :: '{' :: _ => true
  | '#' :: rest => isShortVariable rest
  | _ => false

/-- Whether text of a literal that has begun ends before a text: an interpolation, or what might
be one, starts there. -/
def mayInterpolate (text : List Char) : Bool :=
  match text with
  | '#' :: '{' :: _ => true
  | '#' :: '@' :: _ => true
  | '#' :: '$' :: _ => true
  | _ => false

/-- The statements up to a closing word or bracket. -/
def statementsUntil (closers : List String) : Reader (List Tree) :=
  ending Ending.embody (within (fun _ => .body closers) (descend .statements))

/-- The statements of a clause up to a closing word. -/
def clauseStatements (closers : List String) : Reader (List Tree) :=
  ending Ending.embody
    (within (fun _ => { Context.body closers with unnamed := false }) (descend .statements))

/-- The statements after a brace that opens either a block or a hash, up to the brace that closes
it. -/
def statementsInBrace : Reader (List Tree) := do
  let opening ← position
  ending Ending.embody
    (within (fun _ => { Context.body [] with opening := some opening }) (descend .statements))

/-- Reads an interpolation. -/
def interpolation : Reader Tree := do
  let start ← position
  match (← get).rest with
  | '#' :: '{' :: _ =>
    eat 2
    let statements ← statementsUntil []
    if ← accept "\x7d" then
      return .of .interpolation (← spanFrom start) statements
    ending (fun early => { early with embodied := true }) (unfinished none)
  | _ =>
    eat 1
    match variableOf? (← get).rest with
    | some (kind, count) =>
      let variableNode ← leaf kind count
      return .of .interpolation (← spanFrom start) [variableNode]
    | none => unexpected

/-! ### Bodies of here documents -/

/-- What a scan of the body of a here document finds next. -/
inductive HeredocPiece where
  /-- So many characters of text. -/
  | content (count : Nat)
  /-- The final word, with so many characters. -/
  | finish (count : Nat)
  /-- An escape or an interpolation. -/
  | interruption

/-- The state of a scan of the body of a here document. -/
structure HeredocScan where
  /-- The characters of the final word still to be met. -/
  expected : List Char
  /-- Whether the line may be the last. -/
  mayEnd : Bool
  /-- Whether text has been met. -/
  hasText : Bool
  /-- The number of characters passed. -/
  passed : Nat
  /-- The number of characters that the piece has if it ends here. -/
  sure : Nat

/-- Finds the next piece of the body of a here document. -/
def heredocPiece (heredoc : Heredoc) : Nat → List Char → HeredocScan → HeredocPiece
  | 0, _, scan => .content scan.passed
  | bound + 1, text, scan =>
    if scan.expected.isEmpty then
      let sure := if scan.hasText then scan.sure else scan.passed
      let blanks := (text.takeWhile fun c => c == ' ' || c == '\t').length
      let after := text.drop blanks
      if after.head?.any fun c => c == '\n' || c == '\r' then
        if scan.hasText then .content sure else .finish sure
      else
        heredocPiece heredoc bound after
          { scan with
            expected := heredoc.word, hasText := true
            passed := scan.passed + blanks, sure := sure }
    else
      match text with
      | [] => if scan.hasText then .content scan.passed else .finish scan.passed
      | c :: rest =>
        if scan.mayEnd && scan.expected.head? == some c then
          heredocPiece heredoc bound rest
            { scan with expected := scan.expected.drop 1, passed := scan.passed + 1 }
        else
          let scan := { scan with expected := heredoc.word, mayEnd := false }
          if heredoc.interpolates && c == '\\' then
            if scan.hasText then .content scan.sure else .interruption
          else if heredoc.interpolates && c == '#' then
            if scan.hasText && mayInterpolate text then .content scan.passed
            else if startsInterpolation text then .interruption
            else
              let skipped := if mayInterpolate text then 2 else 1
              heredocPiece heredoc bound (text.drop skipped)
                { scan with passed := scan.passed + skipped, sure := scan.passed }
          else if c == '\n' || c == '\r' then
            let ended := if c == '\r' && rest.head? == some '\n' then rest.drop 1 else rest
            let blanks := (ended.takeWhile fun c => c == ' ' || c == '\t').length
            let passed := scan.passed + (text.length - ended.length) + blanks
            heredocPiece heredoc bound (ended.drop blanks)
              { scan with
                mayEnd := blanks = 0 || heredoc.indented
                hasText := true, passed := passed, sure := passed }
          else
            heredocPiece heredoc bound rest
              { scan with hasText := true, passed := scan.passed + 1, sure := scan.passed + 1 }

/-- Reads a piece of the body of a here document, and whether it is the final word. -/
def heredocPart (heredoc : Heredoc) : Reader (Tree × Bool) := do
  let text := (← get).rest
  match heredocPiece heredoc (2 * text.length + 2) text ⟨heredoc.word, true, false, 0, 0⟩ with
  | .content count => return (← leaf .heredocContent count, false)
  | .finish count => return (← leaf .heredocEnd count, true)
  | .interruption =>
    if text.head? = some '\\' then return (← escapeSequence, false)
    return (← interpolation, false)

/-- Reads the pieces of the body of a here document, at most `bound` of them. -/
def heredocParts (heredoc : Heredoc) : Nat → Reader (List Tree)
  | 0 => return []
  | bound + 1 => do
    let (part, final) ← heredocPart heredoc
    if final then return [part]
    return part :: (← heredocParts heredoc bound)

/-- Puts the body of the oldest open here document aside. The end of the last token stays. -/
def heredocBody : Reader Unit := do
  let cursor ← get
  match cursor.heredocs with
  | [] => return ()
  | heredoc :: later =>
    set { cursor with heredocs := [] }
    let parts ← heredocParts heredoc (2 * (← bound))
    let span ← spanFrom cursor.offset
    modify fun next =>
      { next with
        last := cursor.last
        previous := cursor.previous
        heredocs := later ++ next.heredocs
        extras := .of .heredocBody span parts :: next.extras }

/-! ### Line breaks -/

/-- Moves over line breaks to the next token, passing at most `bound` of them. Comments of several
lines are passed too, or else end the search. -/
def skipLinesUpTo (blocks : Bool) : Nat → Reader Unit
  | 0 => return ()
  | bound + 1 => do
    skipGaps false
    let cursor ← get
    if cursor.isAtLineEnd then
      if cursor.heredocs.isEmpty then set (cursor.skip 1) else heredocBody
      skipLinesUpTo blocks bound
    else if blocks && cursor.sees "=begin" then
      set (← (cursor.blockComment : Except Failure Cursor))
      skipLinesUpTo blocks bound

/-- Moves to the next token, over line breaks. -/
def skipLines : Reader Unit := do
  skipLinesUpTo true (← bound)

/-- Whether a line that starts with a text goes on with what stands before it. -/
def continuesLine (text : List Char) : Bool :=
  match text with
  | '.' :: '.' :: _ => false
  | '.' :: _ => true
  | '&' :: _ => true
  | _ => false

/-- Moves to the next token that can go on with what has been read: over line breaks where they are
mere gaps, or where the next line goes on with it. -/
def skipSpace : Reader Unit := do
  if (← context).lines then
    skipBlanks
    let stop ← get
    if stop.isAtLineEnd then
      skipLinesUpTo false (← bound)
      unless continuesLine (← get).rest do set stop
  else skipLines

/-- Takes a line break that ends a statement, passing at most `bound` lines of comments. -/
def lineBreakUpTo : Nat → Reader Bool
  | 0 => return false
  | bound + 1 => do
    let cursor ← get
    if !cursor.isAtLineEnd then return false
    if !cursor.heredocs.isEmpty then
      heredocBody
      skipBlanks
      return ← lineBreakUpTo bound
    let gaps := (cursor.rest.takeWhile isGap).length
    let ahead := cursor.rest.drop gaps
    if ahead.head? = some '#' then
      set (cursor.skip gaps)
      skipBlanks
      return ← lineBreakUpTo bound
    if continuesLine ahead then return false
    set { cursor with last := cursor.offset }
    return true

/-- Takes what ends a statement, a semicolon or a line break, and yields where it starts. -/
def terminator : Reader (Option Nat) := do
  skipBlanks
  let start ← position
  if ← accept ";" then return some start
  attempt do
    if ← lineBreakUpTo (← bound) then return some (← get).last
    return none

end Reader

end RecipeLint.Ruby
