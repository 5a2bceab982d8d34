/-
**Literals.**

Strings with and without interpolation in their quoted and percent forms, lists of words, symbols,
regular expressions, shell commands, characters, numbers, and the beginnings of here documents.

* `Reader.contents` — the parts of a literal up to its closing delimiter.
* `Reader.percentLiteral?` — the literals that start with a percent sign.
-/

import RecipeLint.Ruby.Spacing

namespace RecipeLint.Ruby

/-- How a literal with delimiters is written. -/
structure Delimiters where
  /-- The delimiter that opens a nested pair, if pairs nest. -/
  opening : Option Char
  /-- The delimiter that ends the literal. -/
  closing : Char
  /-- Whether escapes and interpolations are told apart from text. -/
  interpolates : Bool
  deriving Inhabited

namespace Delimiters

/-- The characters that end a word of a list. -/
def endsWord (c : Char) : Bool :=
  isGap c || c == '\x0b' || c == '\x0c'

/-- The delimiters of a literal quoted by one character. -/
def quoted (quote : Char) (interpolates : Bool) : Delimiters :=
  ⟨none, quote, interpolates⟩

/-- The delimiters of a percent literal by the character that opens it. -/
def percent (opening : Char) (interpolates : Bool) : Delimiters :=
  match opening with
  | '(' => ⟨some '(', ')', interpolates⟩
  | '[' => ⟨some '[', ']', interpolates⟩
  | '{' => ⟨some '{', '}', interpolates⟩
  | '<' => ⟨some '<', '>', interpolates⟩
  | other => ⟨none, other, interpolates⟩

/-- The number of characters of plain text at the start of a text, and the number of pairs left
open after it. In a list of words a gap ends plain text. What might be an interpolation ends plain
text that has begun. -/
def plainRun (delimiters : Delimiters) (words begun : Bool) : List Char → Nat → Nat × Nat
  | [], depth => (0, depth)
  | c :: text, depth =>
    let go := fun depth =>
      let (count, depth) := plainRun delimiters words true text depth
      (count + 1, depth)
    if words && endsWord c then (0, depth)
    else if c = delimiters.closing then
      if depth = 0 then (0, 0) else go (depth - 1)
    else if delimiters.opening = some c then go (depth + 1)
    else if c = '\\' then
      if delimiters.interpolates then (0, depth)
      else
        match text with
        | [] => (1, depth)
        | _ :: text =>
          let (count, depth) := plainRun delimiters words true text depth
          (count + 2, depth)
    else if delimiters.interpolates && Reader.startsInterpolation (c :: text) then (0, depth)
    else if delimiters.interpolates && begun && Reader.mayInterpolate (c :: text) then (0, depth)
    else go depth

end Delimiters

namespace Reader

/-- Reads the parts of a literal, or of a word in a list of words, until what ends it is next. Plain
text that reaches to the end of the text is left. In a list of words, an escape that gaps separate
from a word belongs to it together with the gaps. -/
def contentsUpTo (delimiters : Delimiters) (words : Bool) : Nat → Nat → Reader (List Tree × Nat)
  | 0, depth => return ([], depth)
  | bound + 1, depth => do
    let text := (← get).rest
    let (count, deeper) := delimiters.plainRun words false text depth
    let part ←
      if count ≠ 0 then
        if (text.drop count).isEmpty then pure none else some <$> leaf .stringContent count
      else if delimiters.interpolates && startsInterpolation text then some <$> interpolation
      else if words then
        match spacedEscapeLength? text with
        | some count => some <$> leaf .escapeSequence count
        | none => pure none
      else if delimiters.interpolates && text.head? = some '\\' then some <$> escapeSequence
      else pure none
    match part with
    | none => return ([], deeper)
    | some part =>
      let (parts, final) ← contentsUpTo delimiters words bound deeper
      return (part :: parts, final)

/-- Fails because nothing closes a literal, some parts of which have been read, and which a token
would close. -/
def unclosed {α : Type} (closer : String) (opened : Span) (parts : List Tree) : Reader α := do
  if parts.all (·.is .stringContent) then throw (.unclosed opened)
  let cursor ← get
  let text := trimGaps cursor.rest
  let stop := if text.isEmpty then cursor.last else cursor.offset + Text.size text
  let isLong := parts.length ≠ 1 || opened.start + Ending.shortToken < cursor.last
  let token := if text.isEmpty && isLong then some closer else none
  throw (.ended { token := token, position := cursor.last, last := stop, start := opened.start })

/-- Reads the parts of a literal and its closing delimiter. -/
def contents (closer : String) (delimiters : Delimiters) (opened : Span) :
    Reader (List Tree) := do
  let (parts, _) ← contentsUpTo delimiters false (← bound) 0
  unless (← peek) = some delimiters.closing do unclosed closer opened parts
  eat 1
  return parts

/-- The token that closes a literal of a kind. -/
def closerOf (kind : Kind) : String :=
  match kind with
  | .subshell => String.ofList [backQuote]
  | .regexLiteral => "/"
  | _ => "\""

/-- Reads a literal of a kind whose opening delimiter has a number of characters. -/
def delimited (kind : Kind) (openingLength : Nat) (delimiters : Delimiters) : Reader Tree := do
  let start ← position
  eat openingLength
  let parts ← ending (Ending.reach start) (contents (closerOf kind) delimiters (← spanFrom start))
  let span ← spanFrom start
  modify fun cursor => { cursor with previous := span }
  return .of kind span parts

/-- The number of characters of the gaps and continued lines between the words of a list. -/
def wordGapLength : List Char → Nat
  | '\\' :: '\n' :: text => wordGapLength text + 2
  | c :: text => if isGap c then wordGapLength text + 1 else 0
  | [] => 0

/-- Fails because nothing closes a list of words. -/
def unclosedWords {α : Type} (opened : Span) : Reader α := do
  let cursor ← get
  unless cursor.rest.isEmpty do throw (.unclosed opened)
  throw (.ended
    { token := some ")", position := cursor.offset, last := cursor.offset, start := opened.start })

/-- Reads the words of a list, at most `bound` of them, and its closing delimiter. -/
def wordsUpTo (kind : Kind) (delimiters : Delimiters) (opened : Span) :
    Nat → Nat → Reader (List Tree)
  | 0, _ => return []
  | bound + 1, depth => do
    let gaps ← get
    let (parts, deeper) ← contentsUpTo delimiters true (← Reader.bound) depth
    match parts with
    | first :: _ =>
      let word := Tree.of kind (← spanFrom first.span.start) parts
      return word :: (← wordsUpTo kind delimiters opened bound deeper)
    | [] =>
      let blank := wordGapLength gaps.rest
      if blank ≠ 0 then
        set (gaps.skip blank)
        return ← wordsUpTo kind delimiters opened bound depth
      unless (← peek) = some delimiters.closing do unclosedWords opened
      eat 1
      return []

/-- Reads a list of words of a kind. -/
def wordList (listKind wordKind : Kind) (delimiters : Delimiters) : Reader Tree := do
  let start ← position
  eat 3
  let opened ← spanFrom start
  let words ← ending (Ending.reach start) (wordsUpTo wordKind delimiters opened (← bound) 0)
  let span ← spanFrom start
  modify fun cursor => { cursor with previous := span }
  return .of listKind span words

/-- Takes the letters that change how a regular expression matches. -/
def regexFlags (regex : Tree) : Reader Tree := do
  let flags := ((← get).rest.takeWhile fun c => 'a' ≤ c && c ≤ 'z').length
  eat flags
  return .node regex.role regex.kind ⟨regex.span.start, (← get).last⟩ regex.parts

/-! ### Percent literals -/

/-- Whether a character can open a percent literal. Gaps and the equals sign can do so only where
no operator may stand. -/
def opensPercent (operators : Bool) (c : Char) : Bool :=
  "([\x7b<|!#/\\@$%^&*)]\x7d>+-~,.?:;_\"'".toList.contains c || c == backQuote ||
    (!operators && (isGap c || c == '='))

/-- Whether a text starts with a percent literal, where operators may stand or not. -/
def startsPercent (operators : Bool) (text : List Char) : Bool :=
  match text with
  | '%' :: letter :: rest =>
    if "wWiIqQrxs".toList.contains letter then rest.head?.any (opensPercent operators)
    else opensPercent operators letter
  | _ => false

/-- Reads a literal that starts with a percent sign. -/
def percentLiteral : Reader Tree := do
  match (← get).rest with
  | '%' :: 'w' :: o :: _ => wordList .stringArray .bareString (.percent o false)
  | '%' :: 'W' :: o :: _ => wordList .stringArray .bareString (.percent o true)
  | '%' :: 'i' :: o :: _ => wordList .symbolArray .bareSymbol (.percent o false)
  | '%' :: 'I' :: o :: _ => wordList .symbolArray .bareSymbol (.percent o true)
  | '%' :: 'q' :: o :: _ => delimited .stringLiteral 3 (.percent o false)
  | '%' :: 'Q' :: o :: _ => delimited .stringLiteral 3 (.percent o true)
  | '%' :: 'r' :: o :: _ => regexFlags (← delimited .regexLiteral 3 (.percent o true))
  | '%' :: 'x' :: o :: _ => delimited .subshell 3 (.percent o true)
  | '%' :: 's' :: o :: _ => delimited .delimitedSymbol 3 (.percent o false)
  | '%' :: o :: _ => delimited .stringLiteral 2 (.percent o true)
  | _ => unexpected

/-! ### Here documents -/

/-- The here document that a text begins, and the number of characters of its beginning. -/
def heredocStart? (text : List Char) : Option (Heredoc × Nat) := do
  let rest ← Text.strip? "<<".toList text
  let indented := rest.head?.any fun c => c == '~' || c == '-'
  let mark := if indented then 3 else 2
  let rest := if indented then rest.drop 1 else rest
  match rest with
  | [] => none
  | quote :: word =>
    if quote == '"' || quote == '\'' || quote == backQuote then
      let word := word.takeWhile (· ≠ quote)
      if word.isEmpty then none
      else some (⟨word, quote != '\'', indented⟩, mark + word.length + 2)
    else
      let word := (quote :: word).takeWhile fun c => c.isAlphanum || c == '_'
      if word.isEmpty then none else some (⟨word, true, indented⟩, mark + word.length)

/-- Reads the beginning of a here document. -/
def heredocBeginning : Reader Tree := do
  match heredocStart? (← get).rest with
  | some (heredoc, count) =>
    let beginning ← leaf .heredocBeginning count
    modify fun cursor => { cursor with heredocs := cursor.heredocs ++ [heredoc] }
    return beginning
  | none => unexpected

/-! ### Strings -/

/-- Whether a text starts with a quoted string. -/
def startsString (text : List Char) : Bool :=
  match text with
  | '\'' :: _ => true
  | '"' :: _ => true
  | _ => false

/-- Reads a quoted string. -/
def quotedString : Reader Tree := do
  match (← get).rest with
  | '\'' :: _ => delimited .stringLiteral 1 (.quoted '\'' false)
  | _ => delimited .stringLiteral 1 (.quoted '"' true)

/-- Reads a string in quotes or after a percent sign that follows another, if one starts here. -/
def nextString? : Reader (Option Tree) := do
  let text := (← get).rest
  if startsString text then return some (← quotedString)
  match text with
  | '%' :: letter :: _ =>
    if startsPercent true text && ("qQ".toList.contains letter || opensPercent true letter) then
      return some (← percentLiteral)
    return none
  | _ => return none

/-- Reads the strings that follow a string; together they are one literal. A here document cannot
follow. -/
def chained (first : Tree) : Reader Tree := do
  unless first.is .stringLiteral do return first
  let more ← many <| attempt do
    skipSpace
    if (heredocStart? (← get).rest).isSome then unexpected
    nextString?
  if more.isEmpty then return first
  return .of .chainedString (← spanFrom first.span.start) (first :: more)

/-! ### Symbols, characters and numbers -/

/-- Reads a symbol. -/
def symbol : Reader Tree := do
  match (← get).rest with
  | ':' :: '"' :: _ => delimited .delimitedSymbol 2 (.quoted '"' true)
  | ':' :: '\'' :: _ => delimited .delimitedSymbol 2 (.quoted '\'' false)
  | ':' :: rest =>
    match symbolLength? rest with
    | some count => leaf .simpleSymbol (count + 1)
    | none => unexpected
  | _ => unexpected

/-- Whether a text starts with a character literal: a question mark and one character. -/
def startsCharacter (text : List Char) : Bool :=
  match text with
  | '?' :: c :: _ => !isGap c
  | _ => false

/-- The number of characters that follow the escaped character of a character literal: digits of
its code, or the keys pressed with it. -/
def characterTail (text : List Char) : Nat :=
  match text with
  | '{' :: rest =>
    let digits := (rest.takeWhile isHexDigit).length
    if rest[digits]? = some '}' then digits + 2 else 0
  | '-' :: c :: rest =>
    if isGap c then 0
    else
      match rest with
      | m :: '-' :: d :: _ => if (m == 'M' || m == 'C') && !isGap d then 5 else 2
      | _ => 2
  | _ => (text.takeWhile isHexDigit).length

/-- Reads a character literal. -/
def characterLiteral : Reader Tree := do
  match (← get).rest with
  | '?' :: '\\' :: c :: rest =>
    leaf .characterLiteral (if isGap c then 2 else 3 + characterTail rest)
  | _ => leaf .characterLiteral 2

/-- The number of characters of a run of digits, between which single underscores may stand. -/
def digitsLength (isDigit : Char → Bool) : List Char → Nat
  | '_' :: d :: rest => if isDigit d then 2 + digitsLength isDigit rest else 0
  | d :: rest => if isDigit d then 1 + digitsLength isDigit rest else 0
  | [] => 0

/-- The number of characters of the exponent of a number at the start of a text. -/
def exponentLength (text : List Char) : Nat :=
  match text with
  | e :: rest =>
    if e == 'e' || e == 'E' then
      let signed := rest.head?.any fun c => c == '+' || c == '-'
      let digits := if signed then rest.drop 1 else rest
      let count := if digits.head?.any Char.isDigit then digitsLength Char.isDigit digits else 0
      if count = 0 then 0 else 1 + (if signed then 1 else 0) + count
    else 0
  | [] => 0

/-- The number of characters of a number with a prefix that names its base; zero if there is
none. -/
def radixLength (text : List Char) : Nat :=
  let radix := fun (isDigit : Char → Bool) (digits : List Char) =>
    if digits.head?.any isDigit then 2 + digitsLength isDigit digits else 0
  match text with
  | '0' :: 'x' :: rest => radix isHexDigit rest
  | '0' :: 'X' :: rest => radix isHexDigit rest
  | '0' :: 'b' :: rest => radix (fun c => c == '0' || c == '1') rest
  | '0' :: 'B' :: rest => radix (fun c => c == '0' || c == '1') rest
  | '0' :: 'o' :: rest => radix (fun c => '0' ≤ c && c ≤ '7') rest
  | '0' :: 'O' :: rest => radix (fun c => '0' ≤ c && c ≤ '7') rest
  | '0' :: 'd' :: rest => radix Char.isDigit rest
  | '0' :: 'D' :: rest => radix Char.isDigit rest
  | _ => 0

/-- The kind of the number at the start of a text and its number of characters. -/
def numberLength (text : List Char) : Kind × Nat :=
  let based := radixLength text
  if based ≠ 0 then (.integerNumber, based)
  else
    let whole := digitsLength Char.isDigit text
    let fraction :=
      match text.drop whole with
      | '.' :: d :: rest => if d.isDigit then 2 + digitsLength Char.isDigit rest else 0
      | _ => 0
    let exponent := exponentLength (text.drop (whole + fraction))
    let total := whole + fraction + exponent
    (if total = whole then .integerNumber else .floatNumber, total)

/-- Reads a number, and the letters that make it rational or imaginary. -/
def number : Reader Tree := do
  let start ← position
  let (kind, count) := numberLength (← get).rest
  let plain ← leaf kind count
  let lettered ← attempt do
    skipSpace
    match wordOf (← get).rest with
    | ['r'] =>
      eat 1
      return some (Tree.of .rationalNumber (← spanFrom start) [plain])
    | ['i'] =>
      eat 1
      return some (.of .complexNumber (← spanFrom start) [plain])
    | ['r', 'i'] =>
      eat 2
      return some (.of .complexNumber (← spanFrom start) [.of .rationalNumber plain.span [plain]])
    | _ => return none
  return lettered.getD plain

end Reader

end RecipeLint.Ruby
