/-
**Why a text cannot be read.**

A text is wrong at a token that nothing can take, or it ends too early. In the second case what was
begun is either completed by one token, which is said to be missing, or dropped, which makes it
unexpected. Dropping is right where more than one token is missing, and where it costs a single
short token.

* `Ending` — how a text ends too early, as seen from the constructs around the end.
* `Ending.verdict` — the tokens that are missing or dropped.
-/

import RecipeLint.Span
import RecipeLint.Text.Bytes
import RecipeLint.Ruby.Word

namespace RecipeLint.Ruby

/-! ### Tokens -/

/-- The closing brackets. -/
def isCloser (c : Char) : Bool :=
  c == ')' || c == ']' || c == '}'

/-- The signs of more than one character, a longer one before one that it starts with. -/
def longSigns : List String :=
  ["**=", "<=>", "===", "...", "<<=", ">>=", "&&=", "||=", "**", "==", "=~", "=>", "!=", "!~", "<=",
   "<<", ">=", ">>", "&&", "||", "&.", "::", "@@", "..", "->", "+=", "-=", "*=", "/=", "%=", "|=",
   "&=", "^="]

/-- The number of characters up to and with a closing quote; zero if there is none on the line. -/
def quotedLength (quote : Char) : List Char → Nat
  | [] => 0
  | '\n' :: _ => 0
  | '\\' :: _ :: text =>
    let rest := quotedLength quote text
    if rest = 0 then 0 else rest + 2
  | c :: text =>
    if c = quote then 1
    else
      let rest := quotedLength quote text
      if rest = 0 then 0 else rest + 1

/-- The number of characters of the token at the start of a text: a word, a number, a variable, a
symbol, a quoted text, a sign, or else one character. -/
def tokenLength (text : List Char) : Nat :=
  let number := (text.takeWhile Char.isDigit).length
  let name := (nameOf text).length
  if number ≠ 0 then number
  else if name ≠ 0 then name
  else
    match variableOf? text with
    | some (_, length) => length
    | none =>
      match longSigns.find? fun sign => (Text.strip? sign.toList text).isSome with
      | some sign => sign.length
      | none =>
        match text with
        | ':' :: rest => 1 + (symbolLength? rest).getD 0
        | '"' :: rest => 1 + quotedLength '"' rest
        | '\'' :: rest => 1 + quotedLength '\'' rest
        | _ => 1

/-! ### Early ends -/

/-- How a text ends too early. -/
structure Ending where
  /-- The token that alone would complete what was begun, if there is one. -/
  token : Option String := none
  /-- Where that token would stand. -/
  position : Nat
  /-- The end of the last token. -/
  last : Nat
  /-- The start of the tokens that are dropped otherwise. -/
  start : Nat
  /-- Whether what stands before the start is complete. -/
  settled : Bool := false
  /-- Whether what is not complete leaves nothing to keep of a body around it. -/
  embodied : Bool := false
  /-- Whether all of the text is dropped. -/
  whole : Bool := false
  /-- The statements in a body that lacks nothing but its end. -/
  statements : List Span := []
  deriving Repr, Inhabited

/-- Why a text cannot be read. -/
inductive Failure where
  /-- The bytes that no construct can take, the token before them, and where the constructs start
  that were begun or have just been completed, the innermost first. -/
  | unexpected (span previous : Span) (starts : List Nat)
  /-- The delimiter of a literal that nothing closes. -/
  | unclosed (span : Span)
  /-- The end of the text, where something should follow. -/
  | ended (ending : Ending)
  deriving Repr, Inhabited

/-- What is wrong with a text. -/
inductive Verdict where
  /-- The bytes that are dropped. -/
  | dropped (span : Span)
  /-- A token that should stand at a position. -/
  | missing (token : String) (position : Nat)
  deriving DecidableEq, Repr, Inhabited

namespace Ending

/-- The end as seen from a construct that starts earlier. -/
def reach (start : Nat) (ending : Ending) : Ending :=
  if ending.settled then ending else { ending with start := start }

/-- The end as seen from a construct before whose start all is complete. -/
def settle (start : Nat) (ending : Ending) : Ending :=
  if ending.settled then ending else { ending with start := start, settled := true }

/-- The end as seen from a bracket that follows something. A lone bracket at the end of the text is
seen together with what is before it. -/
def follow (before bracket : Nat) (ending : Ending) : Ending :=
  let settled := ending.settle bracket
  if ending.last = bracket + 1 then { settled with start := before } else settled

/-- The end as seen from brackets around it, which have to be closed as well. -/
def enclose (ending : Ending) : Ending :=
  { ending with token := none, settled := false, statements := [] }

/-- The end as seen from a construct whose body it is in, which has to be ended as well. -/
def embody (ending : Ending) : Ending :=
  { ending.enclose with whole := ending.whole || ending.embodied }

/-- The greatest number of bytes of a token that is dropped rather than completed. -/
def shortToken : Nat := 9

/-- Whether the tokens that would be dropped are a single short one. -/
def dropsOne (source : List Char) (ending : Ending) : Bool :=
  match Text.slice? source ending.start ending.last with
  | some text =>
    let token := trimGaps text
    tokenLength token = token.length && Text.size token ≤ shortToken
  | none => false

/-- The tokens that are missing or dropped. -/
def verdict (source : List Char) (ending : Ending) : Verdict :=
  let dropped := Verdict.dropped ⟨ending.start, ending.last⟩
  if ending.whole then
    if ending.start + shortToken < ending.last then
      .dropped ⟨Text.size (source.takeWhile isGap), Text.size source⟩
    else dropped
  else
    match ending.token with
    | none => dropped
    | some token => if ending.dropsOne source then dropped else .missing token ending.position

end Ending

/-- The greatest number of constructs around a failure that are remembered. -/
def rememberedStarts : Nat := 16

/-- A failure as seen from a construct around it. -/
def Failure.inside (start : Nat) : Failure → Failure
  | .unexpected span previous starts =>
    if starts.length < rememberedStarts && !starts.contains start then
      .unexpected span previous (starts ++ [start])
    else .unexpected span previous starts
  | failure => failure

/-- Whether a delimiter is the last token of a text, and something other than an opening bracket
stands before it on its line. -/
def closesLine (source : List Char) (delimiter : Span) : Bool :=
  match Text.split? source delimiter.start with
  | some (before, after) =>
    let line := before.reverse.takeWhile (· ≠ '\n')
    (line.find? fun c => !isGap c).any (fun c => !"([\x7b".toList.contains c) &&
      (after.drop (delimiter.stop - delimiter.start)).all isGap
  | none => false

/-- The bytes that are dropped together with a delimiter that nothing closes, if what follows it is
no program either: all of the text if the delimiter ends it in a construct with a body. -/
def Failure.dropWith (source : List Char) (delimiter : Span) : Failure → Span
  | .unexpected span _ _ =>
    match Text.slice? source span.start span.stop with
    | some (c :: _) =>
      if isCloser c then ⟨delimiter.start, max delimiter.stop span.stop⟩ else delimiter
    | _ => delimiter
  | .unclosed _ => delimiter
  | .ended ending =>
    if ending.embodied && closesLine source delimiter then
      ⟨Text.size (source.takeWhile isGap), Text.size source⟩
    else ⟨min delimiter.start ending.start, max delimiter.stop ending.last⟩

end RecipeLint.Ruby
