/-
**Patterns of paths.**

The patterns by which files are left out or picked. A question mark stands for a character, a star
for any characters, slashes included, and two stars that are a whole component for any components.
Brackets stand for one of several characters, or for none of them.

* `Glob.read` — the pattern of a text, or what is wrong with it and where.
* `Glob.isMatch` — whether a pattern stands for a whole text.
-/

import RecipeLint.Text.Reach

namespace RecipeLint.Glob

/-- Characters between brackets. -/
inductive Choice where
  /-- A single character. -/
  | single (c : Char)
  /-- All characters from one to another. -/
  | range (first last : Char)
  deriving DecidableEq, Repr, Inhabited

/-- Whether a character is among those between brackets. -/
def Choice.allows (c : Char) : Choice → Bool
  | .single only => c == only
  | .range first last => first.toNat ≤ c.toNat && c.toNat ≤ last.toNat

/-- A part of a pattern. -/
inductive Token where
  /-- The character itself. -/
  | char (c : Char)
  /-- Any character. -/
  | anyChar
  /-- Any number of characters. -/
  | anyChars
  /-- Any number of components. -/
  | anyComponents
  /-- A character between brackets. -/
  | within (choices : List Choice)
  /-- A character that is not between brackets. -/
  | except (choices : List Choice)
  deriving DecidableEq, Repr, Inhabited

end RecipeLint.Glob

namespace RecipeLint

/-- A pattern of paths. -/
abbrev Glob := List Glob.Token

/-- What can be wrong with a pattern. -/
inductive GlobFault where
  /-- More than two stars in a row. -/
  | stars
  /-- Two stars that are not a whole component. -/
  | component
  /-- Brackets that are not closed or have nothing between them. -/
  | brackets
  deriving DecidableEq, Repr, Inhabited

/-- A text that is no pattern. -/
structure GlobError where
  /-- The number of characters before the fault. -/
  position : Nat
  /-- What is wrong. -/
  fault : GlobFault
  deriving DecidableEq, Repr, Inhabited

/-- What is said about a fault. -/
def GlobFault.message : GlobFault → String
  | .stars => "wildcards are either regular `*` or recursive `**`"
  | .component => "recursive wildcards must form a single path component"
  | .brackets => "invalid range pattern"

/-- What is said about a text that is no pattern. -/
def GlobError.message (error : GlobError) : String :=
  "Pattern syntax error near position " ++ toString error.position ++ ": " ++ error.fault.message

namespace Glob

/-! ### Reading -/

/-- The characters between brackets. -/
def choices : List Char → List Choice
  | first :: '-' :: last :: rest => .range first last :: choices rest
  | c :: rest => .single c :: choices rest
  | [] => []

/-- The token of brackets, whose opening one has been read, and the number of characters up to and
with the closing one. At least one character stands between them. -/
def brackets? (text : List Char) : Option (Token × Nat) :=
  match text with
  | '!' :: first :: rest =>
    let more := rest.takeWhile (· ≠ ']')
    if more.length < rest.length then
      some (.except (choices (first :: more)), more.length + 3)
    else none
  | '!' :: [] => none
  | first :: rest =>
    let more := rest.takeWhile (· ≠ ']')
    if more.length < rest.length then
      some (.within (choices (first :: more)), more.length + 2)
    else none
  | [] => none

/-- Adds a token for any components, unless one is there and is not the only token. -/
def addComponents (tokens : List Token) : List Token :=
  if 1 < tokens.length ∧ tokens.getLast? = some .anyComponents then tokens
  else tokens ++ [.anyComponents]

/-- The pattern of a text, after the tokens and characters read so far; `before` is the character
before the text, and `skip` characters have been read already. -/
def readFrom (tokens : List Token) (position : Nat) (before : Option Char) :
    (skip : Nat) → List Char → Except GlobError Glob
  | _, [] => .ok tokens
  | skip + 1, c :: rest => readFrom tokens (position + 1) (some c) skip rest
  | 0, c :: rest =>
    let next := fun (token : Token) (skip : Nat) =>
      readFrom (tokens ++ [token]) (position + 1) (some c) skip rest
    if c = '?' then next .anyChar 0
    else if c = '*' then
      let more := rest.takeWhile (· = '*')
      if more.length = 0 then next .anyChars 0
      else if 1 < more.length then .error ⟨position + 2, .stars⟩
      else if position = 0 ∨ before = some '/' then
        match rest.drop 1 with
        | [] => readFrom (addComponents tokens) (position + 1) (some c) 1 rest
        | '/' :: _ => readFrom (addComponents tokens) (position + 1) (some c) 2 rest
        | _ => .error ⟨position + 2, .component⟩
      else .error ⟨position - 1, .component⟩
    else if c = '[' then
      match brackets? rest with
      | some (token, count) => next token count
      | none => .error ⟨position, .brackets⟩
    else next (.char c) 0

/-- The pattern of a text. -/
def read (text : String) : Except GlobError Glob :=
  readFrom [] 0 none 0 text.toList

/-! ### Matching -/

open Text.Reach

/-- The places of a text after a part of a pattern. Any components end after a slash, or with the
text. -/
def Token.after (text : List Char) (marks : List Bool) : Token → List Bool
  | .char only => single (· == only) text marks
  | .anyChar => single (fun _ => true) text marks
  | .anyChars => spread (fun _ => true) false text marks
  | .anyComponents =>
    let later := spread (fun _ => true) false text marks
    either marks (either (single (· == '/') text later) (final later))
  | .within choices => single (fun c => choices.any (Choice.allows c)) text marks
  | .except choices => single (fun c => !choices.any (Choice.allows c)) text marks

/-- Whether a pattern stands for a whole text. -/
def isMatch (glob : Glob) (text : String) : Bool :=
  let chars := text.toList
  isComplete (glob.foldl (Token.after chars) (start chars))

end Glob

end RecipeLint
