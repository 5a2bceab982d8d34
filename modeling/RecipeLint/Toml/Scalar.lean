/-
**Keys and simple values of a configuration document.**

Readers for the parts of a TOML document that nest no others: blanks and comments, keys, strings
in their four forms, numbers, dates and times. A reader yields a value and the rest of the text, or
nothing.

* `Scan.key` — a key with its parts between dots.
* `Scan.string`, `Scan.number`, `Scan.moment` — the simple values.
-/

import RecipeLint.Text.Search
import RecipeLint.Toml.Moment
import RecipeLint.Toml.Value
import RecipeLint.Version

namespace RecipeLint.Toml

/-- A reader of part of a document. -/
abbrev Scan := StateT (List Char) Option

namespace Scan

/-! ### Elementary readers -/

/-- Gives up. -/
def refuse {α : Type} : Scan α := fun _ => none

/-- Takes a text that must come next. -/
def expect (text : String) : Scan Unit := fun rest => (Text.strip? text.toList rest).map ((), ·)

/-- Whether a text comes next. -/
def sees (text : String) : Scan Bool := do
  return (Text.strip? text.toList (← get)).isSome

/-- Takes a text if it comes next. -/
def accept (text : String) : Scan Bool := do
  match Text.strip? text.toList (← get) with
  | some rest =>
    set rest
    return true
  | none => return false

/-- Takes the characters that satisfy a condition. -/
def takeWhile (condition : Char → Bool) : Scan (List Char) := do
  let text ← get
  let taken := text.takeWhile condition
  set (text.drop taken.length)
  return taken

/-- Takes one character. -/
def char : Scan Char := do
  match ← get with
  | [] => refuse
  | c :: rest =>
    set rest
    return c

/-- Reads, or leaves the text as it is. -/
def attempt {α : Type} (reader : Scan α) : Scan (Option α) := fun text =>
  match reader text with
  | some (value, rest) => some (some value, rest)
  | none => some (none, text)

/-- Blanks within a line. -/
def blanks : Scan Unit := do
  let _ ← takeWhile fun c => c == ' ' || c == '\t'

/-- Characters that texts and comments may hold. -/
def isPlain (c : Char) : Bool :=
  c == '\t' || (32 ≤ c.toNat && c.toNat ≠ 127)

/-- Takes a comment if one starts here. -/
def comment : Scan Unit := do
  if ← accept "#" then
    let _ ← takeWhile isPlain

/-- Takes a line end if one comes next. -/
def newline : Scan Bool := do
  if ← accept "\n" then return true
  accept "\r\n"

/-- The rest of a line: blanks, a comment and the line end. -/
def endOfLine : Scan Unit := do
  blanks
  comment
  unless (← newline) || (← get).isEmpty do refuse

/-- Blanks, comments and line ends. -/
def space : Nat → Scan Unit
  | 0 => return ()
  | bound + 1 => do
    blanks
    comment
    if ← newline then space bound

/-- Blanks, comments and line ends, as many as there are. -/
def anySpace : Scan Unit := do
  space ((← get).length + 1)

/-! ### Strings -/

/-- The value of a hexadecimal digit. -/
def hexValue? (c : Char) : Option Nat :=
  if c.isDigit then some (c.toNat - '0'.toNat)
  else if 'a' ≤ c ∧ c ≤ 'f' then some (c.toNat - 'a'.toNat + 10)
  else if 'A' ≤ c ∧ c ≤ 'F' then some (c.toNat - 'A'.toNat + 10)
  else none

/-- A character by a number of hexadecimal digits. -/
def codePoint (count : Nat) : Scan Char := do
  let text ← get
  let digits := text.take count
  if digits.length ≠ count then refuse
  match digits.mapM hexValue? with
  | none => refuse
  | some values =>
    let value := values.foldl (fun value digit => 16 * value + digit) 0
    if value.isValidChar then
      set (text.drop count)
      return Char.ofNat value
    refuse

/-- The character that an escape stands for. -/
def escape : Scan Char := do
  match ← char with
  | 'b' => return Char.ofNat 8
  | 't' => return '\t'
  | 'n' => return '\n'
  | 'f' => return Char.ofNat 12
  | 'r' => return '\r'
  | '"' => return '"'
  | '\\' => return '\\'
  | 'u' => codePoint 4
  | 'U' => codePoint 8
  | _ => refuse

/-- The rest of a string in double quotes. -/
def basicRest : Nat → Scan (List Char)
  | 0 => refuse
  | bound + 1 => do
    match ← char with
    | '"' => return []
    | '\\' => return (← escape) :: (← basicRest bound)
    | c => if isPlain c then return c :: (← basicRest bound) else refuse

/-- The rest of a string in single quotes. -/
def literalRest : Scan (List Char) := do
  let text ← takeWhile fun c => isPlain c && c != '\''
  expect "'"
  return text

/-- Blanks and line ends. -/
def emptyLines : Nat → Scan Unit
  | 0 => return ()
  | bound + 1 => do
    blanks
    if ← newline then emptyLines bound

/-- Takes a backslash at the end of a line, the line end, and all blanks and line ends after it. -/
def continuedLine : Scan Unit := do
  expect "\\"
  blanks
  unless ← newline do refuse
  emptyLines ((← get).length + 1)

/-- The quotes, at most two, that belong to a string before its three closing quotes. -/
def closingQuotes (quote : Char) : Scan (Option (List Char)) := do
  let text ← get
  let count := ((text.take 5).takeWhile (· == quote)).length
  if count < 3 then return none
  set (text.drop count)
  return some (List.replicate (count - 3) quote)

/-- The rest of a string of several lines; `escapes` tells whether a backslash is special. -/
def multilineRest (quote : Char) (escapes : Bool) : Nat → Scan (List Char)
  | 0 => refuse
  | bound + 1 => do
    if let some quotes ← closingQuotes quote then return quotes
    if ← newline then return '\n' :: (← multilineRest quote escapes bound)
    if escapes then
      if (← attempt continuedLine).isSome then return ← multilineRest quote escapes bound
      if ← accept "\\" then return (← escape) :: (← multilineRest quote escapes bound)
    let c ← char
    if isPlain c then return c :: (← multilineRest quote escapes bound) else refuse

/-- A string in any of its forms. -/
def string (multiline : Bool) : Scan String := do
  let bound := (← get).length + 1
  if multiline then
    if ← accept "\"\"\"" then
      let _ ← newline
      return String.ofList (← multilineRest '"' true bound)
    if ← accept "'''" then
      let _ ← newline
      return String.ofList (← multilineRest '\'' false bound)
  if ← accept "\"" then return String.ofList (← basicRest bound)
  expect "'"
  return String.ofList (← literalRest)

/-! ### Keys -/

/-- A part of a key. -/
def keyPart : Scan String := do
  if (← sees "\"") || (← sees "'") then string false
  else
    let bare ← takeWhile fun c => c.isAlphanum || c == '_' || c == '-'
    if bare.isEmpty then refuse
    return String.ofList bare

/-- The parts of a key after the first. -/
def keyRest : Nat → Scan (List String)
  | 0 => return []
  | bound + 1 => do
    blanks
    unless ← accept "." do return []
    blanks
    return (← keyPart) :: (← keyRest bound)

/-- The number from which on values nest too deep and keys have too many parts. -/
def depthLimit : Nat := 80

/-- A key with its parts between dots. -/
def key : Scan (List String) := do
  blanks
  let first ← keyPart
  let path := first :: (← keyRest ((← get).length + 1))
  if depthLimit ≤ path.length then refuse
  return path

/-! ### Numbers -/

/-- One or more digits, between which single underscores may stand. -/
def digits (isDigit : Char → Bool) : Scan (List Char) := do
  let run ← takeWhile fun c => isDigit c || c == '_'
  let groups := Text.splitAt '_' run
  if groups.any List.isEmpty then refuse
  return groups.flatten

/-- A sign: whether it is a minus sign. -/
def sign : Scan Bool := do
  if ← accept "-" then return true
  let _ ← accept "+"
  return false

/-- The digits of a number in base ten: no zero before another digit. -/
def decimalDigits : Scan (List Char) := do
  let text ← get
  let run ← digits Char.isDigit
  if run.length ≠ 1 && run.head? = some '0' then
    -- a zero ends the number
    set (text.drop 1)
    return ['0']
  return run

/-- The value of digits in a base. -/
def valueOf (base : Nat) (run : List Char) : Nat :=
  run.foldl (fun value c => base * value + (hexValue? c).getD 0) 0

/-- A whole number that fits into 64 bits with a sign. -/
def wholeNumber (negative : Bool) (value : Nat) : Scan Value :=
  let number : Int := if negative then -value else value
  if -0x8000000000000000 ≤ number ∧ number < 0x8000000000000000 then return .integer number
  else refuse

/-- A whole number in a base other than ten. -/
def basedNumber : Scan Value := do
  if ← accept "0x" then
    wholeNumber false (valueOf 16 (← digits fun c => (hexValue? c).isSome))
  else if ← accept "0o" then
    wholeNumber false (valueOf 8 (← digits fun c => '0' ≤ c && c ≤ '7'))
  else if ← accept "0b" then
    wholeNumber false (valueOf 2 (← digits fun c => c == '0' || c == '1'))
  else refuse

/-- The power of ten of a number with an exponent. -/
def exponent : Scan (Option Int) := do
  let marked ← if ← accept "e" then pure true else accept "E"
  unless marked do return none
  let negative ← sign
  let value := valueOf 10 (← digits Char.isDigit)
  return some (if negative then -value else value)

/-- A number with a fraction or an exponent. Beyond the largest there is none, and what is below
the least is infinite. -/
def realNumber : Scan Value := do
  let negative ← sign
  if ← accept "inf" then return .real (.infinite negative)
  if ← accept "nan" then return .real .undefined
  let whole ← decimalDigits
  let fraction ← if ← accept "." then digits Char.isDigit else pure []
  let power ← exponent
  if fraction.isEmpty && power.isNone then refuse
  let decimal : Decimal := ⟨valueOf 10 (whole ++ fraction), power.getD 0 - fraction.length⟩
  match Binary.ofDecimal decimal with
  | some value => return .real (.finite negative value)
  | none => if negative then return .real (.infinite true) else refuse

/-- A whole number. -/
def integerNumber : Scan Value := do
  if let some based ← attempt basedNumber then return based
  let negative ← sign
  wholeNumber negative (valueOf 10 (← decimalDigits))

/-! ### Dates and times -/

/-- A date, a time of day, or both with or without the distance from universal time. -/
def moment : Scan Value := do
  let text ← get
  match Moment.scan? text with
  | some (moment, rest) =>
    set rest
    return .moment moment
  | none => refuse

/-- A number, a date or a time. -/
def number : Scan Value := do
  if let some moment ← attempt moment then return moment
  if let some real ← attempt realNumber then return real
  integerNumber

end Scan

end RecipeLint.Toml
