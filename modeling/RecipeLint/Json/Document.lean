/-
**JSON documents.**

The value that a text is. A reader yields a value and the rest of the text, or nothing; blanks and
line ends between the parts of a text do not count. Values nest up to a depth, and the fields of an
object are kept in their order.

* `Scan.string` — a string, with what its escapes stand for.
* `Scan.number` — a number; one without fraction and exponent is an integer.
* `Scan.value` — a value that nests others up to a depth.
* `Json.read?` — the value that a text is.
-/

import RecipeLint.Json
import RecipeLint.Text.Search
import RecipeLint.Toml.Scalar

namespace RecipeLint.Json

/-- A reader of part of a text. -/
abbrev Scan (α : Type) := List Char → Option (α × List Char)

namespace Scan

/-- Characters between the parts of a text that do not count. -/
def isGap (c : Char) : Bool := c == ' ' || c == '\n' || c == '\t' || c == '\r'

/-- A text from the first character on that counts. -/
def dropGap (text : List Char) : List Char := text.dropWhile isGap

/-! ### Strings -/

/-- The number that four hexadecimal digits are. -/
def codeUnit : Scan Nat
  | a :: b :: c :: d :: rest => do
    let values ← [a, b, c, d].mapM Toml.Scan.hexValue?
    return (values.foldl (fun value digit => 16 * value + digit) 0, rest)
  | _ => none

/-- Whether a number is the first of the two that a character beyond the first plane is. -/
def isLeading (unit : Nat) : Bool := 0xD800 ≤ unit && unit ≤ 0xDBFF

/-- Whether a number is the second of the two that a character beyond the first plane is. -/
def isTrailing (unit : Nat) : Bool := 0xDC00 ≤ unit && unit ≤ 0xDFFF

/-- The character that hexadecimal digits stand for, one number or two with their mark between
them. -/
def codePoint : Scan Char := fun text => do
  let (first, text) ← codeUnit text
  if isLeading first then
    -- half a character is none
    let (second, text) ← codeUnit (← Text.strip? ['\\', 'u'] text)
    if isTrailing second then
      return (Char.ofNat (0x10000 + 0x400 * (first - 0xD800) + (second - 0xDC00)), text)
    else none
  else if isTrailing first then none
  else return (Char.ofNat first, text)

/-- The character that an escape stands for, after its backslash. -/
def escape : Scan Char
  | '"' :: rest => some ('"', rest)
  | '\\' :: rest => some ('\\', rest)
  | '/' :: rest => some ('/', rest)
  | 'b' :: rest => some (Char.ofNat 8, rest)
  | 'f' :: rest => some (Char.ofNat 12, rest)
  | 'n' :: rest => some ('\n', rest)
  | 'r' :: rest => some ('\r', rest)
  | 't' :: rest => some ('\t', rest)
  | 'u' :: rest => codePoint rest
  | _ => none

/-- The characters of a string up to its closing quote, at most a number of them. -/
def characters : Nat → Scan (List Char)
  | 0, _ => none
  | _, [] => none
  | bound + 1, c :: text =>
    if c = '"' then some ([], text)
    else if c = '\\' then do
      let (first, text) ← escape text
      let (others, text) ← characters bound text
      return (first :: others, text)
    else if c.toNat < 32 then none
    else do
      let (others, text) ← characters bound text
      return (c :: others, text)

def string : Scan String
  | '"' :: text => do
    let (inner, text) ← characters (text.length + 1) text
    return (String.ofList inner, text)
  | _ => none

/-! ### Numbers -/

def digits : Scan (List Char) := fun text =>
  let run := text.takeWhile Char.isDigit
  if run.isEmpty then none else some (run, text.drop run.length)

/-- The digits of a fraction, if there is one. -/
def fraction : Scan (List Char)
  | '.' :: text => digits text
  | text => some ([], text)

/-- Whether a number has a minus sign; a plus sign may stand where one is allowed. -/
def sign (plus : Bool) : List Char → Bool × List Char
  | '-' :: text => (true, text)
  | '+' :: text => if plus then (false, text) else (false, '+' :: text)
  | text => (false, text)

/-- The power of ten of a number, if it has an exponent. -/
def exponent : Scan (Option Int)
  | [] => some (none, [])
  | c :: text =>
    if c = 'e' ∨ c = 'E' then do
      let (negative, text) := sign true text
      let (run, text) ← digits text
      let value ← decimal? run
      return (some (if negative then -value else value), text)
    else some (none, c :: text)

/-- A number; it is an integer if it has neither a fraction nor an exponent. -/
def number : Scan Json := fun text => do
  let (negative, text) := sign false text
  let (whole, text) ← digits text
  -- only a single zero may start with one
  if whole.head? = some '0' ∧ whole.length ≠ 1 then none
  let (part, text) ← fraction text
  let (power, text) ← exponent text
  let value ← decimal? (whole ++ part)
  -- a zero with a minus sign keeps it, which no integer does
  if part.isEmpty && power.isNone && !(negative && value == 0) then
    return (.integer (if negative then -value else value), text)
  else return (.real negative ⟨value, power.getD 0 - part.length⟩, text)

/-! ### Values -/

/-- A value that nests no others. -/
def scalar : Scan Json := fun text =>
  match text with
  | '"' :: _ => do
    let (inner, text) ← string text
    return (.string inner, text)
  | 'n' :: _ => (Text.strip? "null".toList text).map fun text => (.null, text)
  | 't' :: _ => (Text.strip? "true".toList text).map fun text => (.boolean true, text)
  | 'f' :: _ => (Text.strip? "false".toList text).map fun text => (.boolean false, text)
  | _ => number text

/-- One or more items up to a closing character, with commas between them; at most a number of
items. -/
def items {α : Type} (item : Scan α) (closing : Char) : Nat → Scan (List α)
  | 0, _ => none
  | bound + 1, text => do
    let (first, text) ← item text
    match dropGap text with
    | [] => none
    | c :: text =>
      if c = ',' then
        let (others, text) ← items item closing bound text
        return (first :: others, text)
      else if c = closing then return ([first], text)
      else none

/-- The items of an array or object after its opening character. -/
def enclosed {α : Type} (item : Scan α) (closing : Char) : Scan (List α) := fun text =>
  match dropGap text with
  | [] => none
  | c :: rest => if c = closing then some ([], rest) else items item closing text.length text

def field (value : Scan Json) : Scan (String × Json) := fun text => do
  let (name, text) ← string (dropGap text)
  match dropGap text with
  | ':' :: text =>
    let (given, text) ← value text
    return ((name, given), text)
  | _ => none

/-- A value that nests others up to a depth. -/
def value : (depth : Nat) → Scan Json
  | 0, text => scalar (dropGap text)
  | depth + 1, text =>
    match dropGap text with
    | '[' :: text => do
      let (given, text) ← enclosed (value depth) ']' text
      return (.array given, text)
    | '\x7b' :: text => do
      let (given, text) ← enclosed (field (value depth)) '\x7d' text
      return (.object given, text)
    | text => scalar text

end Scan

/-- How deep values may nest. -/
def depthLimit : Nat := 127

/-- The value that a text is, up to blanks and line ends around it. -/
def read? (text : String) : Option Json := do
  let (value, rest) ← Scan.value depthLimit text.toList
  if (Scan.dropGap rest).isEmpty then return value else none

end RecipeLint.Json
