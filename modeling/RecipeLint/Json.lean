/-
**JSON values.**

The values in which reports are exchanged, their text with one item a line, and the questions
asked of values that are read.

* `Json.pretty` — the text of a value.
* `Json.fields?` — the fields of a record, by name or by position.
-/

import RecipeLint.Decimal
import RecipeLint.Span

namespace RecipeLint

/-- A JSON value. -/
inductive Json where
  | null
  | boolean (value : Bool)
  | integer (value : Int)
  | real (negative : Bool) (value : Decimal)
  | string (text : String)
  | array (elements : List Json)
  | object (fields : List (String × Json))
  deriving Repr, Inhabited

namespace Json

/-- A natural number as a value. -/
def natural (value : Nat) : Json := .integer value

/-- A value, or null if there is none. -/
def orNull : Option Json → Json
  | some value => value
  | none => .null

/-- A field that is left out if it has no value. -/
def optionalField (name : String) : Option Json → List (String × Json)
  | some value => [(name, value)]
  | none => []

/-! ### Text -/

/-- A hexadecimal digit. -/
def hexDigit (value : Nat) : Char :=
  if value < 10 then Char.ofNat ('0'.toNat + value) else Char.ofNat ('a'.toNat + (value - 10))

/-- A character as it is written between quotes. -/
def escaped (c : Char) : List Char :=
  if c = '"' then ['\\', '"']
  else if c = '\\' then ['\\', '\\']
  else if c = '\n' then ['\\', 'n']
  else if c = '\r' then ['\\', 'r']
  else if c = '\t' then ['\\', 't']
  else if c.toNat = 8 then ['\\', 'b']
  else if c.toNat = 12 then ['\\', 'f']
  else if c.toNat < 32 then ['\\', 'u', '0', '0', hexDigit (c.toNat / 16), hexDigit (c.toNat % 16)]
  else [c]

/-- A text between quotes. -/
def quoted (text : String) : String :=
  String.ofList ('"' :: text.toList.flatMap escaped ++ ['"'])

/-- A decimal with a sign; a whole number has one digit after the point. -/
def realText (negative : Bool) (value : Decimal) : String :=
  (if negative then "-" else "") ++ value.positional ++ if 0 ≤ value.exponent then ".0" else ""

/-- The line break and the blanks before an item at a depth. -/
def lineBreak (depth : Nat) : String :=
  String.ofList ('\n' :: List.replicate (2 * depth) ' ')

/-- Items of an array or object at a depth, between its brackets. -/
def bracketed (opening closing : String) (depth : Nat) (items : List String) : String :=
  if items.isEmpty then opening ++ closing
  else
    opening ++ lineBreak (depth + 1) ++
      ("," ++ lineBreak (depth + 1)).intercalate items ++ lineBreak depth ++ closing

mutual

/-- The text of a value at a depth. -/
def prettyAt (depth : Nat) : Json → String
  | .null => "null"
  | .boolean value => if value then "true" else "false"
  | .integer value => toString value
  | .real negative value => realText negative value
  | .string text => quoted text
  | .array elements => bracketed "[" "]" depth (prettyElements (depth + 1) elements)
  | .object fields => bracketed "\x7b" "\x7d" depth (prettyFields (depth + 1) fields)

/-- The texts of the elements of an array. -/
def prettyElements (depth : Nat) : List Json → List String
  | [] => []
  | element :: elements => prettyAt depth element :: prettyElements depth elements

/-- The texts of the fields of an object. -/
def prettyFields (depth : Nat) : List (String × Json) → List String
  | [] => []
  | (name, value) :: fields =>
    (quoted name ++ ": " ++ prettyAt depth value) :: prettyFields depth fields

end

/-- The text of a value, with one item a line and two blanks a level. -/
def pretty (value : Json) : String := prettyAt 0 value

/-! ### Reading -/

/-- The value of a field of an object. -/
def get? (fields : List (String × Json)) (name : String) : Option Json :=
  (fields.find? fun field => field.1 == name).map (·.2)

/-- The values of the fields of a record, which is an object, or an array of the values in their
order. A field may be left out, of an array only at the end, and no field may be given twice. -/
def fields? (names : List String) : Json → Option (List (Option Json))
  | .object fields =>
    if names.all fun name => (fields.map (·.1)).count name ≤ 1 then some (names.map (get? fields))
    else none
  | .array elements =>
    if elements.length ≤ names.length then
      some (elements.map some ++ List.replicate (names.length - elements.length) none)
    else none
  | _ => none

/-- The text of a string. -/
def text? : Json → Option String
  | .string text => some text
  | _ => none

/-- A truth value. -/
def boolean? : Json → Option Bool
  | .boolean value => some value
  | _ => none

/-- A natural number that a machine word holds. -/
def word? : Json → Option Nat
  | .integer value => if 0 ≤ value ∧ value ≤ maxWord then some value.toNat else none
  | _ => none

/-- The elements of an array. -/
def elements? : Json → Option (List Json)
  | .array elements => some elements
  | _ => none

/-- The name that a plain choice among names is: a string, or an object with the name as its only
field and null as its value. -/
def choice? : Json → Option String
  | .string name => some name
  | .object [(name, .null)] => some name
  | _ => none

/-- A value that may be null. -/
def nullable {α : Type} (read : Json → Option α) : Json → Option (Option α)
  | .null => some none
  | value => (read value).map some

/-- A field that has a value if it is left out. -/
def withDefault {α : Type} (default : α) (read : Json → Option α) : Option Json → Option α
  | none => some default
  | some value => read value

end Json

end RecipeLint
