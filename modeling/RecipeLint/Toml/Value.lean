/-
**Values of a configuration document.**

The values that a TOML document can hold, and the questions asked of them.
-/

import RecipeLint.Decimal
import RecipeLint.Toml.Moment

namespace RecipeLint.Toml

/-- A number with a fraction. -/
inductive Real where
  /-- A number with a sign. -/
  | finite (negative : Bool) (value : Binary)
  /-- A number beyond all others. -/
  | infinite (negative : Bool)
  /-- No number. -/
  | undefined
  deriving DecidableEq, Repr, Inhabited

/-- A value of a document; a table is written in braces, or else by headers or keys with dots. -/
inductive Value where
  | string (text : String)
  | integer (value : Int)
  | real (value : Real)
  | boolean (value : Bool)
  | moment (moment : Moment)
  | array (elements : List Value)
  | table (braced : Bool) (entries : List (String × Value))
  deriving Repr, Inhabited

namespace Value

/-- The value of a key of a table. -/
def get? (entries : List (String × Value)) (key : String) : Option Value :=
  (entries.find? fun entry => entry.1 == key).map (·.2)

/-- The text of a string. -/
def text? : Value → Option String
  | .string text => some text
  | _ => none

/-- A truth value. -/
def boolean? : Value → Option Bool
  | .boolean value => some value
  | _ => none

/-- A whole number. -/
def integer? : Value → Option Int
  | .integer value => some value
  | _ => none

/-- The elements of an array. -/
def elements? : Value → Option (List Value)
  | .array elements => some elements
  | _ => none

/-- The key under which a moment stands where a table is expected. -/
def momentKey : String := "$__toml_private_datetime"

/-- The entries of a table; a moment is a table with its text as the only entry. -/
def entries? : Value → Option (List (String × Value))
  | .table _ entries => some entries
  | .moment given => some [(momentKey, .string given.text)]
  | _ => none

/-- The texts of an array of strings. -/
def texts? (value : Value) : Option (List String) := do
  (← value.elements?).mapM text?

end Value

end RecipeLint.Toml
