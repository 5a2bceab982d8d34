/-
**Platform versions.**

A version has three numbers. It is read from one to three decimal numbers between dots, with zero
for what is left out, and written without a third number that is zero. A rule that asks for a
least version is left out for older targets.

* `Version.read` — the version of a text.
* `Version.text` — the text of a version.
* `isEligible` — whether a rule with a least version runs against a target.
-/

import RecipeLint.Text.Blank
import RecipeLint.Text.Search

namespace RecipeLint

/-- The largest number that a part of a version can be. -/
def maxVersionNumber : Nat := 4294967295

/-- A version of the platform. -/
structure Version where
  /-- The first number. -/
  major : Nat
  /-- The second number. -/
  minor : Nat
  /-- The third number. -/
  patch : Nat
  deriving DecidableEq, Repr, Inhabited

/-- A text that is no version. -/
structure VersionError where
  /-- The text. -/
  input : String
  deriving DecidableEq, Repr, Inhabited

/-- What is said about a text that is no version. -/
def VersionError.message (error : VersionError) : String :=
  "invalid target version '" ++ error.input ++ "': expected MAJOR[.MINOR[.PATCH]]"

/-- The value of a decimal digit. -/
def digitValue? (c : Char) : Option Nat :=
  if c.isDigit then some (c.toNat - '0'.toNat) else none

/-- The value of a text of decimal digits, after the digits with a value read so far. -/
def decimalFrom? (value : Nat) : List Char → Option Nat
  | [] => some value
  | c :: rest => do decimalFrom? (10 * value + (← digitValue? c)) rest

/-- The value of a text of one or more decimal digits. -/
def decimal? (digits : List Char) : Option Nat :=
  if digits.isEmpty then none else decimalFrom? 0 digits

namespace Version

/-- The number that a part of a version is, which a plus sign may precede. -/
def number? (part : List Char) : Option Nat := do
  let digits := match part with
    | '+' :: rest => rest
    | _ => part
  let value ← decimal? digits
  if value ≤ maxVersionNumber then some value else none

/-- The version of a text without surrounding blanks. -/
def ofParts? (parts : List (List Char)) : Option Version := do
  match ← parts.mapM number? with
  | [major] => some ⟨major, 0, 0⟩
  | [major, minor] => some ⟨major, minor, 0⟩
  | [major, minor, patch] => some ⟨major, minor, patch⟩
  | _ => none

/-- The version of a text. -/
def read (text : String) : Except VersionError Version :=
  match ofParts? (Text.splitAt '.' (Text.trim text.toList)) with
  | some version => .ok version
  | none => .error ⟨text⟩

/-- The version with a whole number and zeros. -/
def ofMajor (major : Nat) : Version := ⟨major, 0, 0⟩

/-- The text of a version. -/
def text (version : Version) : String :=
  let short := toString version.major ++ "." ++ toString version.minor
  if version.patch = 0 then short else short ++ "." ++ toString version.patch

/-- Whether a version is at most another: by the first number in which they differ. -/
def le (first second : Version) : Bool :=
  first.major < second.major ||
    (first.major == second.major && (first.minor < second.minor ||
      (first.minor == second.minor && first.patch ≤ second.patch)))

end Version

/-- Whether a rule with a least version runs against a target. One that asks for none does, and
every rule does if there is no target. -/
def isEligible (minimum target : Option Version) : Bool :=
  match minimum, target with
  | some minimum, some target => minimum.le target
  | _, _ => true

end RecipeLint
