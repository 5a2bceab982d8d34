/-
**Changing a text.**

Changes are made all at once, each to a range of the text as it was. They are put in the order of
their ranges; a range outside the text or inside a character is refused, and so are two changes
that touch the same bytes or insert at the same place.

* `Edit.sorted` — the order in which changes are made.
* `Patch.check` — the first reason to refuse changes.
* `Patch.apply` — the text after all changes.
-/

import RecipeLint.Offense
import RecipeLint.Text.Bytes

namespace RecipeLint

/-- A change of a range of bytes. -/
structure Edit where
  /-- The range that is replaced. -/
  range : Span
  /-- What it is replaced by. -/
  newText : List Char
  deriving DecidableEq, Repr, Inhabited

/-- Why changes cannot be made. -/
inductive PatchError where
  /-- Two changes touch the same bytes. -/
  | overlapping (first second : Span)
  /-- A range is no part of a text of this size. -/
  | outOfBounds (range : Span) (size : Nat)
  deriving DecidableEq, Repr, Inhabited

/-- A range as it is shown in messages. -/
def Span.text (span : Span) : String :=
  toString span.start ++ ".." ++ toString span.stop

/-- What is said about changes that cannot be made. -/
def PatchError.message : PatchError → String
  | .overlapping first second =>
    "overlapping corrections at " ++ first.text ++ " and " ++ second.text
  | .outOfBounds range size =>
    "correction range " ++ range.text ++ " is out of bounds for text of length " ++ toString size

/-- Whether two ranges share a byte, or are empty at the same place. -/
def Span.overlaps (first second : Span) : Bool :=
  (first.start < second.stop && second.start < first.stop) ||
    (first.isEmpty && second.isEmpty && first.start == second.start)

/-- Whether a range comes no later than another, by its start and then by its end. -/
def Span.le (first second : Span) : Bool :=
  first.start < second.start || (first.start == second.start && first.stop ≤ second.stop)

/-- Whether a range is a part of a text. -/
def Span.isWithin (text : List Char) (span : Span) : Bool :=
  span.stop ≤ Text.size text && Text.isBoundary text span.start && Text.isBoundary text span.stop

/-- The changes in the order of their ranges; equal ranges stay in the given order. -/
def Edit.sorted (edits : List Edit) : List Edit :=
  edits.mergeSort fun first second => first.range.le second.range

namespace Patch

/-- The first two neighbours that overlap. -/
def overlap? : List Edit → Option (Span × Span)
  | first :: second :: rest =>
    if first.range.overlaps second.range then some (first.range, second.range)
    else overlap? (second :: rest)
  | _ => none

/-- The first reason to refuse changes, which are in the order of their ranges. -/
def check (text : List Char) (edits : List Edit) : Except PatchError Unit :=
  match edits.find? fun edit => !edit.range.isWithin text with
  | some edit => .error (.outOfBounds edit.range (Text.size text))
  | none =>
    match overlap? edits with
    | some (first, second) => .error (.overlapping first second)
    | none => .ok ()

/-- The text from a position on after changes, which are in the order of their ranges. -/
def splice (position : Nat) (text : List Char) : List Edit → List Char
  | [] => text
  | edit :: edits =>
    let kept := (Text.take? text (edit.range.start - position)).getD []
    let rest := (Text.drop? text (edit.range.stop - position)).getD []
    kept ++ edit.newText ++ splice edit.range.stop rest edits

/-- The text after all changes. -/
def applyEdits (text : List Char) (edits : List Edit) : Except PatchError (List Char) := do
  let sorted := Edit.sorted edits
  check text sorted
  return splice 0 text sorted

/-- A correction as a change of a range of bytes. -/
def edit (correction : Correction) : Except Overflow Edit := do
  return ⟨← correction.range, correction.newText.toList⟩

/-- The text after all corrections. -/
def apply (text : String) (corrections : List Correction) :
    Except Overflow (Except PatchError String) := do
  let edits ← corrections.mapM edit
  return (applyEdits text.toList edits).map String.ofList

end Patch

end RecipeLint
