/-
**Source files.**

A file under inspection: its path, its text, its part in a cookbook, and the year that rules about
dates go by. Positions are turned into lines and columns here.

* `SourceFile.lineStart` — the line of a position, found by halving.
* `SourceFile.lineColumn` — the line and column of a position.
* `SourceFile.location` — the place of a range.
* `spaceToLeft` — a range widened over the blanks before it.
-/

import RecipeLint.Offense
import RecipeLint.Path
import RecipeLint.Text.Blank
import RecipeLint.Text.Bytes

namespace RecipeLint

/-- The part that a file plays in a cookbook. -/
inductive FileKind where
  /-- The file that describes the cookbook. -/
  | metadata
  /-- A test. -/
  | spec
  /-- Any other source file. -/
  | source
  deriving DecidableEq, Repr, Inhabited

namespace FileKind

/-- The name of a part. -/
def name : FileKind → String
  | .metadata => "Metadata"
  | .spec => "Spec"
  | .source => "Source"

/-- The part that a file plays by its path. -/
def ofPath (path : String) : FileKind :=
  let fileName := (Path.fileName? path).getD ""
  if fileName = "metadata.rb" then .metadata
  else if "_spec.rb".toList.isSuffixOf fileName.toList then .spec
  else if (Path.components path).contains (.normal "spec") then .spec
  else .source

end FileKind

/-- A file under inspection. -/
structure SourceFile where
  /-- The path as it was given. -/
  path : String
  /-- The text of the file. -/
  content : List Char
  /-- The path below the root of the project. -/
  relativePath : String
  /-- The year that rules about dates go by. -/
  year : Int
  deriving Repr, Inhabited

namespace SourceFile

/-- A file with its text, in a project with a root. -/
def of (path content root : String) (year : Int) : SourceFile where
  path := path
  content := content.toList
  relativePath := (Path.strip? root path).getD path
  year := year

/-- The part that a file plays in a cookbook. -/
def kind (file : SourceFile) : FileKind := .ofPath file.path

/-- Whether a file describes the cookbook. -/
def isMetadata (file : SourceFile) : Bool := file.kind == .metadata

/-- The text of a range; empty if the range is no part of the text. -/
def text (file : SourceFile) (span : Span) : List Char :=
  (Text.slice? file.content span.start span.stop).getD []

/-- The positions behind the line feeds of a text that starts at `position`. -/
def lineStartsFrom : List Char → (position : Nat) → List Nat
  | [], _ => []
  | c :: rest, position =>
    let next := position + c.utf8Size
    if c = '\n' then next :: lineStartsFrom rest next else lineStartsFrom rest next

/-- The positions where the lines of a file start, in order. -/
def lineStarts (file : SourceFile) : List Nat :=
  0 :: lineStartsFrom file.content 0

/-- The place that is left when the `size` ascending numbers from `base` on are halved until one is
left, always keeping the half where `number` belongs. Each step halves, so `size` steps are enough.
-/
def narrow (numbers : List Nat) (number : Nat) : (steps base size : Nat) → Nat
  | 0, base, _ => base
  | steps + 1, base, size =>
    if size ≤ 1 then base
    else
      let half := size / 2
      let middle := base + half
      let base := if number < numbers.getD middle 0 then base else middle
      narrow numbers number steps base (size - half)

/-- The place of a number among ascending numbers; an error with the place where it belongs if it
is none of them. -/
def search (numbers : List Nat) (number : Nat) : Except Nat Nat :=
  let place := narrow numbers number numbers.length 0 numbers.length
  match numbers[place]? with
  | none => .error 0
  | some found =>
    if found = number then .ok place
    else if found < number then .error (place + 1)
    else .error place

/-- The line of a position, from zero, and the position of its start. -/
def lineStart (file : SourceFile) (offset : Nat) : Nat × Nat :=
  let line := match search file.lineStarts offset with
    | .ok place => place
    | .error place => place - 1
  (line, file.lineStarts.getD line 0)

/-- The line and the column of a position, both from one. A column counts characters; where the
position is no place to cut, it counts bytes. -/
def lineColumn (file : SourceFile) (offset : Nat) : Except Overflow (Nat × Nat) := do
  let (line, start) := file.lineStart offset
  let column := match Text.slice? file.content start offset with
    | some before => before.length
    | none => offset - start
  return (line + 1, ← addWords column 1)

/-- The place of a range. -/
def location (file : SourceFile) (span : Span) : Except Overflow Location := do
  let (line, column) ← file.lineColumn span.start
  return ⟨file.relativePath, line, column, span.start, ← span.length⟩

end SourceFile

/-- A range widened to the left over the blanks before it, line breaks included. -/
def spaceToLeft (content : List Char) (span : Span) : Span :=
  let before := (Text.take? content span.start).getD []
  ⟨Text.size (Text.trimEnd before), span.stop⟩

end RecipeLint
