/-
**Paths.**

A path is a text whose parts are separated by slashes. What counts is its list of components:
repeated and final slashes and inner single dots add none. Paths are compared component by
component, so two texts may be the same path.

* `Path.components` — the components of a path.
* `Path.strip?` — what is left of a path below another.
* `Path.le` — the order of paths.
-/

import RecipeLint.Text.Search

namespace RecipeLint.Path

/-- A component of a path. -/
inductive Component where
  /-- The slash at the start of an absolute path. -/
  | root
  /-- The single dot at the start of a relative path. -/
  | current
  /-- The double dot. -/
  | parent
  /-- A name. -/
  | normal (name : String)
  deriving DecidableEq, Repr, Inhabited

/-- The component that a part between slashes is, other than at the start. -/
def componentOf? (part : List Char) : Option Component :=
  if part = [] ∨ part = ['.'] then none
  else if part = ['.', '.'] then some .parent
  else some (.normal (String.ofList part))

/-- The parts of a path, each with the component that it is. The first part of an absolute path is
empty and is the root. -/
def parts (path : String) : List (List Char × Option Component) :=
  match Text.splitAt '/' path.toList with
  | [] => []
  | [only] => [(only, if only = ['.'] then some .current else componentOf? only)]
  | first :: rest =>
    let head :=
      if first = [] then some .root
      else if first = ['.'] then some .current
      else componentOf? first
    (first, head) :: rest.map fun part => (part, componentOf? part)

/-- The components of a path. -/
def components (path : String) : List Component :=
  (parts path).filterMap (·.2)

/-- Whether a path starts at the root. -/
def isAbsolute (path : String) : Bool :=
  path.toList.head? = some '/'

/-- The parts of a path without the first `count` components. -/
def dropComponents : Nat → List (List Char × Option Component) → List (List Char × Option Component)
  | 0, parts => parts
  | _ + 1, [] => []
  | count + 1, (_, none) :: parts => dropComponents (count + 1) parts
  | count + 1, (_, some _) :: parts => dropComponents count parts

/-- The text of parts of a path, without what adds no component at its ends. -/
def textOfParts (parts : List (List Char × Option Component)) : String :=
  String.ofList (['/'].intercalate (parts.map (·.1)))

/-- Parts of a path without those at the end that are no component. -/
def trimParts (parts : List (List Char × Option Component)) :
    List (List Char × Option Component) :=
  (parts.reverse.dropWhile fun part => part.2.isNone).reverse

/-- The text of parts of a path that start where the path starts. -/
def textOfStart (parts : List (List Char × Option Component)) : String :=
  let kept := trimParts parts
  if kept = [([], some .root)] then "/" else textOfParts kept

/-- What is left of a path below a base; nothing if the path is not below the base. -/
def strip? (base path : String) : Option String :=
  let start := components base
  if start.isPrefixOf (components path) then
    let whole := parts path
    if start.isEmpty then some (textOfStart whole)
    else
      let rest := (dropComponents start.length whole).dropWhile fun part => part.2.isNone
      some (textOfParts (trimParts rest))
  else none

/-- A path without its last component; nothing if there is none or it is the root. -/
def parent? (path : String) : Option String :=
  match (trimParts (parts path)).reverse with
  | [] => none
  | (_, some .root) :: _ => none
  | _ :: before => some (textOfStart before.reverse)

/-- The last component of a path if it is a name. -/
def fileName? (path : String) : Option String :=
  match (components path).getLast? with
  | some (.normal name) => some name
  | _ => none

/-- What follows the last dot of the name of a file; a dot at its start does not count. -/
def extension? (path : String) : Option String := do
  let name ← fileName? path
  let reversed := name.toList.reverse
  let ending := reversed.takeWhile (· ≠ '.')
  match reversed.drop ending.length with
  | [] => none
  | ['.'] => none
  | _ => some (String.ofList ending.reverse)

/-- A path below a base, or the path itself if it is absolute. -/
def join (base path : String) : String :=
  if isAbsolute path || base.isEmpty then path
  else if base.toList.getLast? = some '/' then base ++ path
  else base ++ "/" ++ path

/-! ### Order -/

/-- The rank of a component before names are compared. -/
def Component.rank : Component → Nat
  | .root => 0
  | .current => 1
  | .parent => 2
  | .normal _ => 3

/-- The order of two components. -/
def Component.compare : Component → Component → Ordering
  | .normal first, .normal second => Ord.compare first second
  | first, second => Ord.compare first.rank second.rank

/-- The order of two lists of components: by the first in which they differ. -/
def compareComponents : List Component → List Component → Ordering
  | [], [] => .eq
  | [], _ :: _ => .lt
  | _ :: _, [] => .gt
  | first :: firsts, second :: seconds =>
    match first.compare second with
    | .eq => compareComponents firsts seconds
    | order => order

/-- The order of two paths. -/
def compare (first second : String) : Ordering :=
  compareComponents (components first) (components second)

/-- Whether a path comes no later than another. -/
def le (first second : String) : Bool :=
  compare first second != .gt

/-- Whether two texts are the same path. -/
def same (first second : String) : Bool :=
  components first == components second

end RecipeLint.Path
