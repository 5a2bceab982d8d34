/-
**The search for files.**

A path that stands for a file is taken as it is. Below a directory, every file is taken that the
language has, that no ignore file and no pattern leaves out, and that a pattern picks if there are
any. The files come in the order of their paths, each once.

* `IgnoreLevel.verdict` — what the ignore files around a path say about it.
* `FileTree.walk` — the files below a directory that are not ignored.
* `Search.discover` — the files of a search.
-/

import RecipeLint.FileTree
import RecipeLint.Glob
import RecipeLint.Ignore

namespace RecipeLint

/-! ### Ignore files around a path -/

/-- What the ignore files of a directory say. -/
structure IgnoreLevel where
  /-- The names that lead to the directory. -/
  names : List String
  /-- The file that always counts. -/
  plain : IgnoreFile := []
  /-- The file that counts in a repository. -/
  tracked : IgnoreFile := []
  /-- The file that a repository keeps to itself. -/
  untracked : IgnoreFile := []
  /-- Whether the directory is the top of a repository. -/
  isRepository : Bool := false
  deriving Inhabited

/-- What the ignore files of directories are read in. -/
structure Surroundings where
  /-- All files. -/
  tree : FileTree
  /-- The directory that relative paths are below. -/
  directory : String := "/"
  /-- What the user ignores in every repository. -/
  user : IgnoreFile := []
  deriving Inhabited

namespace Surroundings

/-- What the file at a path holds. -/
def content? (around : Surroundings) (path : String) : Option Content :=
  around.tree.content? (Path.join around.directory path)

/-- The directory that several work directories share, by the file that takes the place of the
directory of a repository: the file names another directory, and that one the directory. -/
def sharedDirectory? (around : Surroundings) (link : Content) : Option String := do
  let own := String.ofList (← Text.strip? "gitdir: ".toList (← link.lines.head?))
  let line ← (← around.content? (Path.join own "commondir")).lines.head?
  return if line.head? = some '.' then Path.join own (String.ofList line) else String.ofList line

/-- What the user says about a path, whose text counts below the directory. -/
def verdict (around : Surroundings) (path : String) (isDirectory : Bool) : IgnoreVerdict :=
  let chars := path.toList
  let below := match Text.strip? around.directory.toList chars with
    | some ('/' :: rest) => rest
    | some rest => rest
    | none => chars
  around.user.check (String.ofList below) isDirectory

end Surroundings

namespace IgnoreLevel

/-- The ignore file that a file is. -/
def fileOf : Option FileTree → IgnoreFile
  | some (.file content) => IgnoreFile.read content.lines
  | _ => []

/-- The file that a repository keeps to itself. -/
def excludeFile (around : Surroundings) (directory : FileTree) : IgnoreFile :=
  match directory.child? ".git" with
  | some (.file link) =>
    match (around.sharedDirectory? link).bind fun shared =>
        around.content? (Path.join shared "info/exclude") with
    | some content => IgnoreFile.read content.lines
    | none => []
  | _ => fileOf (directory.descend? [".git", "info", "exclude"])

/-- What the ignore files of a directory say. -/
def of (around : Surroundings) (names : List String) (directory : FileTree) : IgnoreLevel where
  names := names
  plain := fileOf (directory.child? ".ignore")
  tracked := fileOf (directory.child? ".gitignore")
  untracked := excludeFile around directory
  isRepository := (directory.child? ".git").isSome || (directory.child? ".jj").isSome

/-- What one of the ignore files of a directory says about a path below it. -/
def check (level : IgnoreLevel) (file : IgnoreFile) (names : List String) (isDirectory : Bool) :
    IgnoreVerdict :=
  file.check ("/".intercalate (names.drop level.names.length)) isDirectory

/-- The first verdict of several levels that says something. -/
def firstVerdict (levels : List IgnoreLevel) (verdict : IgnoreLevel → IgnoreVerdict) :
    IgnoreVerdict :=
  levels.foldr (fun level rest => (verdict level).or rest) .silent

/-- The levels up to the top of the innermost repository; none outside of repositories. -/
def inRepository (levels : List IgnoreLevel) : List IgnoreLevel :=
  let outside := levels.takeWhile fun level => !level.isRepository
  match levels.drop outside.length with
  | top :: _ => outside ++ [top]
  | [] => []

/-- What the levels around a path, the innermost first, and the user say about it. -/
def verdict (around : Surroundings) (levels : List IgnoreLevel) (path : String)
    (names : List String) (isDirectory : Bool) : IgnoreVerdict :=
  let near := inRepository levels
  let user := if near.isEmpty then .silent else around.verdict path isDirectory
  (((firstVerdict levels fun level => level.check level.plain names isDirectory).or
    (firstVerdict near fun level => level.check level.tracked names isDirectory)).or
    (firstVerdict near fun level => level.check level.untracked names isDirectory)).or user

end IgnoreLevel

/-! ### Walks -/

namespace FileTree

mutual

/-- The files of a tree that is found at a path and at names, with the levels around it. Without
surroundings nothing is ignored. -/
def walk (around : Option Surroundings) (levels : List IgnoreLevel) (path : String)
    (names : List String) : FileTree → List String
  | .file _ => [path]
  | .directory entries =>
    let own := around.map fun around => IgnoreLevel.of around names (.directory entries)
    walkEntries around (own.toList ++ levels) path names entries

/-- The files of the entries of a directory. -/
def walkEntries (around : Option Surroundings) (levels : List IgnoreLevel) (path : String)
    (names : List String) : List (String × FileTree) → List String
  | [] => []
  | (name, tree) :: entries =>
    let below := names ++ [name]
    let place := Path.join path name
    let isIgnored := around.any fun around =>
      IgnoreLevel.verdict around levels place below tree.isDirectory = .ignored
    let found := if isIgnored || name == ".git" then [] else walk around levels place below tree
    found ++ walkEntries around levels path names entries

end

/-- The levels of the directories above the one that names lead to, the innermost first. -/
def levelsAbove (around : Surroundings) (names : List String) : List IgnoreLevel :=
  (List.range names.length).reverse.filterMap fun count =>
    (around.tree.descend? (names.take count)).map (.of around (names.take count))

/-- The files of a tree below a path; with surroundings, those that ignore files do not leave
out. -/
def filesAt (tree : FileTree) (around : Option Surroundings) (path : String) : List String :=
  match tree.locate path with
  | .ok names =>
    match tree.descend? names with
    | some found =>
      let above := (around.map fun around => levelsAbove around names).getD []
      walk around above path names found
    | none => []
  | .error _ => []

end FileTree

/-! ### Searches -/

/-- A search for files. -/
structure Search where
  /-- The root of the project. -/
  root : String
  /-- The paths of files and directories. -/
  paths : List String
  /-- The patterns of files that are left out. -/
  excluded : List Glob := []
  /-- The patterns of files that are picked; all if there are none. -/
  included : List Glob := []
  /-- Whether ignore files are followed. -/
  followsIgnoreFiles : Bool := true
  /-- The directory that relative paths are below. -/
  directory : String := "/"
  /-- What the user ignores in every repository. -/
  userIgnore : IgnoreFile := []
  /-- The endings of the names of files of the language. -/
  extensions : List String
  deriving Inhabited

/-- A path that stands for nothing. -/
structure PathNotFound where
  /-- The path. -/
  path : String
  deriving DecidableEq, Repr, Inhabited

namespace Search

/-- A path below the root of the project. -/
def relative (search : Search) (path : String) : String :=
  (Path.strip? search.root path).getD path

/-- Whether a file is of the language. -/
def handles (search : Search) (path : String) : Bool :=
  match Path.extension? path with
  | some ending => search.extensions.contains ending
  | none => false

/-- Whether a pattern stands for a path or for the path below the root. -/
def covers (search : Search) (path : String) (glob : Glob) : Bool :=
  glob.isMatch path || glob.isMatch (search.relative path)

/-- Whether patterns leave a path out. -/
def excludes (search : Search) (path : String) : Bool :=
  search.excluded.any (search.covers path) ||
    (!search.included.isEmpty && !search.included.any (search.covers path))

/-- The files that a path of a search stands for. -/
def filesOf (search : Search) (tree : FileTree) (path : String) :
    Except PathNotFound (List String) :=
  match tree.get? path with
  | none => .error ⟨path⟩
  | some (.file _) => .ok [path]
  | some (.directory _) =>
    let around : Surroundings := ⟨tree, search.directory, search.userIgnore⟩
    let followed := if search.followsIgnoreFiles then some around else none
    .ok ((tree.filesAt followed path).filter fun file =>
      search.handles file && !search.excludes file)

/-- A list without those that are the same path as the one before. -/
def dropRepeated : List String → List String
  | first :: second :: rest =>
    if Path.same first second then dropRepeated (first :: rest)
    else first :: dropRepeated (second :: rest)
  | paths => paths
termination_by paths => paths.length

/-- The files of a search in the order of their paths, each once. -/
def discover (search : Search) (tree : FileTree) : Except PathNotFound (List String) := do
  let found ← search.paths.mapM (search.filesOf tree)
  return dropRepeated (found.flatten.mergeSort Path.le)

end Search

end RecipeLint
