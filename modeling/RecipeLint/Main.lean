/-
**The program.**

Reads what a command may look at from the machine, runs the command, prints what it says, and writes
the files that it changed. Everything that the command decides is decided before anything is
printed or written.

* `readTree` — what the machine has at a path.
* `snapshot` — the files that an invocation may look at.
* `main` — the program.
-/

import RecipeLint.CommandLine.Run
import Std.Time.Zoned

namespace RecipeLint.CommandLine

/-! ### Reading -/

/-- The deepest nesting of directories that is read; no path of the machine is deeper. -/
def maxDepth : Nat := 2048

/-- The files of a directory that say something about the files below it. -/
def landmarks : List String :=
  [".ignore", ".gitignore"] ++ projectFiles

/-- A file with what it holds; one that cannot be read holds a byte that is no text. -/
def readFile (path : String) : IO FileTree := do
  try
    return .file (.ofBytes (← IO.FS.readBinFile path).toList)
  catch _ => return .file (.bytes [255])

/-- Whether the text of a file with a name is ever looked at. -/
def isTextNeeded (name : String) : Bool :=
  landmarks.contains name ||
    (Path.extension? name).any fun ending => Ruby.language.extensions.contains ending

/-- Whether the machine has a file at a path that is no directory. -/
def isPlainFile (path : String) : IO Bool := do
  let place := (← IO.currentDir) / path
  return (← place.pathExists) && !(← place.isDir)

/-- What counts of the directory where a repository keeps what is its own, or of the file in its
place. -/
def readRepository (path : String) : IO FileTree := do
  if ← isPlainFile path then return ← readFile path
  let exclude := Path.join path "info/exclude"
  if ← isPlainFile exclude then
    return (← readFile exclude).put ["info", "exclude"] .empty
  return .empty

/-- What the machine has at a path. Directories below a number of others are taken to be empty. -/
def readTree : (depth : Nat) → (path : String) → IO FileTree
  | 0, _ => return .empty
  | depth + 1, path => do
    let place := (← IO.currentDir) / path
    if ← place.isDir then
      let entries ← try place.readDir catch _ => pure #[]
      let trees ← entries.toList.mapM fun entry => do
        let below := Path.join path entry.fileName
        if entry.fileName == ".git" then return (entry.fileName, ← readRepository below)
        return (entry.fileName, ← readTree depth below)
      return .directory trees
    if isTextNeeded ((Path.fileName? path).getD "") then readFile path else return .file (.text "")

/-- A tree with a file of the machine, if there is one at the path. -/
def withFile (tree : FileTree) (path : String) : IO FileTree := do
  if ← isPlainFile path then
    return (← readFile path).put (FileTree.plainNames path) tree
  return tree

/-- A tree with a directory of the machine and the files in it that say something about others. -/
def withLevel (tree : FileTree) (path : String) : IO FileTree := do
  let place := (← IO.currentDir) / path
  unless ← place.isDir do return ← withFile tree path
  let names := FileTree.plainNames path
  let known := if (tree.descend? names).isSome then tree else FileTree.empty.put names tree
  let marked ← landmarks.foldlM (fun tree name => withFile tree (Path.join path name)) known
  let marked ← if ← (place / ".jj").pathExists then
      pure (FileTree.empty.put (names ++ [".jj"]) marked)
    else pure marked
  if ← (place / ".git").pathExists then
    return (← readRepository (Path.join path ".git")).put (names ++ [".git"]) marked
  return marked

/-- The paths that lead to an absolute path, from the root to the path itself. -/
def pathsTo (path : String) : List String :=
  let parts := Text.splitAt '/' path.toList
  (List.range parts.length).map fun count =>
    "/" ++ String.ofList (['/'].intercalate ((parts.take (count + 1)).drop 1))

/-- A tree with what the machine has at a path and with what the directories above say about it. -/
def withPath (tree : FileTree) (path : String) : IO FileTree := do
  let place := (← IO.currentDir) / path
  let found ←
    if ← place.isDir then
      pure ((← readTree maxDepth path).put (FileTree.plainNames path) tree)
    else pure tree
  (pathsTo path).foldlM withLevel found

/-- The paths that an invocation names. -/
def namedPaths (invocation : Invocation) : List String :=
  match invocation.command with
  | .check options => options.paths ++ invocation.config.toList
  | _ => []

/-- A tree with the files that say what the user ignores. -/
def withUser (host : Host) (tree : FileTree) (home : String) : IO FileTree := do
  let tree ← (UserIgnore.configurations home).foldlM withFile tree
  withFile tree (host.absolute (UserIgnore.pathOf tree home))

/-- A tree with the files that a file in the place of a repository refers to. -/
def withShared (host : Host) (tree : FileTree) (link : Content) : IO FileTree := do
  let around := fun tree : FileTree => (⟨tree, host.directory, []⟩ : Surroundings)
  let own := (link.lines.head?.bind (Text.strip? "gitdir: ".toList)).map String.ofList
  let tree ← own.toList.foldlM
    (fun tree own => withFile tree (host.absolute (Path.join own "commondir"))) tree
  ((around tree).sharedDirectory? link).toList.foldlM
    (fun tree shared => withFile tree (host.absolute (Path.join shared "info/exclude"))) tree

/-- The files that an invocation may look at. -/
def snapshot (host : Host) (invocation : Invocation) : IO FileTree := do
  let above ← (pathsTo host.directory ++ (userFile? host).toList).foldlM withLevel .empty
  let named ← (namedPaths invocation).foldlM
    (fun tree path => withPath tree (host.absolute path)) above
  let known ← host.home.toList.foldlM (withUser host) named
  let links := (known.filesBelow "/").filter fun (path, _) => Path.fileName? path = some ".git"
  links.foldlM (fun tree (_, link) => withShared host tree link) known

/-! ### Writing -/

/-- Writes the files of a tree that another does not have or has with another text. -/
def writeChanges (before after : FileTree) : IO Unit :=
  (after.filesBelow "/").forM fun (path, content) => do
    if let .text text := content then
      if before.content? path ≠ some content then IO.FS.writeFile path text

end RecipeLint.CommandLine

open RecipeLint RecipeLint.CommandLine in
/-- Runs the command that the words after the name of the program ask for. -/
def main (words : List String) : IO UInt32 := do
  match Invocation.read? words with
  | none =>
    IO.eprint (Topic.program.text false)
    return 2
  | some invocation =>
    let directory ← IO.currentDir
    let today ← Std.Time.PlainDate.now
    let host : Host :=
      { tree := .empty
        directory := directory.toString
        settingsDirectory := ← IO.getEnv "COOKBOOK_LINT_CONFIG_DIR"
        home := ← IO.getEnv "HOME"
        year := today.year.toInt }
    let tree ← snapshot host invocation
    let outcome := run { host with tree := tree } invocation
    writeChanges tree outcome.tree
    IO.print outcome.output
    if let some complaint := outcome.complaint then IO.eprintln ("error: " ++ complaint)
    return outcome.exitCode.toUInt32
