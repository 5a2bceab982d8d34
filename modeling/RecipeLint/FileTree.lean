/-
**Trees of files.**

The files that a run can see: a directory holds files and directories under names. A path is
followed part by part, a double dot leads to the directory above, and every part but the last has
to be a directory.

* `Content` — what a file holds: a text, or bytes that are none.
* `FileTree.locate` — the names that lead to what a path stands for.
* `FileTree.read` — the text of a file, or why there is none.
* `FileTree.write` — the tree with something new in a file.
-/

import RecipeLint.Path

namespace RecipeLint

/-- What a file holds. -/
inductive Content where
  /-- A text. -/
  | text (text : String)
  /-- Bytes that are no text. -/
  | bytes (bytes : List UInt8)
  deriving DecidableEq, Repr, Inhabited

namespace Content

/-- The text of bytes, if they are one. -/
def decode? (bytes : List UInt8) : Option String :=
  String.fromUTF8? ⟨bytes.toArray⟩

/-- What a file of some bytes holds. -/
def ofBytes (bytes : List UInt8) : Content :=
  match decode? bytes with
  | some decoded => .text decoded
  | none => .bytes bytes

/-- The bytes of a file. -/
def toBytes : Content → List UInt8
  | .text given => given.toUTF8.toList
  | .bytes given => given

/-- The text of a file, if it is one. -/
def text? : Content → Option String
  | .text given => some given
  | .bytes _ => none

/-- The bytes between line feeds. -/
def byteLines : List UInt8 → List (List UInt8)
  | [] => [[]]
  | b :: rest =>
    if b = 10 then [] :: byteLines rest
    else
      match byteLines rest with
      | [] => [[b]]
      | line :: others => (b :: line) :: others

/-- The lines of a file before the first that is no text. -/
def lines : Content → List (List Char)
  | .text given => Text.lines given.toList
  | .bytes given =>
    (((byteLines given).map decode?).takeWhile Option.isSome).filterMap fun line =>
      line.map fun line => Text.dropReturn line.toList

end Content

/-- A file or a directory. -/
inductive FileTree where
  /-- A file with what it holds. -/
  | file (content : Content)
  /-- A directory with what it holds. -/
  | directory (entries : List (String × FileTree))
  deriving Repr, Inhabited

/-- Why a file cannot be read. -/
inductive ReadError where
  /-- There is no such file. -/
  | missing
  /-- A part of the path is no directory. -/
  | notDirectory
  /-- It is a directory. -/
  | isDirectory
  /-- Its bytes are no text. -/
  | notText
  deriving DecidableEq, Repr, Inhabited

/-- What is said about a file that cannot be read. -/
def ReadError.message : ReadError → String
  | .missing => "No such file or directory (os error 2)"
  | .notDirectory => "Not a directory (os error 20)"
  | .isDirectory => "Is a directory (os error 21)"
  | .notText => "stream did not contain valid UTF-8"

namespace FileTree

/-- The directory that holds nothing. -/
def empty : FileTree := .directory []

/-- Whether it is a file. -/
def isFile : FileTree → Bool
  | .file _ => true
  | .directory _ => false

/-- Whether it is a directory. -/
def isDirectory : FileTree → Bool
  | .file _ => false
  | .directory _ => true

/-- What a directory holds. -/
def entries : FileTree → List (String × FileTree)
  | .file _ => []
  | .directory entries => entries

/-- What a directory holds under a name. -/
def child? (tree : FileTree) (name : String) : Option FileTree :=
  (tree.entries.find? fun entry => entry.1 == name).map (·.2)

/-- What names lead to. -/
def descend? : FileTree → List String → Option FileTree
  | tree, [] => some tree
  | tree, name :: names => do (← tree.child? name).descend? names

/-! ### Paths -/

/-- The names that lead to what the parts of a path stand for, from the directory that some names
lead to. -/
def locateFrom (tree : FileTree) (here : List String) :
    List (List Char) → Except ReadError (List String)
  | [] => .ok here
  | part :: parts =>
    match tree.descend? here with
    | some (.directory entries) =>
      if part = [] ∨ part = ['.'] then locateFrom tree here parts
      else if part = ['.', '.'] then locateFrom tree here.dropLast parts
      else
        let name := String.ofList part
        if entries.any fun entry => entry.1 == name then locateFrom tree (here ++ [name]) parts
        else .error .missing
    | some (.file _) => .error .notDirectory
    | none => .error .missing

/-- The names that lead to what an absolute path stands for. -/
def locate (tree : FileTree) (path : String) : Except ReadError (List String) :=
  locateFrom tree [] (Text.splitAt '/' path.toList)

/-- What an absolute path stands for. -/
def get? (tree : FileTree) (path : String) : Option FileTree :=
  match tree.locate path with
  | .ok names => tree.descend? names
  | .error _ => none

/-- Whether an absolute path stands for a file. -/
def hasFile (tree : FileTree) (path : String) : Bool :=
  (tree.get? path).any isFile

/-- Whether an absolute path stands for a directory. -/
def hasDirectory (tree : FileTree) (path : String) : Bool :=
  (tree.get? path).any isDirectory

/-- Whether an absolute path stands for anything. -/
def has (tree : FileTree) (path : String) : Bool :=
  (tree.get? path).isSome

/-- What the file at an absolute path holds. -/
def content? (tree : FileTree) (path : String) : Option Content :=
  match tree.get? path with
  | some (.file content) => some content
  | _ => none

/-- The text of a file. -/
def read (tree : FileTree) (path : String) : Except ReadError String := do
  match tree.descend? (← tree.locate path) with
  | some (.file (.text content)) => .ok content
  | some (.file (.bytes _)) => .error .notText
  | some (.directory _) => .error .isDirectory
  | none => .error .missing

/-! ### Changes -/

/-- The entries of a directory with something else under a name. -/
def putEntry (name : String) (tree : FileTree) : List (String × FileTree) → List (String × FileTree)
  | [] => [(name, tree)]
  | entry :: entries =>
    if entry.1 = name then (name, tree) :: entries else entry :: putEntry name tree entries

/-- The tree with something else where names lead to; directories that are missing are made. -/
def put (new : FileTree) : List String → FileTree → FileTree
  | [], _ => new
  | name :: names, tree =>
    let below := (tree.child? name).getD empty
    .directory (putEntry name (put new names below) tree.entries)

/-- The tree without what names lead to. -/
def erase : List String → FileTree → FileTree
  | [], tree => tree
  | [name], tree => .directory (tree.entries.filter fun entry => entry.1 ≠ name)
  | name :: names, tree =>
    match tree.child? name with
    | some below => .directory (putEntry name (erase names below) tree.entries)
    | none => tree

/-- The names in a path, where a double dot takes the name before it back. -/
def plainNames (path : String) : List String :=
  (Path.components path).foldl
    (fun names component => match component with
      | .normal name => names ++ [name]
      | .parent => names.dropLast
      | _ => names)
    []

/-- The tree with something new in the file that an absolute path stands for. -/
def write (tree : FileTree) (path : String) (content : Content) : FileTree :=
  put (.file content) (plainNames path) tree

mutual

/-- The files below a path, with what they hold. -/
def filesBelow (path : String) : FileTree → List (String × Content)
  | .file content => [(path, content)]
  | .directory entries => filesOfEntries path entries

/-- The files in the entries of a directory. -/
def filesOfEntries (path : String) : List (String × FileTree) → List (String × Content)
  | [] => []
  | (name, tree) :: entries =>
    filesBelow (Path.join path name) tree ++ filesOfEntries path entries

end

end FileTree

end RecipeLint
