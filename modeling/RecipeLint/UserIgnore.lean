/-
**The ignore file of the user.**

A user may keep an ignore file that counts in every repository. Its path stands in a configuration
file after the key `excludesfile`; if none names it, the file is in its usual place.

* `UserIgnore.configured?` — the path that a configuration file gives.
* `UserIgnore.find` — the ignore file of the user.
-/

import RecipeLint.FileTree
import RecipeLint.Ignore

namespace RecipeLint.UserIgnore

/-! ### Configuration files -/

/-- Whether a byte is a blank or ends a line. -/
def isBlank (b : UInt8) : Bool := b = 32 || (9 ≤ b && b ≤ 13)

/-- The quotation mark as a byte. -/
def quote : UInt8 := 34

/-- Whether blanks at the start of some bytes hold the end of a line, or of the bytes. -/
def endsLine (bytes : List UInt8) : Bool :=
  let blanks := bytes.takeWhile isBlank
  blanks.contains 10 || blanks.length = bytes.length

/-- Whether a value ends before some bytes: a quotation mark between blanks may follow on its
line. -/
def isValueEnd (bytes : List UInt8) : Bool :=
  endsLine bytes ||
    match bytes.dropWhile isBlank with
    | b :: rest => b = quote && endsLine rest
    | [] => false

/-- The shortest value at the start of some bytes: no blanks, at least one byte. -/
def value? : List UInt8 → Option (List UInt8)
  | [] => none
  | b :: rest =>
    if isBlank b then none
    else if isValueEnd rest then some [b]
    else (value? rest).map (b :: ·)

/-- A byte as a small letter if it is a capital one. -/
def toLower (b : UInt8) : UInt8 := if 65 ≤ b && b ≤ 90 then b + 32 else b

/-- The key before the path, in small letters. -/
def key : List UInt8 := "excludesfile".toUTF8.toList

/-- The value of the key, if a line starts with it; a quotation mark may stand before the value. -/
def lineValue? (bytes : List UInt8) : Option (List UInt8) := do
  let start := bytes.dropWhile isBlank
  if (start.take key.length).map toLower = key then
    match (start.drop key.length).dropWhile isBlank with
    | 61 :: rest =>
      let plain := rest.dropWhile isBlank
      match plain with
      | b :: unquoted =>
        if b = quote then (value? (unquoted.dropWhile isBlank)).or (value? plain)
        else value? plain
      | [] => none
    | _ => none
  else none

/-- The value of the first line that gives the key one. -/
def firstValue? (isLineStart : Bool) : List UInt8 → Option (List UInt8)
  | [] => none
  | b :: rest =>
    match if isLineStart then lineValue? (b :: rest) else none with
    | some value => some value
    | none => firstValue? (b = 10) rest

/-- The path that a configuration file gives; a tilde stands for the directory of the user. -/
def configured? (home : String) (content : Content) : Option String := do
  let path ← Content.decode? (← firstValue? true content.toBytes)
  return String.ofList (path.toList.flatMap fun c => if c = '~' then home.toList else [c])

/-! ### Files -/

/-- The configuration files of a user, the first before the second. -/
def configurations (home : String) : List String :=
  [Path.join home ".gitconfig", Path.join home ".config/git/config"]

/-- The usual place of the ignore file of a user. -/
def usualPath (home : String) : String := Path.join home ".config/git/ignore"

/-- The path of the ignore file of a user. -/
def pathOf (tree : FileTree) (home : String) : String :=
  let given := (configurations home).filterMap fun path =>
    (tree.content? path).bind (configured? home)
  given.headD (usualPath home)

/-- The ignore file of a user, where relative paths are below a directory. -/
def find (tree : FileTree) (directory home : String) : IgnoreFile :=
  match tree.content? (Path.join directory (pathOf tree home)) with
  | some content => IgnoreFile.read content.lines
  | none => []

end RecipeLint.UserIgnore
