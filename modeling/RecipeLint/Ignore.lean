/-
**Ignore files.**

A line of an ignore file is a pattern of paths below its directory. A pattern without a slash
stands for names at any depth; an exclamation mark takes back what other lines ignore; a final
slash restricts the pattern to directories. The last line that matches decides.

* `Ignore.read?` — the parts of a pattern.
* `IgnorePattern.read?` — the pattern of a line.
* `IgnoreFile.check` — what an ignore file says about a path.
-/

import RecipeLint.Text.Blank
import RecipeLint.Text.Reach
import RecipeLint.Text.Search

namespace RecipeLint

namespace Ignore

/-- A part of a pattern. -/
inductive Token where
  /-- A byte itself. -/
  | byte (value : UInt8)
  /-- Any byte but a slash. -/
  | anyByte
  /-- Any number of bytes without a slash. -/
  | anyBytes
  /-- One of several ranges of bytes, or none of them. -/
  | oneOf (negated : Bool) (ranges : List (UInt8 × UInt8))
  /-- Any directories at the start. -/
  | leadingDirectories
  /-- A slash and all below it. -/
  | allBelow
  /-- A slash, or directories between two slashes. -/
  | innerDirectories
  /-- One of several patterns. -/
  | alternatives (patterns : List (List Token))
  deriving Repr, Inhabited

/-- The slash as a byte. -/
def slash : UInt8 := 47

/-! ### Matching -/

open Text.Reach

/-- Whether a byte is in one of several ranges. -/
def inRanges (ranges : List (UInt8 × UInt8)) (b : UInt8) : Bool :=
  ranges.any fun (first, last) => first ≤ b && b ≤ last

/-- The places after a slash or after directories between two slashes. -/
def afterDirectories (text : List UInt8) (marks : List Bool) : List Bool :=
  single (· == slash) text (spread (fun _ => true) false text marks)

mutual

/-- Whether a part stands for nothing: braces around nothing. -/
def Token.isVoid : Token → Bool
  | .alternatives patterns => areAllVoid patterns
  | _ => false

/-- Whether all parts of a pattern stand for nothing. -/
def isVoidPattern : List Token → Bool
  | [] => true
  | token :: tokens => token.isVoid && isVoidPattern tokens

/-- Whether several patterns all stand for nothing. -/
def areAllVoid : List (List Token) → Bool
  | [] => true
  | pattern :: patterns => isVoidPattern pattern && areAllVoid patterns

end

mutual

/-- The places of a text after a part of a pattern. Of several alternatives those that stand for
nothing do not count, and if there are no others the part does not count. -/
def Token.after (text : List UInt8) (marks : List Bool) : Token → List Bool
  | .byte value => single (· == value) text marks
  | .anyByte => single (· != slash) text marks
  | .anyBytes => spread (· != slash) false text marks
  | .oneOf negated ranges => single (fun b => inRanges ranges b != negated) text marks
  | .leadingDirectories => either marks (afterDirectories text marks)
  | .allBelow => spread (fun _ => true) false text (single (· == slash) text marks)
  | .innerDirectories =>
    let below := single (· == slash) text marks
    either below (afterDirectories text below)
  | .alternatives patterns =>
    if areAllVoid patterns then marks else afterAny text marks patterns

/-- The places of a text after a pattern. -/
def afterAll (text : List UInt8) (marks : List Bool) : List Token → List Bool
  | [] => marks
  | token :: tokens => afterAll text (token.after text marks) tokens

/-- The places of a text after one of several patterns. -/
def afterAny (text : List UInt8) (marks : List Bool) : List (List Token) → List Bool
  | [] => marks.map fun _ => false
  | pattern :: patterns =>
    let others := afterAny text marks patterns
    if isVoidPattern pattern then others else either (afterAll text marks pattern) others

end

/-- The parts of a pattern after any directories at its start, and whether there are any. -/
def withoutLeading : List Token → Bool × List Token
  | .leadingDirectories :: tokens => (true, tokens)
  | tokens => (false, tokens)

/-- The bytes of a pattern that has no other parts. -/
def literal? (tokens : List Token) : Option (List UInt8) :=
  tokens.mapM fun
    | .byte value => some value
    | _ => none

/-- Whether a pattern goes by the name or the ending of a file, which a path with a dot at its end
does not have: its last part is a dot, and it is not a whole path, with or without any directories
before it. -/
def needsName (pattern : List Token) : Bool :=
  let (anywhere, tokens) := withoutLeading pattern
  (match tokens.getLast? with
    | some (.byte value) => value == 46
    | _ => false) &&
  match literal? tokens with
  | some bytes => anywhere && !bytes.contains slash
  | none => true

/-- Whether a pattern stands for a whole text; one that is any directories and no more stands for
every text. -/
def isMatch (pattern : List Token) (text : List UInt8) : Bool :=
  match pattern with
  | [.leadingDirectories] => true
  | _ =>
    isComplete (afterAll text (start text) pattern) &&
      !(text.getLast? == some 46 && needsName pattern)

/-! ### Reading -/

/-- A character as bytes. -/
def bytesOf (c : Char) : List UInt8 :=
  (String.singleton c).toUTF8.toList

/-- What is read so far: the alternatives of each brace that is open, and the pattern at the end.
The pattern outside of all braces is the last alternative of the last group. -/
structure Reading where
  /-- The alternatives before the current one, for each open brace, the innermost first, with the
  pattern before the brace. -/
  groups : List (List Token × List (List Token)) := []
  /-- The pattern at the end. -/
  current : List Token := []
  deriving Inhabited

namespace Reading

/-- Adds parts to the pattern at the end. -/
def push (reading : Reading) (tokens : List Token) : Reading :=
  { reading with current := reading.current ++ tokens }

/-- Opens a brace. -/
def openGroup (reading : Reading) : Reading :=
  { groups := (reading.current, []) :: reading.groups, current := [] }

/-- Starts the next alternative; outside of braces a comma is itself. -/
def nextAlternative (reading : Reading) : Reading :=
  match reading.groups with
  | [] => reading.push [.byte 44]
  | (before, done) :: groups =>
    { groups := (before, done ++ [reading.current]) :: groups, current := [] }

/-- Closes a brace. -/
def closeGroup? (reading : Reading) : Option Reading :=
  match reading.groups with
  | [] => none
  | (before, done) :: groups =>
    some { groups := groups
           current := before ++ [.alternatives (done ++ [reading.current])] }

end Reading

/-- The ranges of bytes of a range of characters: characters count by their bytes, so the range goes
from the last byte of the one to the first byte of the other. -/
def byteRanges (first last : Char) : List (UInt8 × UInt8) :=
  let alone := fun bytes : List UInt8 => bytes.map fun b => (b, b)
  let before := bytesOf first
  if first = last then alone before
  else
    let after := bytesOf last
    alone before.dropLast ++ [(before.getLastD 0, after.headD 0)] ++ alone (after.drop 1)

/-- What is read of a class of characters: its ranges, the last one first. -/
structure ClassReading where
  /-- The ranges. -/
  ranges : List (Char × Char) := []
  /-- Whether a hyphen was read that may make a range of the last one. -/
  isOpen : Bool := false
  deriving Inhabited

/-- Adds a character to a class; a range that goes backwards is none. -/
def ClassReading.add? (reading : ClassReading) (c : Char) : Option ClassReading :=
  match reading.isOpen, reading.ranges with
  | true, (first, _) :: others =>
    if c.toNat < first.toNat then none else some ⟨(first, c) :: others, false⟩
  | _, ranges => some ⟨(c, c) :: ranges, false⟩

/-- What comes of a class of characters. -/
inductive ClassOutcome where
  /-- The class ends, after so many characters. -/
  | closed (ranges : List (Char × Char)) (count : Nat)
  /-- The text ends before the class. -/
  | unclosed
  /-- A range goes backwards. -/
  | backwards
  deriving Inhabited

/-- Reads a class of characters up to its closing bracket; `count` characters have been read. -/
def readClass (reading : ClassReading) (isFirst : Bool) (count : Nat) : List Char → ClassOutcome
  | [] => .unclosed
  | c :: rest =>
    if c = ']' && !isFirst then
      let ranges := if reading.isOpen then ('-', '-') :: reading.ranges else reading.ranges
      .closed ranges (count + 1)
    else if c = '-' && !isFirst && !reading.isOpen then
      readClass { reading with isOpen := true } false (count + 1) rest
    else
      match reading.add? c with
      | some reading => readClass reading false (count + 1) rest
      | none => .backwards

/-- A class of characters, whose opening bracket has been read. -/
def classOf (text : List Char) : Bool × ClassOutcome :=
  let negated := text.head? = some '!' ∨ text.head? = some '^'
  if negated then (true, readClass {} true 1 (text.drop 1)) else (false, readClass {} true 0 text)

/-- The parts for two stars, after which `after` follows and before which `before` stands, and the
number of characters that they take. Directories of any depth stand between slashes, at the ends,
and, next to a slash, at the ends of an alternative. -/
def doubleStar (reading : Reading) (before : Option Char) (after : List Char) : Reading × Nat :=
  let plain := (reading.push [.anyBytes, .anyBytes], 1)
  let inGroup := !reading.groups.isEmpty
  if reading.current.isEmpty then
    match after with
    | [] => (reading.push [.leadingDirectories], 1)
    | '/' :: _ => (reading.push [.leadingDirectories], 2)
    | _ => plain
  else if before ≠ some '/' ∧ !(inGroup && (before = some ',' || before = some '\x7b')) then plain
  else
    let join := fun token : Token =>
      match reading.current.getLast? with
      | some .leadingDirectories => reading
      | some .allBelow => reading
      | _ => { reading with current := reading.current.dropLast ++ [token] }
    match after with
    | [] => (join .allBelow, 1)
    | '/' :: _ => (join .innerDirectories, 2)
    | c :: _ => if inGroup && (c = ',' || c = '\x7d') then (join .allBelow, 1) else plain

/-- Reads a pattern; `before` is the character before the text, and `skip` characters have been
read already. Once a class of characters does not end, brackets open none. -/
def readFrom (reading : Reading) (before : Option Char) (classes : Bool) :
    (skip : Nat) → List Char → Option (List Token)
  | _, [] => if reading.groups.isEmpty then some reading.current else none
  | skip + 1, c :: rest => readFrom reading (some c) classes skip rest
  | 0, c :: rest =>
    let next := fun (reading : Reading) (skip : Nat) =>
      readFrom reading (some c) classes skip rest
    let literal := fun (c : Char) => (bytesOf c).map Token.byte
    if c = '?' then next (reading.push [.anyByte]) 0
    else if c = '[' && classes then
      match classOf rest with
      | (negated, .closed ranges count) =>
        let bytes := ranges.flatMap fun (first, last) => byteRanges first last
        next (reading.push [.oneOf negated bytes]) count
      | (_, .unclosed) => readFrom (reading.push (literal c)) (some c) false 0 rest
      | (_, .backwards) => none
    else if c = '\x7b' then next reading.openGroup 0
    else if c = '\x7d' then
      match reading.closeGroup? with
      | some closed => next closed 0
      | none => none
    else if c = ',' then next reading.nextAlternative 0
    else if c = '\\' then
      match rest with
      | [] => none
      | escaped :: _ => next (reading.push (literal escaped)) 1
    else if c = '*' then
      match rest with
      | '*' :: after =>
        let (reading, skip) := doubleStar reading before after
        next reading skip
      | _ => next (reading.push [.anyBytes]) 0
    else next (reading.push (literal c)) 0

/-- The parts of a pattern. -/
def read? (text : List Char) : Option (List Token) :=
  readFrom {} none true 0 text

end Ignore

/-- A line of an ignore file. -/
structure IgnorePattern where
  /-- The pattern of paths. -/
  pattern : List Ignore.Token
  /-- Whether it takes back what other lines ignore. -/
  takesBack : Bool
  /-- Whether it stands for directories only. -/
  onlyDirectories : Bool
  deriving Repr, Inhabited

/-- What ignore files say about a path. -/
inductive IgnoreVerdict where
  /-- Nothing. -/
  | silent
  /-- It is ignored. -/
  | ignored
  /-- It is not ignored, whatever files with less say. -/
  | kept
  deriving DecidableEq, Repr, Inhabited

/-- The first verdict that says something. -/
def IgnoreVerdict.or : IgnoreVerdict → IgnoreVerdict → IgnoreVerdict
  | .silent, second => second
  | first, _ => first

namespace IgnorePattern

/-- The text of the pattern of a line: a pattern without a slash stands for names at any depth, and
one that ends in all below a directory does not stand for the directory. -/
def anchored (absolute : Bool) (line : List Char) : List Char :=
  let deep := ['*', '*', '/']
  let anywhere :=
    if absolute || line.contains '/' || deep.isPrefixOf line || line == ['*', '*'] then line
    else deep ++ line
  if ['/', '*', '*'].isSuffixOf anywhere then anywhere ++ ['/', '*'] else anywhere

/-- The pattern of a line; comments, empty lines and lines that are no pattern have none. -/
def read? (line : List Char) : Option IgnorePattern := do
  if line.head? = some '#' then none
  let line := if ['\\', ' '].isSuffixOf line then line else Text.trimEnd line
  if line.isEmpty then none
  let isEscaped := ['\\', '!'].isPrefixOf line || ['\\', '#'].isPrefixOf line
  let line := if isEscaped then line.drop 1 else line
  let takesBack := !isEscaped && line.head? == some '!'
  let line := if takesBack then line.drop 1 else line
  let absolute := !isEscaped && line.head? == some '/'
  let line := if absolute then line.drop 1 else line
  let onlyDirectories := line.getLast? == some '/'
  let line := if onlyDirectories then line.dropLast else line
  let line := if onlyDirectories && line.getLast? == some '\\' then line.dropLast else line
  let pattern ← Ignore.read? (anchored absolute line)
  return ⟨pattern, takesBack, onlyDirectories⟩

/-- Whether a pattern stands for a path. -/
def covers (pattern : IgnorePattern) (path : List UInt8) (isDirectory : Bool) : Bool :=
  (!pattern.onlyDirectories || isDirectory) && Ignore.isMatch pattern.pattern path

end IgnorePattern

/-- The patterns of an ignore file in the order of its lines. -/
abbrev IgnoreFile := List IgnorePattern

namespace IgnoreFile

/-- The ignore file with some lines, the first of which may start with byte order marks. -/
def read (lines : List (List Char)) : IgnoreFile :=
  let unmarked := match lines with
    | first :: rest => first.dropWhile (fun c : Char => c.toNat = 0xFEFF) :: rest
    | [] => []
  unmarked.filterMap IgnorePattern.read?

/-- What an ignore file says about a path below its directory: the last line that matches
decides. -/
def check (file : IgnoreFile) (path : String) (isDirectory : Bool) : IgnoreVerdict :=
  let bytes := path.toUTF8.toList
  match file.reverse.find? fun pattern => pattern.covers bytes isDirectory with
  | some pattern => if pattern.takesBack then .kept else .ignored
  | none => .silent

end IgnoreFile

end RecipeLint
