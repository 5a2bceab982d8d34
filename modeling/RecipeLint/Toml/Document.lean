/-
**Configuration documents.**

A TOML document is a list of lines, each of which opens a table or gives a key a value. While a
document is read, a table remembers how it came to be: by a header, as a part of the path of a
header, or by a key with dots. Only some of these may be opened or added to again.

* `Item` — a value, a table or a list of tables under construction.
* `Item.descend` — changes the table at a path.
* `read?` — the entries of a document.
-/

import RecipeLint.Toml.Scalar

namespace RecipeLint.Toml

/-- How a table came to be. -/
inductive Origin where
  /-- By a header of its own, or as a whole value. -/
  | explicit
  /-- As a part of the path of a header. -/
  | implied
  /-- By a key with dots. -/
  | dotted
  deriving DecidableEq, Repr, Inhabited

/-- What a key has while a document is read. -/
inductive Item where
  /-- A value. -/
  | value (value : Value)
  /-- A table. -/
  | table (origin : Origin) (entries : List (String × Item))
  /-- A list of tables, the last one first. -/
  | tables (last : List (String × Item)) (earlier : List Value)
  deriving Inhabited

/-- The entries of a table under construction. -/
abbrev Entries := List (String × Item)

namespace Item

mutual

/-- The finished value, all within braces or not. -/
def finish (braced : Bool) : Item → Value
  | .value given => given
  | .table _ entries => .table braced (finishAll braced entries)
  | .tables last earlier => .array (earlier.reverse ++ [.table braced (finishAll braced last)])

/-- The finished entries of a table. -/
def finishAll (braced : Bool) : List (String × Item) → List (String × Value)
  | [] => []
  | (key, item) :: rest => (key, finish braced item) :: finishAll braced rest

end

end Item

namespace Entries

/-- What a key has. -/
def find? (entries : Entries) (key : String) : Option Item :=
  (List.find? (fun entry => entry.1 == key) entries).map (·.2)

/-- Gives a key something, in place of what it has. -/
def put (entries : Entries) (key : String) (item : Item) : Entries :=
  if entries.any fun entry => entry.1 == key then
    entries.map fun entry => if entry.1 == key then (key, item) else entry
  else entries ++ [(key, item)]

/-- Changes the table at a path, whose last table `change` gets with its origin. On the way tables
are made if there are none; a key with dots may pass only through tables that no header opened. -/
def descend (dotted : Bool) (change : Origin → Entries → Option Entries) :
    List String → Origin → Entries → Option Entries
  | [], origin, entries => change origin entries
  | key :: path, _, entries =>
    match entries.find? key with
    | none => do
      let origin : Origin := if dotted then .dotted else .implied
      let inner ← descend dotted change path origin []
      some (entries.put key (.table origin inner))
    | some (.table origin inner) => do
      if dotted && origin == .explicit then none
      let inner ← descend dotted change path origin inner
      some (entries.put key (.table origin inner))
    | some (.tables last earlier) => do
      let last ← descend dotted change path .explicit last
      some (entries.put key (.tables last earlier))
    | some (.value _) => none

/-- Gives a key, whose parts but the last are a path, a value. A key with dots adds only to tables
that such a key made, and a key without only to others. -/
def insert (path : List String) (value : Item) (origin : Origin) (entries : Entries) :
    Option Entries :=
  match path.getLast? with
  | none => none
  | some key =>
    let parents := path.dropLast
    let add := fun (origin : Origin) (entries : Entries) =>
      if (origin == .dotted) == parents.isEmpty then none
      else if (entries.find? key).isSome then none
      else some (entries.put key value)
    descend true add parents origin entries

/-- Opens the table at a path; one that was only implied moves behind its neighbours. -/
def openTable (path : List String) (entries : Entries) : Option Entries :=
  match path.getLast? with
  | none => none
  | some key =>
    let enter := fun (_ : Origin) (entries : Entries) =>
      match entries.find? key with
      | none => some (entries.put key (.table .explicit []))
      | some (.table .implied inner) =>
        let others := List.filter (fun entry => entry.1 != key) entries
        some (others ++ [(key, .table .explicit inner)])
      | some _ => none
    descend false enter path.dropLast .explicit entries

/-- Opens one more table of the list of tables at a path. -/
def openElement (path : List String) (entries : Entries) : Option Entries :=
  match path.getLast? with
  | none => none
  | some key =>
    let enter := fun (_ : Origin) (entries : Entries) =>
      match entries.find? key with
      | none => some (entries.put key (.tables [] []))
      | some (.tables last earlier) =>
        some (entries.put key (.tables [] (.table false (Item.finishAll false last) :: earlier)))
      | some _ => none
    descend false enter path.dropLast .explicit entries

end Entries

/-! ### Values -/

namespace Scan

/-- The elements of an array after its opening bracket. -/
def elements (value : Scan Value) : Nat → Scan (List Value)
  | 0 => refuse
  | bound + 1 => do
    anySpace
    if ← accept "]" then return []
    let first ← value
    anySpace
    if ← accept "," then return first :: (← elements value bound)
    expect "]"
    return [first]

/-- The entries of a table in braces, after at least one entry is known to follow. -/
def inlineEntries (value : Scan Value) : Nat → Entries → Scan Entries
  | 0, _ => refuse
  | bound + 1, entries => do
    let path ← key
    blanks
    expect "="
    blanks
    let given ← value
    match entries.insert path (.value given) .explicit with
    | none => refuse
    | some entries =>
      blanks
      if ← accept "," then inlineEntries value bound entries
      else
        expect "\x7d"
        return entries

/-- A value that nests no others. -/
def scalar : Scan Value := do
  if (← sees "\"") || (← sees "'") then return .string (← string true)
  if ← accept "true" then return .boolean true
  if ← accept "false" then return .boolean false
  number

/-- A value that nests others up to a depth. -/
def value : Nat → Scan Value
  | 0 => scalar
  | depth + 1 => do
    let bound := (← get).length + 1
    if ← accept "[" then return .array (← elements (value depth) bound)
    if ← accept "\x7b" then
      blanks
      if ← accept "\x7d" then return .table true []
      return .table true (Item.finishAll true (← inlineEntries (value depth) bound []))
    scalar

/-! ### Lines -/

/-- A document under construction: its entries and the path of the open table. -/
structure State where
  /-- The entries of the document. -/
  entries : Entries
  /-- The path of the open table. -/
  path : List String

/-- Reads one line, if there is one, into a document. -/
def line (state : State) : Scan State := do
  blanks
  if ← accept "[[" then
    let path ← key
    blanks
    expect "]]"
    endOfLine
    match state.entries.openElement path with
    | some entries => return ⟨entries, path⟩
    | none => refuse
  else if ← accept "[" then
    let path ← key
    blanks
    expect "]"
    endOfLine
    match state.entries.openTable path with
    | some entries => return ⟨entries, path⟩
    | none => refuse
  else if (← sees "\n") || (← sees "\r\n") || (← sees "#") || (← get).isEmpty then
    endOfLine
    return state
  else
    let path ← key
    blanks
    expect "="
    blanks
    let given ← value (depthLimit - 1)
    endOfLine
    let add := Entries.insert path (.value given)
    match state.entries.descend false add state.path .explicit with
    | some entries => return { state with entries := entries }
    | none => refuse

/-- Reads the lines of a document. -/
def allLines : Nat → State → Scan State
  | 0, state => return state
  | bound + 1, state => do
    if (← get).isEmpty then return state
    allLines bound (← line state)

end Scan

/-- The entries of a document. A mark of the byte order at its start does not count. -/
def read? (text : String) : Option (List (String × Value)) :=
  let text := match text.toList with
    | c :: rest => if c.toNat = 0xFEFF then rest else c :: rest
    | [] => []
  match Scan.allLines (text.length + 1) ⟨[], []⟩ text with
  | some (state, []) => some (Item.finishAll false state.entries)
  | _ => none

end RecipeLint.Toml
