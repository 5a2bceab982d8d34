/-
**What a search depends on.**

A search looks at the names in a tree and at what ignore files hold. It finds the same files
whatever the other files hold, those of the language among them.

* `ignoreNames` — the names of the files that a search looks into.
* `IgnoreLevel.of_outline` — ignore files say the same.
* `FileTree.walk_outline` — the same files are found below a directory.
* `Search.discover_outline` — a search finds the same files.
* `Search.discover_write` — it does after a file has been written that is no ignore file.
-/

import RecipeLint.Discovery
import RecipeLint.Proofs.FileTree.Contents
import RecipeLint.Proofs.SourceFile.Lines

namespace RecipeLint

/-- The names of the files that a search looks into. -/
def ignoreNames : List String := [".ignore", ".gitignore", ".git", "exclude", "commondir"]

namespace FileTree

/-- Whether a search does not look into files of a name. -/
def isUnread (name : String) : Bool := !ignoreNames.contains name

/-- A tree without what a search does not look into. -/
def outline (tree : FileTree) : FileTree := conceal isUnread "" tree

theorem locate_outline (tree : FileTree) (path : String) :
    tree.outline.locate path = tree.locate path := locate_conceal "" tree path

/-! ### Paths that end in a name -/

/-- A path ends in a name. -/
def EndsIn (path name : String) : Prop :=
  (Text.splitAt '/' path.toList).getLast? = some name.toList

instance (path name : String) : Decidable (EndsIn path name) :=
  inferInstanceAs (Decidable (_ = _))

theorem EndsIn.join {path name : String} (ends : EndsIn path name) (base : String) :
    EndsIn (Path.join base path) name := by
  have appended : ∀ front : List Char,
      (Text.splitAt '/' (front ++ '/' :: path.toList)).getLast? = some name.toList := by
    intro front
    rw [Text.splitAt_append_cons, List.getLast?_append, show _ = _ from ends, Option.some_or]
  unfold Path.join
  split
  next => exact ends
  next =>
    split
    next slash =>
      obtain ⟨front, whole⟩ := List.getLast?_eq_some_iff.mp slash
      rw [EndsIn, String.toList_append, whole, List.append_assoc]
      exact appended front
    next =>
      rw [EndsIn, String.toList_append, String.toList_append, List.append_assoc]
      exact appended base.toList

theorem getLast?_of_locate {tree : FileTree} {path name : String} (ends : EndsIn path name)
    (plain : Path.componentOf? name.toList = some (.normal name)) {names : List String}
    (located : tree.locate path = .ok names) : names.getLast? = some name := by
  obtain ⟨front, whole⟩ := List.getLast?_eq_some_iff.mp ends
  have followed := locateFrom_eq_ok located
  rw [whole, List.foldl_append, List.foldl_cons, List.foldl_nil, followPart_eq, plain] at followed
  rw [followed]
  exact List.getLast?_concat

/-- A search reads the files of a tree alike whose names it looks into. -/
theorem content?_outline (tree : FileTree) {path name : String} (ends : EndsIn path name)
    (plain : Path.componentOf? name.toList = some (.normal name))
    (shown : isUnread name = false) : tree.outline.content? path = tree.content? path := by
  unfold content? get?
  rw [locate_outline]
  cases located : tree.locate path with
  | error => rfl
  | ok names =>
    have last : names.getLastD "" = name := by
      rw [List.getLastD_eq_getLast?, getLast?_of_locate ends plain located, Option.getD_some]
    dsimp only
    rw [outline, descend?_conceal, last]
    cases tree.descend? names with
    | none => rfl
    | some found =>
      cases found with
      | file content => simp [conceal, shown]
      | directory => simp [conceal]

end FileTree

/-! ### Ignore files -/

/-- Surroundings without what a search does not look into. -/
def Surroundings.outline (around : Surroundings) : Surroundings :=
  { around with tree := around.tree.outline }

namespace IgnoreLevel

open FileTree

theorem fileOf_map_conceal {name : String} (shown : isUnread name = false)
    (found : Option FileTree) : fileOf (found.map (conceal isUnread name)) = fileOf found := by
  cases found with
  | none => rfl
  | some tree =>
    cases tree with
    | file content => simp [conceal, shown]
    | directory => simp [conceal, fileOf]

theorem sharedDirectory?_outline (around : Surroundings) (link : Content) :
    around.outline.sharedDirectory? link =
      around.sharedDirectory? link := by
  have commondir : ∀ own : String,
      around.outline.content? (Path.join own "commondir") =
        around.content? (Path.join own "commondir") := by
    intro own
    have ends : EndsIn "commondir" "commondir" := by decide
    exact content?_outline around.tree ((ends.join own).join around.directory) (by decide)
      (by decide)
  unfold Surroundings.sharedDirectory?
  simp only [commondir]

theorem excludeFile_outline (around : Surroundings) (outer : String) (directory : FileTree) :
    excludeFile around.outline (conceal isUnread outer directory) =
      excludeFile around directory := by
  have shown : isUnread ".git" = false := by decide
  have exclude : ∀ shared : String,
      around.outline.content?
          (Path.join shared "info/exclude") =
        around.content? (Path.join shared "info/exclude") := by
    intro shared
    have ends : EndsIn "info/exclude" "exclude" := by decide
    exact content?_outline around.tree ((ends.join shared).join around.directory) (by decide)
      (by decide)
  have inside : fileOf ((conceal isUnread outer directory).descend? [".git", "info", "exclude"]) =
      fileOf (directory.descend? [".git", "info", "exclude"]) := by
    rw [descend?_conceal]
    exact fileOf_map_conceal (show isUnread "exclude" = false by decide) _
  unfold excludeFile
  rw [child?_conceal, inside]
  cases directory.child? ".git" with
  | none => rfl
  | some found =>
    cases found with
    | file link => simp [conceal, shown, sharedDirectory?_outline, exclude]
    | directory => simp [conceal]

/-- **The ignore files of a directory say the same** whatever the files hold that a search does not
look into. -/
theorem of_outline (around : Surroundings) (names : List String) (outer : String)
    (directory : FileTree) :
    of around.outline names (conceal isUnread outer directory) =
      of around names directory := by
  unfold of
  rw [excludeFile_outline, child?_conceal, child?_conceal, child?_conceal, child?_conceal,
    fileOf_map_conceal (by decide), fileOf_map_conceal (by decide), Option.isSome_map,
    Option.isSome_map]

end IgnoreLevel

/-! ### Walks -/

namespace FileTree

open IgnoreLevel

mutual

theorem walk_outline (around : Option Surroundings) (levels : List IgnoreLevel) (path : String)
    (names : List String) (outer : String) : ∀ tree : FileTree,
    walk (around.map Surroundings.outline) levels path names (conceal isUnread outer tree) =
      walk around levels path names tree
  | .file _ => by rw [conceal, walk, walk]
  | .directory entries => by
    have own : (around.map Surroundings.outline).map (fun around =>
        IgnoreLevel.of around names (.directory (concealEntries isUnread entries))) =
          around.map fun around => IgnoreLevel.of around names (.directory entries) := by
      cases around with
      | none => rfl
      | some around =>
        have same := of_outline around names outer (.directory entries)
        rw [conceal] at same
        exact congrArg some same
    rw [conceal, walk, walk, own]
    exact walkEntries_outline around _ path names entries

theorem walkEntries_outline (around : Option Surroundings) (levels : List IgnoreLevel)
    (path : String) (names : List String) : ∀ entries : List (String × FileTree),
    walkEntries (around.map Surroundings.outline) levels path names
        (concealEntries isUnread entries) =
      walkEntries around levels path names entries
  | [] => by rw [concealEntries, walkEntries, walkEntries]
  | (name, tree) :: entries => by
    have verdict : (around.map Surroundings.outline).any (fun around =>
        IgnoreLevel.verdict around levels (Path.join path name) (names ++ [name])
          tree.isDirectory = .ignored) =
        around.any fun around => IgnoreLevel.verdict around levels (Path.join path name)
          (names ++ [name]) tree.isDirectory = .ignored := by
      cases around <;> rfl
    rw [concealEntries, walkEntries, walkEntries]
    simp only [isDirectory_conceal, verdict,
      walk_outline around levels (Path.join path name) (names ++ [name]) name tree,
      walkEntries_outline around levels path names entries]

end

theorem levelsAbove_outline (around : Surroundings) (names : List String) :
    levelsAbove around.outline names = levelsAbove around names := by
  unfold levelsAbove
  refine congrArg (fun level => List.filterMap level _) (funext fun count => ?_)
  have step : around.outline.tree.descend? (names.take count) =
      (around.tree.descend? (names.take count)).map
        (conceal isUnread ((names.take count).getLastD "")) := descend?_conceal _ _ _
  rw [step]
  cases around.tree.descend? (names.take count) with
  | none => rw [Option.map_none, Option.map_none, Option.map_none]
  | some found => rw [Option.map_some, Option.map_some, Option.map_some, of_outline]

theorem filesAt_outline (tree : FileTree) (around : Option Surroundings) (path : String) :
    tree.outline.filesAt (around.map Surroundings.outline) path = tree.filesAt around path := by
  have above : ∀ names : List String,
      (around.map Surroundings.outline).map (fun around => levelsAbove around names) =
        around.map fun around => levelsAbove around names := by
    intro names
    cases around with
    | none => rfl
    | some around => exact congrArg some (levelsAbove_outline around names)
  unfold filesAt
  rw [locate_outline]
  cases tree.locate path with
  | error => rfl
  | ok names =>
    dsimp only
    rw [outline, descend?_conceal]
    cases tree.descend? names with
    | none => rfl
    | some found =>
      rw [Option.map_some]
      dsimp only
      rw [above, walk_outline]

end FileTree

/-! ### Searches -/

namespace Search

theorem filesOf_outline (search : Search) (tree : FileTree) (path : String) :
    search.filesOf tree.outline path = search.filesOf tree path := by
  have followed : (if search.followsIgnoreFiles then
        some (⟨tree.outline, search.directory, search.userIgnore⟩ : Surroundings) else none) =
      (if search.followsIgnoreFiles then
        some (⟨tree, search.directory, search.userIgnore⟩ : Surroundings) else none).map
          Surroundings.outline := by
    split <;> rfl
  unfold filesOf
  simp only [followed, FileTree.filesAt_outline]
  unfold FileTree.get?
  rw [FileTree.locate_outline]
  cases tree.locate path with
  | error => rfl
  | ok names =>
    dsimp only
    rw [FileTree.outline, FileTree.descend?_conceal]
    cases tree.descend? names with
    | none => rfl
    | some found => cases found <;> rw [Option.map_some, FileTree.conceal]

/-- **A search finds the same files whatever the files hold that are no ignore files.** -/
theorem discover_outline (search : Search) (tree : FileTree) :
    search.discover tree.outline = search.discover tree := by
  have each : search.filesOf tree.outline = search.filesOf tree :=
    funext (search.filesOf_outline tree)
  rw [discover, discover, each]

/-- **A search finds the same files after one has been written that is no ignore file.** -/
theorem discover_write (search : Search) {tree : FileTree} {source : String} {names : List String}
    (located : tree.locate source = .ok names) (there : (tree.fileAt? names).isSome = true)
    (plain : names.getLastD "" ∉ ignoreNames) (content : Content) :
    search.discover (tree.write source content) = search.discover tree := by
  obtain ⟨old, found⟩ := FileTree.exists_file_of_isSome there
  have hidden : FileTree.isUnread (names.getLastD "") = true := by
    simpa [FileTree.isUnread] using plain
  have same : (tree.write source content).outline = tree.outline := by
    rw [FileTree.write, FileTree.plainNames_of_locate located]
    exact FileTree.conceal_put hidden found content
  rw [← discover_outline, same, discover_outline]

/-! ### Files of the language -/

/-- The last name of a path that leads to a file. -/
theorem getLast?_of_fileName? {tree : FileTree} {path name : String} {names : List String}
    (named : Path.fileName? path = some name) (located : tree.locate path = .ok names) :
    names.getLast? = some name := by
  have last : (Path.components path).getLast? = some (.normal name) := by
    unfold Path.fileName? at named
    split at named
    next found => rw [found, Option.some.inj named]
    next => cases named
  obtain ⟨front, whole⟩ := List.getLast?_eq_some_iff.mp last
  have followed : names = (Path.components path).foldl FileTree.follow [] :=
    (FileTree.plainNames_of_locate located).symm
  rw [followed, whole, List.foldl_append]
  exact List.getLast?_concat

/-- **A file of the language is no ignore file**, since the names of ignore files have no
extension. -/
theorem not_mem_ignoreNames (search : Search) {tree : FileTree} {source : String}
    {names : List String} (located : tree.locate source = .ok names)
    (handled : search.handles source = true) : names.getLastD "" ∉ ignoreNames := by
  unfold handles Path.extension? at handled
  cases named : Path.fileName? source with
  | none =>
    rw [named] at handled
    cases handled
  | some name =>
    rw [named] at handled
    rw [List.getLastD_eq_getLast?, getLast?_of_fileName? named located, Option.getD_some]
    intro member
    simp only [ignoreNames, List.mem_cons, List.not_mem_nil, or_false] at member
    rcases member with rfl | rfl | rfl | rfl | rfl <;> cases handled

end Search

end RecipeLint
