/-
**Trees of files and what the files hold.**

Where a path leads depends on the names in a tree only, not on what the files hold. Writing to a
file that is there changes what this file holds, and nothing else.

* `FileTree.conceal` — a tree without what some of its files hold.
* `FileTree.locate_conceal` — a path leads to the same place in it.
* `FileTree.fileAt?` — what the file holds that names lead to.
* `FileTree.plainNames_of_locate` — the names of a path that leads somewhere.
* `FileTree.SameShape` — two trees that differ only in what their files hold.
* `FileTree.write_rewrites` — writing to a file that is there rewrites it alone.
-/

import RecipeLint.FileTree

namespace RecipeLint.FileTree

/-! ### Trees without contents -/

mutual

/-- A tree that is found under a name, without what the files hold whose names are hidden. -/
def conceal (hides : String → Bool) (name : String) : FileTree → FileTree
  | .file content => .file (if hides name then .text "" else content)
  | .directory entries => .directory (concealEntries hides entries)

def concealEntries (hides : String → Bool) : List (String × FileTree) → List (String × FileTree)
  | [] => []
  | (name, tree) :: entries => (name, conceal hides name tree) :: concealEntries hides entries

end

variable {hides : String → Bool}

theorem entries_conceal (outer : String) (tree : FileTree) :
    (conceal hides outer tree).entries = concealEntries hides tree.entries := by
  cases tree with
  | file => rw [conceal, entries, entries, concealEntries]
  | directory => rw [conceal, entries, entries]

theorem isDirectory_conceal (outer : String) (tree : FileTree) :
    (conceal hides outer tree).isDirectory = tree.isDirectory := by
  cases tree <;> rw [conceal] <;> rfl

theorem any_concealEntries (entries : List (String × FileTree)) (name : String) :
    ((concealEntries hides entries).any fun entry => entry.1 == name) =
      entries.any fun entry => entry.1 == name := by
  induction entries with
  | nil => rw [concealEntries]
  | cons entry entries ih => rw [concealEntries, List.any_cons, List.any_cons, ih]

theorem child?_conceal (outer name : String) (tree : FileTree) :
    (conceal hides outer tree).child? name = (tree.child? name).map (conceal hides name) := by
  unfold child?
  rw [entries_conceal]
  induction tree.entries with
  | nil => rw [concealEntries]; rfl
  | cons entry entries ih =>
    rw [concealEntries, List.find?_cons, List.find?_cons]
    cases here : entry.1 == name with
    | true =>
      obtain rfl : entry.1 = name := beq_iff_eq.mp here
      rfl
    | false => exact ih

/-- Names lead to the same in a tree without contents. -/
theorem descend?_conceal (names : List String) (outer : String) (tree : FileTree) :
    (conceal hides outer tree).descend? names =
      (tree.descend? names).map (conceal hides (names.getLastD outer)) := by
  induction names generalizing outer tree with
  | nil => rfl
  | cons name names ih =>
    rw [descend?, descend?, child?_conceal]
    cases tree.child? name with
    | none => rfl
    | some below =>
      have step := ih name below
      rw [List.getLastD_cons]
      exact step

theorem locateFrom_conceal (outer : String) (tree : FileTree) (here : List String)
    (parts : List (List Char)) :
    locateFrom (conceal hides outer tree) here parts = locateFrom tree here parts := by
  induction parts generalizing here with
  | nil => rfl
  | cons part parts ih =>
    rw [locateFrom, locateFrom, descend?_conceal]
    cases tree.descend? here with
    | none => rfl
    | some found =>
      cases found with
      | file => rw [Option.map_some, conceal]
      | directory entries =>
        rw [Option.map_some, conceal]
        simp only [ih, any_concealEntries]

/-- **Where a path leads does not depend on what the files hold.** -/
theorem locate_conceal (outer : String) (tree : FileTree) (path : String) :
    (conceal hides outer tree).locate path = tree.locate path :=
  locateFrom_conceal outer tree [] _

/-! ### Files by their names -/

/-- What a file holds. -/
def own? : FileTree → Option Content
  | .file content => some content
  | .directory _ => none

/-- What the file holds that names lead to. -/
def fileAt? (tree : FileTree) (names : List String) : Option Content :=
  (tree.descend? names).bind own?

theorem fileAt?_cons (tree : FileTree) (name : String) (names : List String) :
    tree.fileAt? (name :: names) = (tree.child? name).bind fun below => below.fileAt? names := by
  unfold fileAt?
  rw [descend?]
  cases tree.child? name <;> rfl

theorem isSome_fileAt?_conceal (outer : String) (tree : FileTree) (names : List String) :
    ((conceal hides outer tree).fileAt? names).isSome = (tree.fileAt? names).isSome := by
  unfold fileAt?
  rw [descend?_conceal]
  cases tree.descend? names with
  | none => rfl
  | some found => cases found <;> simp only [Option.map_some, Option.bind_some, conceal] <;> rfl

/-! ### Changes -/

theorem child?_cons (entry : String × FileTree) (entries : List (String × FileTree))
    (name : String) :
    (directory (entry :: entries)).child? name =
      if entry.1 = name then some entry.2 else (directory entries).child? name := by
  unfold child?
  rw [FileTree.entries, FileTree.entries, List.find?_cons]
  split
  next here => rw [if_pos (beq_iff_eq.mp here)]; rfl
  next other => rw [if_neg (by simpa using other)]

theorem child?_putEntry (name other : String) (new : FileTree)
    (entries : List (String × FileTree)) :
    (directory (putEntry name new entries)).child? other =
      if other = name then some new else (directory entries).child? other := by
  induction entries with
  | nil =>
    rw [putEntry, child?_cons]
    simp only [eq_comm]
  | cons entry entries ih =>
    rw [putEntry]
    split
    next same =>
      rw [child?_cons, child?_cons, same]
      by_cases here : other = name
      · rw [if_pos here, if_pos here.symm]
      · rw [if_neg here, if_neg (Ne.symm here), if_neg (Ne.symm here)]
    next different =>
      rw [child?_cons, child?_cons, ih]
      by_cases here : other = name
      · rw [if_neg (here ▸ different), if_pos here, if_pos here]
      · rw [if_neg here, if_neg here]

/-- What is put somewhere is there. -/
theorem descend?_put_self (new : FileTree) (names : List String) (tree : FileTree) :
    (put new names tree).descend? names = some new := by
  induction names generalizing tree with
  | nil => rfl
  | cons name names ih =>
    rw [put, descend?, child?_putEntry, if_pos rfl]
    exact ih _

/-- **A file that is put in the place of another leaves all other files as they are.** -/
theorem fileAt?_put_of_ne {names others : List String} (different : others ≠ names)
    {tree : FileTree} {old : Content} (there : tree.descend? names = some (.file old))
    (content : Content) :
    (put (.file content) names tree).fileAt? others = tree.fileAt? others := by
  induction names generalizing others tree with
  | nil =>
    cases there
    cases others with
    | nil => exact absurd rfl different
    | cons other others => rw [put, fileAt?_cons, fileAt?_cons]; rfl
  | cons name names ih =>
    rw [descend?] at there
    obtain ⟨below, child, found⟩ := Option.bind_eq_some_iff.mp there
    cases tree with
    | file => cases child
    | directory entries =>
      rw [put, child, Option.getD_some, FileTree.entries]
      cases others with
      | nil => rfl
      | cons other others =>
        rw [fileAt?_cons, fileAt?_cons]
        by_cases same : other = name
        · subst same
          rw [child, child?_putEntry, if_pos rfl]
          exact ih (fun equal => different (equal ▸ rfl)) found
        · rw [child?_putEntry, if_neg same]

theorem concealEntries_putEntry {name : String} {new below : FileTree}
    (alike : conceal hides name new = conceal hides name below) {entries : List (String × FileTree)}
    (child : (directory entries).child? name = some below) :
    concealEntries hides (putEntry name new entries) = concealEntries hides entries := by
  induction entries with
  | nil => cases child
  | cons entry entries ih =>
    rw [putEntry]
    split
    next same =>
      rw [child?_cons, if_pos same] at child
      cases child
      rw [concealEntries, concealEntries, alike, same]
    next other =>
      rw [child?_cons, if_neg other] at child
      rw [concealEntries, concealEntries, ih child]

/-- A file that is put in the place of another under a hidden name does not show. -/
theorem conceal_put {names : List String} {outer : String}
    (hidden : hides (names.getLastD outer) = true) {tree : FileTree} {old : Content}
    (there : tree.descend? names = some (.file old)) (content : Content) :
    conceal hides outer (put (.file content) names tree) = conceal hides outer tree := by
  induction names generalizing outer tree with
  | nil =>
    cases there
    change hides outer = true at hidden
    rw [put, conceal, conceal, if_pos hidden, if_pos hidden]
  | cons name names ih =>
    rw [descend?] at there
    obtain ⟨below, child, found⟩ := Option.bind_eq_some_iff.mp there
    rw [List.getLastD_cons] at hidden
    cases tree with
    | file => cases child
    | directory entries =>
      rw [put, child, Option.getD_some, FileTree.entries, conceal, conceal,
        concealEntries_putEntry (ih hidden found) child]

/-! ### The names of a path -/

/-- The names after a component of a path. -/
def follow (names : List String) : Path.Component → List String
  | .normal name => names ++ [name]
  | .parent => names.dropLast
  | _ => names

/-- The names after a part of a path. -/
def followPart (names : List String) (part : List Char) : List String :=
  if part = [] ∨ part = ['.'] then names
  else if part = ['.', '.'] then names.dropLast
  else names ++ [String.ofList part]

theorem followPart_eq (names : List String) (part : List Char) :
    followPart names part = ((Path.componentOf? part).map (follow names)).getD names := by
  unfold followPart Path.componentOf?
  split
  next => rfl
  next => split <;> rfl

/-- The first part of a path is followed like the others: a root and a single dot lead nowhere. -/
theorem foldl_filterMap_cons {part : List Char} {component : Option Path.Component}
    (names : List String) (parts : List (List Char × Option Path.Component))
    (same : component = Path.componentOf? part ∨ (part = [] ∧ component = some .root) ∨
      (part = ['.'] ∧ component = some .current)) :
    (((part, component) :: parts).filterMap (·.2)).foldl follow names =
      (parts.filterMap (·.2)).foldl follow (followPart names part) := by
  rcases same with rfl | ⟨rfl, rfl⟩ | ⟨rfl, rfl⟩
  · rw [followPart_eq]
    cases found : Path.componentOf? part <;> rfl
  · rfl
  · rfl

theorem foldl_componentOf? (parts : List (List Char)) (names : List String) :
    ((parts.map fun part => (part, Path.componentOf? part)).filterMap (·.2)).foldl follow names =
      parts.foldl followPart names := by
  induction parts generalizing names with
  | nil => rfl
  | cons part parts ih =>
    rw [List.map_cons, foldl_filterMap_cons names _ (Or.inl rfl), ih, List.foldl_cons]

theorem plainNames_eq (path : String) :
    plainNames path = (Text.splitAt '/' path.toList).foldl followPart [] := by
  show (Path.components path).foldl follow [] = _
  unfold Path.components Path.parts
  split
  next none => rw [none]; rfl
  next only whole =>
    rw [whole, List.foldl_cons]
    refine foldl_filterMap_cons [] [] ?_
    split
    next dot => exact Or.inr (Or.inr ⟨dot, rfl⟩)
    next => exact Or.inl rfl
  next first rest _ whole =>
    rw [whole, List.foldl_cons, ← foldl_componentOf?]
    refine foldl_filterMap_cons [] _ ?_
    split
    next empty => exact Or.inr (Or.inl ⟨empty, rfl⟩)
    next =>
      split
      next dot => exact Or.inr (Or.inr ⟨dot, rfl⟩)
      next => exact Or.inl rfl

theorem locateFrom_eq_ok {tree : FileTree} {here names : List String} {parts : List (List Char)}
    (located : locateFrom tree here parts = .ok names) : names = parts.foldl followPart here := by
  induction parts generalizing here with
  | nil =>
    cases located
    rfl
  | cons part parts ih =>
    rw [locateFrom] at located
    rw [List.foldl_cons, followPart]
    split at located
    next entries _ =>
      split at located
      next skipped => rw [if_pos skipped]; exact ih located
      next other =>
        rw [if_neg other]
        split at located
        next up => rw [if_pos up]; exact ih located
        next down =>
          rw [if_neg down]
          dsimp only at located
          split at located
          next => exact ih located
          next => cases located
    next => cases located
    next => cases located

/-- **A path that leads somewhere leads where its names say.** -/
theorem plainNames_of_locate {tree : FileTree} {path : String} {names : List String}
    (located : tree.locate path = .ok names) : plainNames path = names := by
  rw [plainNames_eq, locateFrom_eq_ok located]

/-! ### Trees of the same shape -/

/-- **Two trees differ only in what their files hold.** -/
def SameShape (first second : FileTree) : Prop :=
  conceal (fun _ => true) "" first = conceal (fun _ => true) "" second

namespace SameShape

variable {first second third : FileTree}

theorem refl (tree : FileTree) : SameShape tree tree := rfl

theorem trans (one : SameShape first second) (other : SameShape second third) :
    SameShape first third :=
  Eq.trans one other

theorem locate (same : SameShape first second) (path : String) :
    first.locate path = second.locate path := by
  rw [← @locate_conceal (fun _ => true) "" first path, same, locate_conceal]

theorem descend? (same : SameShape first second) (names : List String) :
    (first.descend? names).map (conceal (fun _ => true) (names.getLastD "")) =
      (second.descend? names).map (conceal (fun _ => true) (names.getLastD "")) := by
  rw [← descend?_conceal, same, descend?_conceal]

theorem isSome_fileAt? (same : SameShape first second) (names : List String) :
    (first.fileAt? names).isSome = (second.fileAt? names).isSome := by
  rw [← @isSome_fileAt?_conceal (fun _ => true) "" first, same, isSome_fileAt?_conceal]

/-- A file that holds the same in two trees is read alike. -/
theorem read (same : SameShape first second) {path : String}
    (holds : ∀ names, second.locate path = .ok names → first.fileAt? names = second.fileAt? names) :
    first.read path = second.read path := by
  rw [FileTree.read, FileTree.read, same.locate]
  cases located : second.locate path with
  | error cause => rfl
  | ok names =>
    have alike := same.descend? names
    have content := holds names located
    unfold fileAt? at content
    simp only [bind, Except.bind]
    cases one : first.descend? names with
    | none =>
      rw [one, Option.map_none, eq_comm, Option.map_eq_none_iff] at alike
      rw [alike]
    | some tree =>
      rw [one, Option.map_some, eq_comm, Option.map_eq_some_iff] at alike
      obtain ⟨other, found, shape⟩ := alike
      rw [one, found, Option.bind_some, Option.bind_some] at content
      rw [found]
      cases tree <;> cases other
      case file.file =>
        cases content
        rfl
      case directory.directory => rfl
      all_goals cases content

end SameShape

/-- A path whose file can be read leads to a file. -/
theorem file_of_read {tree : FileTree} {path text : String} (readable : tree.read path = .ok text) :
    ∃ names, tree.locate path = .ok names ∧ (tree.fileAt? names).isSome = true := by
  unfold read at readable
  cases located : tree.locate path with
  | error cause =>
    rw [located] at readable
    cases readable
  | ok names =>
    rw [located] at readable
    refine ⟨names, rfl, ?_⟩
    unfold fileAt?
    simp only [bind, Except.bind] at readable
    split at readable
    next found => rw [found]; rfl
    all_goals cases readable

theorem read_of_fileAt? {tree : FileTree} {path : String} {names : List String} {content : Content}
    (located : tree.locate path = .ok names) (holds : tree.fileAt? names = some content) :
    tree.read path = content.text?.elim (.error .notText) .ok := by
  obtain ⟨below, reached, own⟩ := Option.bind_eq_some_iff.mp holds
  cases below with
  | directory => cases own
  | file found =>
    cases own
    unfold read
    simp only [located, bind, Except.bind, reached]
    cases content <;> rfl

theorem exists_file_of_isSome {tree : FileTree} {names : List String}
    (there : (tree.fileAt? names).isSome = true) :
    ∃ content, tree.descend? names = some (.file content) := by
  obtain ⟨content, found⟩ := Option.isSome_iff_exists.mp there
  obtain ⟨below, reached, holds⟩ := Option.bind_eq_some_iff.mp found
  cases below with
  | directory => cases holds
  | file own => exact ⟨own, reached⟩

/-- **Writing to a file that is there changes what it holds and nothing else.** -/
theorem write_rewrites {tree : FileTree} {path : String} {names : List String}
    (located : tree.locate path = .ok names) (there : (tree.fileAt? names).isSome = true)
    (content : Content) :
    SameShape (tree.write path content) tree ∧
      (tree.write path content).fileAt? names = some content ∧
      ∀ others, others ≠ names →
        (tree.write path content).fileAt? others = tree.fileAt? others := by
  obtain ⟨old, found⟩ := exists_file_of_isSome there
  rw [write, plainNames_of_locate located]
  refine ⟨conceal_put rfl found content, ?_, fun others different => ?_⟩
  · rw [fileAt?, descend?_put_self]
    rfl
  · exact fileAt?_put_of_ne different found content

end RecipeLint.FileTree
