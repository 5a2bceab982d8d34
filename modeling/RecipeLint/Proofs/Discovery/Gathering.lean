/-
**What a search gathers.**

A search takes the files that it is given, and below each directory that it is given those that the
language has and the patterns let through. All of them are put in the order of their paths, and a
path that comes up several times stays once. So it does not matter in which order and how often the
paths are given, or whether a directory is given as well that lies below another one.

Several texts can be the same path, and patterns look at the text. A directory that is given in two
spellings adds nothing as long as the patterns do not tell the spellings of its files apart.

* `Search.Finds`, `Search.Gathers` — what is to be found, and a list that has just this.
* `Search.gathers_dropRepeated` — sorting and dropping repetitions gathers.
* `Search.Gathers.forall₂_same` — two searches that find the same paths gather the same paths.
* `Search.IsCovered`, `Search.AddsNothing` — other paths that stand for nothing else.
* `Search.discover_gathers` — what a search returns, and what it does not depend on.
* `Sample.respelled_adds` — another spelling of a directory can add a file that is left out.
-/

import Mathlib.Data.List.Forall2
import Mathlib.Data.List.Sort
import RecipeLint.Proofs.Analyzer.Composition

namespace RecipeLint

/-! ### Files and directories -/

namespace FileTree

variable {tree : FileTree} {path : String}

theorem has_of_hasFile (isFile : tree.hasFile path = true) : tree.has path = true :=
  Option.isSome_of_any isFile

theorem has_of_hasDirectory (isDirectory : tree.hasDirectory path = true) :
    tree.has path = true :=
  Option.isSome_of_any isDirectory

theorem not_hasDirectory (isFile : tree.hasFile path = true) : ¬ tree.hasDirectory path = true := by
  rw [hasFile, Option.any_eq_true] at isFile
  obtain ⟨found, reached, isFile⟩ := isFile
  rw [hasDirectory, reached]
  cases found with
  | file content => exact Bool.false_ne_true
  | directory entries => cases isFile

end FileTree

/-! ### The outcomes of a run -/

namespace Analyzer

variable {analyzer : Analyzer} {tree : FileTree} {files : List String}

theorem map_path_of_mapM {outcomes : List FileOutcome}
    (linted : files.mapM (analyzer.lintFile tree) = .ok outcomes) :
    outcomes.map (·.path) = files := by
  induction files generalizing outcomes with
  | nil =>
    cases linted
    rfl
  | cons file files ih =>
    rw [List.mapM_cons] at linted
    cases first : analyzer.lintFile tree file with
    | error cause => rw [first] at linted; cases linted
    | ok outcome =>
      cases rest : files.mapM (analyzer.lintFile tree) with
      | error cause => rw [first, rest] at linted; cases linted
      | ok later =>
        rw [first, rest] at linted
        cases linted
        rw [List.map_cons, path_of_lintFile first, ih rest]

/-- A run has one outcome for each of the files that its search finds. -/
theorem exists_outcomes {report : Report} {after : FileTree}
    (found : analyzer.search.discover tree = .ok files)
    (ran : analyzer.run tree = .ok (report, after)) :
    ∃ outcomes, outcomes.map (·.path) = files ∧ report = reportOf outcomes ∧
      after = writeBack tree outcomes := by
  rw [run_of_found found] at ran
  cases linted : files.mapM (analyzer.lintFile tree) with
  | error cause => rw [linted] at ran; cases ran
  | ok outcomes =>
    rw [linted] at ran
    cases ran
    exact ⟨outcomes, map_path_of_mapM linted, rfl, rfl⟩

end Analyzer

namespace Search

/-! ### What is to be found -/

/-- What a walk looks around in for ignore files, if they are followed. -/
def around? (search : Search) (tree : FileTree) : Option Surroundings :=
  if search.followsIgnoreFiles then some ⟨tree, search.directory, search.userIgnore⟩ else none

/-- The files that a walk below a directory comes to, those that are ignored left out. -/
def walked (search : Search) (tree : FileTree) (directory : String) : List String :=
  tree.filesAt (search.around? tree) directory

/-- **A file passes**: the language has it, no pattern leaves it out, and one of the patterns that
pick files picks it, if there are any. -/
structure Passes (search : Search) (file : String) : Prop where
  handled : search.handles file = true
  kept : ∀ glob ∈ search.excluded, search.covers file glob = false
  picked : search.included = [] ∨ ∃ glob ∈ search.included, search.covers file glob = true

/-- **A file that a search is to find**: it is given itself, or it passes and a walk below a given
directory comes to it. -/
inductive Finds (search : Search) (tree : FileTree) (file : String) : Prop where
  | given (listed : file ∈ search.paths) (isFile : tree.hasFile file = true)
  | below (directory : String) (listed : directory ∈ search.paths)
    (isDirectory : tree.hasDirectory directory = true)
    (reached : file ∈ search.walked tree directory) (passes : search.Passes file)

/-- **A list is what a search gathers**: every path that is to be found, once, in the order of
paths. -/
structure Gathers (search : Search) (tree : FileTree) (files : List String) : Prop where
  ascending : files.Pairwise fun first second => Path.compare first second = .lt
  sound : ∀ file ∈ files, search.Finds tree file
  complete : ∀ file, search.Finds tree file → ∃ other ∈ files, Path.same other file = true

/-- **A directory is covered by a search**: a walk below it comes to no other paths than walks below
directories that are given, and to no spelling that the patterns let through while they leave out
the other one. -/
def IsCovered (search : Search) (tree : FileTree) (directory : String) : Prop :=
  ∀ file ∈ search.walked tree directory,
    ∃ given ∈ search.paths, tree.hasDirectory given = true ∧
      ∃ other ∈ search.walked tree given, Path.same other file = true ∧
        (search.excludes other = true → search.excludes file = true)

/-- **Other paths add nothing** to those of a search: all of these are among them, in any order and
any number, and whatever else is among them is another spelling of a file that is given, or a
directory that is covered. -/
structure AddsNothing (search : Search) (tree : FileTree) (paths : List String) : Prop where
  keeps : ∀ path ∈ search.paths, path ∈ paths
  adds : ∀ path ∈ paths, path ∈ search.paths ∨
    (tree.hasFile path = true ∧
      ∃ given ∈ search.paths, tree.hasFile given = true ∧ Path.same given path = true) ∨
    (tree.hasDirectory path = true ∧ search.IsCovered tree path)

variable {search : Search} {tree : FileTree} {file : String} {files others : List String}

theorem excludes_eq_false_iff :
    search.excludes file = false ↔
      (∀ glob ∈ search.excluded, search.covers file glob = false) ∧
        (search.included = [] ∨ ∃ glob ∈ search.included, search.covers file glob = true) := by
  rw [excludes, Bool.or_eq_false_iff, List.any_eq_false, Bool.and_eq_false_imp]
  simp only [Bool.not_eq_true, Bool.not_eq_eq_eq_not, Bool.not_true, Bool.not_false,
    List.isEmpty_eq_false_iff, List.any_eq_true]
  exact and_congr_right fun _ => (or_iff_not_imp_left).symm

theorem passes_iff :
    search.Passes file ↔ search.handles file = true ∧ search.excludes file = false := by
  rw [excludes_eq_false_iff]
  exact ⟨fun ⟨handled, kept, picked⟩ => ⟨handled, kept, picked⟩,
    fun ⟨handled, kept, picked⟩ => ⟨handled, kept, picked⟩⟩

/-- Whether a file is of the language does not depend on how its path is spelled. -/
theorem handles_of_same {other : String} (same : Path.same other file = true) :
    search.handles other = search.handles file := by
  have components : Path.components other = Path.components file := beq_iff_eq.mp same
  have extension : Path.extension? other = Path.extension? file := by
    unfold Path.extension? Path.fileName?
    rw [components]
  rw [handles, handles, extension]

/-! ### What the paths stand for -/

/-- The files that one path of a search stands for; none if it stands for nothing. -/
def standsFor (search : Search) (tree : FileTree) (path : String) : List String :=
  (search.filesOf tree path).toOption.getD []

theorem filesOf_eq_ok {path : String} (there : tree.has path = true) :
    search.filesOf tree path = .ok (search.standsFor tree path) := by
  obtain ⟨found, reached⟩ := Option.isSome_iff_exists.mp there
  rw [standsFor, filesOf, reached]
  cases found <;> rfl

theorem mem_standsFor_iff {path : String} :
    file ∈ search.standsFor tree path ↔
      (file = path ∧ tree.hasFile path = true) ∨
        (tree.hasDirectory path = true ∧ file ∈ search.walked tree path ∧ search.Passes file) := by
  rw [standsFor, filesOf, FileTree.hasFile, FileTree.hasDirectory, passes_iff]
  cases tree.get? path with
  | none => simp [Except.toOption]
  | some found =>
    cases found with
    | file content => simp [Except.toOption, FileTree.isFile, FileTree.isDirectory]
    | directory entries =>
      simp [Except.toOption, FileTree.isFile, FileTree.isDirectory, walked, around?]

/-- What is to be found is what the paths stand for. -/
theorem mem_flatMap_standsFor_iff :
    file ∈ search.paths.flatMap (search.standsFor tree) ↔ search.Finds tree file := by
  rw [List.mem_flatMap]
  constructor
  · rintro ⟨path, listed, member⟩
    rcases mem_standsFor_iff.mp member with ⟨rfl, isFile⟩ | ⟨isDirectory, reached, passes⟩
    · exact .given listed isFile
    · exact .below path listed isDirectory reached passes
  · rintro (⟨listed, isFile⟩ | ⟨directory, listed, isDirectory, reached, passes⟩)
    · exact ⟨file, listed, mem_standsFor_iff.mpr (Or.inl ⟨rfl, isFile⟩)⟩
    · exact ⟨directory, listed, mem_standsFor_iff.mpr (Or.inr ⟨isDirectory, reached, passes⟩)⟩

/-! ### Sorting and dropping repetitions -/

theorem mem_of_mem_dropRepeated (files : List String) :
    ∀ file ∈ dropRepeated files, file ∈ files := by
  induction files using dropRepeated.induct with
  | case1 first second rest same ih =>
    rw [dropRepeated, if_pos same]
    intro file member
    rcases List.mem_cons.mp (ih file member) with rfl | later
    · exact List.mem_cons_self
    · exact List.mem_cons_of_mem _ (List.mem_cons_of_mem _ later)
  | case2 first second rest other ih =>
    rw [dropRepeated, if_neg other, List.forall_mem_cons]
    exact ⟨List.mem_cons_self, fun file member => List.mem_cons_of_mem _ (ih file member)⟩
  | case3 files short =>
    rw [dropRepeated]
    · exact fun file member => member
    · exact short

/-- Every path is still there, perhaps in another spelling. -/
theorem exists_mem_dropRepeated (files : List String) :
    ∀ file ∈ files, ∃ other ∈ dropRepeated files, Path.same other file = true := by
  have itself : ∀ file, Path.same file file = true := fun file => beq_self_eq_true _
  induction files using dropRepeated.induct with
  | case1 first second rest same ih =>
    rw [dropRepeated, if_pos same, List.forall_mem_cons, List.forall_mem_cons]
    rw [List.forall_mem_cons] at ih
    obtain ⟨⟨other, member, alike⟩, later⟩ := ih
    refine ⟨⟨other, member, alike⟩, ⟨other, member, ?_⟩, later⟩
    exact beq_iff_eq.mpr ((beq_iff_eq.mp alike).trans (beq_iff_eq.mp same))
  | case2 first second rest different ih =>
    rw [dropRepeated, if_neg different, List.forall_mem_cons]
    refine ⟨⟨first, List.mem_cons_self, itself first⟩, fun file member => ?_⟩
    obtain ⟨other, kept, alike⟩ := ih file member
    exact ⟨other, List.mem_cons_of_mem _ kept, alike⟩
  | case3 files short =>
    rw [dropRepeated]
    · exact fun file member => ⟨file, member, itself file⟩
    · exact short

/-- A list in order without repetitions is strictly in order. -/
theorem ascending_dropRepeated {files : List String}
    (inOrder : files.Pairwise fun first second => (Path.compare first second).isLE = true) :
    (dropRepeated files).Pairwise fun first second => Path.compare first second = .lt := by
  induction files using dropRepeated.induct with
  | case1 first second rest same ih =>
    rw [dropRepeated, if_pos same]
    refine ih ?_
    rw [List.pairwise_cons, List.forall_mem_cons, List.pairwise_cons] at inOrder
    exact List.pairwise_cons.mpr ⟨inOrder.1.2, inOrder.2.2⟩
  | case2 first second rest different ih =>
    rw [dropRepeated, if_neg different, List.pairwise_cons]
    rw [List.pairwise_cons, List.forall_mem_cons] at inOrder
    refine ⟨fun file member => ?_, ih inOrder.2⟩
    have step : Path.compare first second = .lt := by
      have untied : Path.compare first second ≠ .eq := mt Path.compare_eq_iff.mp different
      have upTo := inOrder.1.1
      cases order : Path.compare first second with
      | lt => rfl
      | eq => exact absurd order untied
      | gt => rw [order] at upTo; cases upTo
    rcases List.mem_cons.mp (mem_of_mem_dropRepeated _ file member) with rfl | later
    · exact step
    · exact Std.TransCmp.lt_of_lt_of_isLE step ((List.pairwise_cons.mp inOrder.2).1 file later)
  | case3 files short =>
    rw [dropRepeated]
    · cases files with
      | nil => exact List.Pairwise.nil
      | cons first rest =>
        cases rest with
        | nil => exact List.pairwise_singleton _ _
        | cons second rest => exact absurd rfl (short first second rest)
    · exact short

/-- **Sorting the files that the paths stand for and dropping repetitions gathers them.** -/
theorem gathers_dropRepeated (search : Search) (tree : FileTree) :
    search.Gathers tree
      (dropRepeated ((search.paths.flatMap (search.standsFor tree)).mergeSort Path.le)) := by
  have sorted := stablySortedBy_mergeSort Path.compare
    (search.paths.flatMap (search.standsFor tree))
  rw [← Path.le_eq] at sorted
  refine ⟨ascending_dropRepeated sorted.inOrder, fun file member => ?_, fun file finds => ?_⟩
  · have found := mem_of_mem_dropRepeated _ file member
    exact mem_flatMap_standsFor_iff.mp (sorted.perm.mem_iff.mp found)
  · have found := mem_flatMap_standsFor_iff.mpr finds
    exact exists_mem_dropRepeated _ file (sorted.perm.mem_iff.mpr found)

/-! ### Independence of how the paths are given -/

/-- No path comes up twice. -/
theorem Gathers.distinct (gathers : search.Gathers tree files) :
    files.Pairwise fun first second => Path.same first second = false := by
  refine gathers.ascending.imp fun earlier => ?_
  rw [← Bool.not_eq_true, ← Path.compare_eq_iff, earlier]
  exact fun tied => by cases tied

theorem Gathers.ascending_components (gathers : search.Gathers tree files) :
    (files.map Path.components).Pairwise fun first second =>
      Path.compareComponents first second = .lt :=
  List.pairwise_map.mpr gathers.ascending

/-- A search that finds no other paths than another one gathers no others. -/
theorem Gathers.map_subset {search' : Search} (gathers : search.Gathers tree files)
    (gathers' : search'.Gathers tree others)
    (sub : ∀ file, search.Finds tree file →
      ∃ other, search'.Finds tree other ∧ Path.same other file = true) :
    files.map Path.components ⊆ others.map Path.components := by
  intro components member
  obtain ⟨file, listed, rfl⟩ := List.mem_map.mp member
  obtain ⟨other, finds, alike⟩ := sub file (gathers.sound file listed)
  obtain ⟨kept, keptListed, alike'⟩ := gathers'.complete other finds
  exact List.mem_map.mpr ⟨kept, keptListed, (beq_iff_eq.mp alike').trans (beq_iff_eq.mp alike)⟩

/-- **Two searches that find the same paths gather the same paths.** -/
theorem Gathers.forall₂_same {search' : Search} (gathers : search.Gathers tree files)
    (gathers' : search'.Gathers tree others)
    (sub : ∀ file, search.Finds tree file →
      ∃ other, search'.Finds tree other ∧ Path.same other file = true)
    (sup : ∀ file, search'.Finds tree file →
      ∃ other, search.Finds tree other ∧ Path.same other file = true) :
    List.Forall₂ (fun file other => Path.same file other = true) files others := by
  have irrefl : Std.Irrefl fun first second : List Path.Component =>
      Path.compareComponents first second = .lt := by
    refine ⟨fun components earlier => ?_⟩
    have tied : Path.compareComponents components components = .eq := Std.ReflCmp.compare_self
    cases tied.symm.trans earlier
  have antisymm : Std.Antisymm fun first second : List Path.Component =>
      Path.compareComponents first second = .lt :=
    ⟨fun first second earlier later =>
      absurd (Std.TransCmp.lt_trans earlier later) (irrefl.irrefl first)⟩
  have equal : files.map Path.components = others.map Path.components :=
    List.Subset.antisymm_of_pairwise gathers.ascending_components gathers'.ascending_components
      (gathers.map_subset gathers' sub) (gathers'.map_subset gathers sup)
  rw [← List.forall₂_eq_eq_eq, List.forall₂_map_left_iff, List.forall₂_map_right_iff] at equal
  exact equal.imp fun file other alike => beq_iff_eq.mpr alike

namespace AddsNothing

variable {paths : List String}

/-- What is found stays to be found. -/
theorem finds_of_finds (nothing : search.AddsNothing tree paths) (finds : search.Finds tree file) :
    { search with paths := paths }.Finds tree file := by
  cases finds with
  | given listed isFile => exact .given (nothing.keeps file listed) isFile
  | below directory listed isDirectory reached passes =>
    exact .below directory (nothing.keeps directory listed) isDirectory reached
      ⟨passes.handled, passes.kept, passes.picked⟩

/-- What else is found was found in another spelling. -/
theorem exists_finds (nothing : search.AddsNothing tree paths)
    (finds : { search with paths := paths }.Finds tree file) :
    ∃ other, search.Finds tree other ∧ Path.same other file = true := by
  have itself : Path.same file file = true := beq_self_eq_true _
  cases finds with
  | given listed isFile =>
    rcases nothing.adds file listed with already | ⟨-, other, given, isFile', alike⟩ |
      ⟨isDirectory, -⟩
    · exact ⟨file, .given already isFile, itself⟩
    · exact ⟨other, .given given isFile', alike⟩
    · exact absurd isDirectory (FileTree.not_hasDirectory isFile)
  | below directory listed isDirectory reached passes =>
    have passes' : search.Passes file := ⟨passes.handled, passes.kept, passes.picked⟩
    rcases nothing.adds directory listed with already | ⟨isFile, -⟩ | ⟨-, covered⟩
    · exact ⟨file, .below directory already isDirectory reached passes', itself⟩
    · exact absurd isDirectory (FileTree.not_hasDirectory isFile)
    · obtain ⟨given, listed', isDirectory', other, reached', alike, spelled⟩ :=
        covered file reached
      obtain ⟨handled, kept⟩ := passes_iff.mp passes'
      have keptToo : search.excludes other = false :=
        Bool.eq_false_iff.mpr fun left => by rw [spelled left] at kept; cases kept
      have admitted : search.Passes other :=
        passes_iff.mpr ⟨(handles_of_same alike).trans handled, keptToo⟩
      exact ⟨other, .below given listed' isDirectory' reached' admitted, alike⟩

/-- Paths that add nothing stand for something. -/
theorem forall_has (nothing : search.AddsNothing tree paths)
    (there : ∀ path ∈ search.paths, tree.has path = true) :
    ∀ path ∈ paths, tree.has path = true := by
  intro path listed
  rcases nothing.adds path listed with already | ⟨isFile, -⟩ | ⟨isDirectory, -⟩
  · exact there path already
  · exact FileTree.has_of_hasFile isFile
  · exact FileTree.has_of_hasDirectory isDirectory

end AddsNothing

/-! ### What is returned -/

theorem exists_discover (search : Search) {tree : FileTree}
    (there : ∀ path ∈ search.paths, tree.has path = true) :
    ∃ files, search.discover tree = .ok files ∧ search.Gathers tree files := by
  have each : search.paths.mapM (search.filesOf tree) =
      .ok (search.paths.map (search.standsFor tree)) :=
    Analyzer.mapM_eq_ok fun path listed => filesOf_eq_ok (there path listed)
  refine ⟨_, ?_, search.gathers_dropRepeated tree⟩
  rw [discover, each, List.flatMap]
  rfl

/-- **A search over paths that stand for something returns what it gathers**: every file that is to
be found, once, in the order of paths. It returns the same paths if its own are given in another
order, or several times, or together with others that add nothing; and a run of an analyzer looks at
each of them once, and writes to it once at most. -/
theorem discover_gathers (search : Search) (tree : FileTree)
    (there : ∀ path ∈ search.paths, tree.has path = true) :
    ∃ files, search.discover tree = .ok files ∧ search.Gathers tree files ∧
      files.Pairwise (fun first second => Path.same first second = false) ∧
      (∀ paths, search.AddsNothing tree paths →
        ∃ others, { search with paths := paths }.discover tree = .ok others ∧
          List.Forall₂ (fun file other => Path.same file other = true) files others) ∧
      ∀ analyzer : Analyzer, analyzer.search = search → ∀ report after,
        analyzer.run tree = .ok (report, after) →
          ∃ outcomes, outcomes.map (·.path) = files ∧ report = Analyzer.reportOf outcomes ∧
            after = Analyzer.writeBack tree outcomes := by
  obtain ⟨files, found, gathers⟩ := search.exists_discover there
  refine ⟨files, found, gathers, gathers.distinct, fun paths nothing => ?_, ?_⟩
  · obtain ⟨others, found', gathers'⟩ :=
      { search with paths := paths }.exists_discover (nothing.forall_has there)
    have sub : ∀ file, search.Finds tree file →
        ∃ other, { search with paths := paths }.Finds tree other ∧ Path.same other file = true :=
      fun file finds => ⟨file, nothing.finds_of_finds finds, beq_self_eq_true _⟩
    exact ⟨others, found', gathers.forall₂_same gathers' sub fun file => nothing.exists_finds⟩
  · rintro analyzer rfl report after ran
    exact Analyzer.exists_outcomes found ran

end Search

/-! ### Samples -/

namespace Sample

/-- A directory with a file below another directory. -/
def nestedTree : FileTree :=
  .directory [("w", .directory [("a", .directory [("b", .directory
    [("x.rb", .file (.text "x"))])])])]

/-- A search below the outer directory, and for the file in it. -/
def nestedSearch : Search where
  root := "/w"
  paths := ["/w/a", "/w/a/b/x.rb"]
  extensions := ["rb"]

theorem walked_nested :
    nestedSearch.walked nestedTree "/w/a" = ["/w/a/b/x.rb"] ∧
      nestedSearch.walked nestedTree "/w/a/b" = ["/w/a/b/x.rb"] := by
  decide +kernel

/-- Given in another order and twice, and together with the inner directory, the paths of the search
add nothing. -/
theorem nested_addsNothing :
    nestedSearch.AddsNothing nestedTree ["/w/a/b/x.rb", "/w/a/b", "/w/a", "/w/a/b/x.rb"] where
  keeps := by decide +kernel
  adds := by
    have covered : nestedSearch.IsCovered nestedTree "/w/a/b" := by
      intro file reached
      rw [walked_nested.2, ← walked_nested.1] at reached
      exact ⟨"/w/a", by decide +kernel, by decide +kernel, file, reached, beq_self_eq_true _, id⟩
    have inner : nestedTree.hasDirectory "/w/a/b" = true := by decide +kernel
    have file : "/w/a/b/x.rb" ∈ nestedSearch.paths := by decide +kernel
    have outer : "/w/a" ∈ nestedSearch.paths := by decide +kernel
    simp only [List.forall_mem_cons]
    exact ⟨Or.inl file, Or.inr (Or.inr ⟨inner, covered⟩), Or.inl outer, Or.inl file,
      List.forall_mem_nil _⟩

theorem discover_nested : nestedSearch.discover nestedTree = .ok ["/w/a/b/x.rb"] := by
  have found : nestedSearch.paths.mapM (nestedSearch.filesOf nestedTree) =
      .ok [["/w/a/b/x.rb"], ["/w/a/b/x.rb"]] :=
    ok_of_toOption (by decide +kernel)
  have sorted : ["/w/a/b/x.rb", "/w/a/b/x.rb"].mergeSort Path.le =
      ["/w/a/b/x.rb", "/w/a/b/x.rb"] :=
    List.mergeSort_of_pairwise (by decide +kernel)
  have same : Path.same "/w/a/b/x.rb" "/w/a/b/x.rb" = true := beq_self_eq_true _
  rw [Search.discover, found]
  change Except.ok (Search.dropRepeated (["/w/a/b/x.rb", "/w/a/b/x.rb"].mergeSort Path.le)) = _
  rw [sorted, Search.dropRepeated, if_pos same, Search.dropRepeated]
  rintro first second rest ⟨⟩

/-- The file comes up several times in both searches, and stays once. -/
theorem nestedSearch_gathers :
    (∀ path ∈ nestedSearch.paths, nestedTree.has path = true) ∧
      nestedSearch.discover nestedTree = .ok ["/w/a/b/x.rb"] ∧
      nestedSearch.Gathers nestedTree ["/w/a/b/x.rb"] ∧
      ∃ others,
        { nestedSearch with paths := ["/w/a/b/x.rb", "/w/a/b", "/w/a", "/w/a/b/x.rb"] }.discover
          nestedTree = .ok others ∧
        List.Forall₂ (fun file other => Path.same file other = true) ["/w/a/b/x.rb"] others := by
  have there : ∀ path ∈ nestedSearch.paths, nestedTree.has path = true := by decide +kernel
  obtain ⟨files, found, gathers, -, other, -⟩ :=
    Search.discover_gathers nestedSearch nestedTree there
  obtain rfl : ["/w/a/b/x.rb"] = files := Except.ok.inj (discover_nested.symm.trans found)
  exact ⟨there, found, gathers, other _ nested_addsNothing⟩

/-- A search below the outer directory without the file in it. -/
def strictSearch : Search where
  root := "/w"
  paths := ["/w/a"]
  excluded := [['a', '/', 'b', '/', 'x', '.', 'r', 'b'].map .char]
  extensions := ["rb"]

/-- **Another spelling of a directory can add a file.** The inner directory lies below the outer
one, and a walk below it comes to the same path; but the pattern does not stand for its spelling. -/
theorem respelled_adds :
    (∀ path ∈ ["/w/a", "/w/a/./b"], nestedTree.hasDirectory path = true) ∧
      Path.strip? "/w/a" "/w/a/./b" = some "b" ∧
      (∀ file ∈ strictSearch.walked nestedTree "/w/a/./b",
        ∃ other ∈ strictSearch.walked nestedTree "/w/a", Path.same other file = true) ∧
      strictSearch.discover nestedTree = .ok [] ∧
      { strictSearch with paths := ["/w/a", "/w/a/./b"] }.discover nestedTree =
        .ok ["/w/a/./b/x.rb"] := by
  have none : strictSearch.paths.mapM (strictSearch.filesOf nestedTree) = .ok [[]] :=
    ok_of_toOption (by decide +kernel)
  have one : ["/w/a", "/w/a/./b"].mapM (strictSearch.filesOf nestedTree) =
      .ok [[], ["/w/a/./b/x.rb"]] :=
    ok_of_toOption (by decide +kernel)
  refine ⟨by decide +kernel, by decide +kernel, by decide +kernel, ?_, ?_⟩
  · rw [Search.discover, none]
    change Except.ok (Search.dropRepeated (([] : List String).mergeSort Path.le)) = _
    rw [List.mergeSort_nil, Search.dropRepeated]
    rintro first second rest ⟨⟩
  · change (do
      let found ← ["/w/a", "/w/a/./b"].mapM (strictSearch.filesOf nestedTree)
      return Search.dropRepeated (found.flatten.mergeSort Path.le)) = _
    rw [one]
    change Except.ok (Search.dropRepeated (["/w/a/./b/x.rb"].mergeSort Path.le)) = _
    rw [List.mergeSort_singleton, Search.dropRepeated]
    rintro first second rest ⟨⟩

end Sample

end RecipeLint
