/-
**A run is made up of its files.**

A run looks at each file that its search finds as if it were the only one. Its report has what is
said about each file, in the order of the paths and of the places, and afterwards the files hold
their changed texts. What one file holds has no effect on what becomes of the others.

* `Analyzer.offenseOrder`, `Analyzer.errorOrder` — the orders of a report.
* `Analyzer.stablySorted_offenses`, `Analyzer.stablySorted_errors` — a report is in these orders.
* `Analyzer.IsComposed` — a report and the files after a run, by the outcomes of the files.
* `Analyzer.lintFile_write` — writing one file leaves the outcomes of the others alone.
* `Analyzer.run_isComposed` — every run is made up of its files.
-/

import RecipeLint.Proofs.Analyzer.Schedule
import RecipeLint.Proofs.Discovery.Contents
import RecipeLint.Proofs.Path.Order

namespace RecipeLint

namespace Analyzer

/-! ### The order of a report -/

/-- Offenses by the path of their file, then by their place. -/
def offenseOrder : Offense → Offense → Ordering :=
  compareLex (fun first second => Path.compare first.location.file second.location.file)
    (compareOn fun offense => offense.location.offset)

/-- Failures by the path of their file, then by their line, if they have one. -/
def errorOrder : FileError → FileError → Ordering :=
  compareLex (fun first second => Path.compare first.file second.file)
    (compareOn fun error => error.line)

instance : Std.TransCmp offenseOrder :=
  have := transCmp_on Path.compare fun offense : Offense => offense.location.file
  inferInstanceAs (Std.TransCmp (compareLex _ _))

instance : Std.TransCmp errorOrder :=
  have := transCmp_on Path.compare fun error : FileError => error.file
  inferInstanceAs (Std.TransCmp (compareLex _ _))

theorem isLE_then (first second : Ordering) :
    (first.then second).isLE =
      match first with
      | .lt => true
      | .gt => false
      | .eq => second.isLE := by
  cases first <;> rfl

theorem decide_le_eq (first second : Nat) :
    decide (first ≤ second) = (compare first second).isLE := by
  rw [Bool.eq_iff_iff, decide_eq_true_iff, Nat.isLE_compare]

theorem offenseLe_eq : offenseLe = fun first second => (offenseOrder first second).isLE := by
  funext first second
  rw [offenseOrder, compareLex, isLE_then, compareOn, ← decide_le_eq]
  rfl

theorem lineLe_eq : lineLe = fun first second => (compare first second).isLE := by
  funext first second
  cases first <;> cases second
  case some.some => exact decide_le_eq _ _
  all_goals rfl

theorem errorLe_eq : errorLe = fun first second => (errorOrder first second).isLE := by
  funext first second
  rw [errorOrder, compareLex, isLE_then, errorLe, lineLe_eq]
  rfl

theorem stablySorted_offenses (outcomes : List FileOutcome) :
    StablySortedBy offenseOrder (outcomes.flatMap (·.offenses)) (reportOf outcomes).offenses := by
  rw [reportOf, offenseLe_eq]
  exact stablySortedBy_mergeSort offenseOrder _

theorem stablySorted_errors (outcomes : List FileOutcome) :
    StablySortedBy errorOrder (outcomes.flatMap (·.errors)) (reportOf outcomes).errors := by
  rw [reportOf, errorLe_eq]
  exact stablySortedBy_mergeSort errorOrder _

/-! ### The outcomes of a run -/

variable {analyzer : Analyzer} {tree : FileTree} {files : List String}

theorem mapM_eq_ok {α β ε : Type} {step : α → Except ε β} {result : α → β} {items : List α}
    (each : ∀ item ∈ items, step item = .ok (result item)) :
    items.mapM step = .ok (items.map result) := by
  induction items with
  | nil => rfl
  | cons item items ih =>
    rw [List.mapM_cons, each item List.mem_cons_self,
      ih fun other member => each other (List.mem_cons_of_mem _ member)]
    rfl

theorem exists_ok_of_mapM {α β ε : Type} {step : α → Except ε β} {items : List α}
    {results : List β} (all : items.mapM step = .ok results) :
    ∀ item ∈ items, ∃ result, step item = .ok result := by
  induction items generalizing results with
  | nil => exact fun item member => absurd member List.not_mem_nil
  | cons item items ih =>
    rw [List.mapM_cons] at all
    cases first : step item with
    | error cause => rw [first] at all; cases all
    | ok result =>
      cases rest : items.mapM step with
      | error cause => rw [first, rest] at all; cases all
      | ok others =>
        intro other member
        rcases List.mem_cons.mp member with rfl | later
        · exact ⟨result, first⟩
        · exact ih rest other later

/-- A file has an outcome, if a calculation has a result in case it can be read. -/
theorem exists_lintFile_iff {path : String} :
    (∃ outcome, analyzer.lintFile tree path = .ok outcome) ↔
      ∀ text, tree.read path = .ok text → ∃ outcome, analyzer.lint path text = .ok outcome := by
  unfold lintFile
  cases tree.read path with
  | error cause => exact ⟨fun _ text readable => (by cases readable), fun _ => ⟨_, rfl⟩⟩
  | ok source =>
    refine ⟨fun found text readable => ?_, fun found => found source rfl⟩
    cases readable
    exact found

/-- The outcome for a file of a tree, if there is one. -/
def outcomeOf (analyzer : Analyzer) (tree : FileTree) (path : String) : FileOutcome :=
  (analyzer.lintFile tree path).toOption.getD { path := path }

theorem lintFile_eq_outcomeOf {path : String}
    (linted : ∃ outcome, analyzer.lintFile tree path = .ok outcome) :
    analyzer.lintFile tree path = .ok (analyzer.outcomeOf tree path) := by
  obtain ⟨outcome, linted⟩ := linted
  rw [outcomeOf, linted]
  rfl

theorem run_of_found (found : analyzer.search.discover tree = .ok files) :
    analyzer.run tree = ((files.mapM (analyzer.lintFile tree)).mapError .overflow).map
      fun outcomes => (reportOf outcomes, writeBack tree outcomes) := by
  rw [run, found]
  rfl

theorem run_of_linted {outcome : String → FileOutcome}
    (found : analyzer.search.discover tree = .ok files)
    (linted : ∀ path ∈ files, analyzer.lintFile tree path = .ok (outcome path)) :
    analyzer.run tree =
      .ok (reportOf (files.map outcome), writeBack tree (files.map outcome)) := by
  rw [run_of_found found, mapM_eq_ok linted]
  rfl

/-- A run comes to an end exactly if each of its files does. -/
theorem exists_run_iff (found : analyzer.search.discover tree = .ok files) :
    (∃ result, analyzer.run tree = .ok result) ↔
      ∀ path ∈ files, ∃ outcome, analyzer.lintFile tree path = .ok outcome := by
  constructor
  · rintro ⟨result, ran⟩
    rw [run_of_found found] at ran
    cases all : files.mapM (analyzer.lintFile tree) with
    | error cause => rw [all] at ran; cases ran
    | ok outcomes => exact exists_ok_of_mapM all
  · intro linted
    exact ⟨_, run_of_linted found fun path member => lintFile_eq_outcomeOf (linted path member)⟩

/-! ### What a run comes to -/

/-- **A report and the files after a run, by the outcomes of the files.** -/
structure IsComposed (analyzer : Analyzer) (tree : FileTree) (files : List String)
    (outcome : String → FileOutcome) (report : Report) (after : FileTree) : Prop where
  /-- The outcome of a file is that of its text alone. -/
  readable : ∀ path ∈ files, ∀ text, tree.read path = .ok text →
    analyzer.lint path text = .ok (outcome path)
  /-- A file that cannot be read has one failure. -/
  unreadable : ∀ path ∈ files, ∀ cause, tree.read path = .error cause →
    outcome path =
      { path := path
        errors := [⟨analyzer.search.relative path, .io, cause.message, none, none⟩] }
  filesChecked : report.filesChecked = files.length
  filesCorrected : report.filesCorrected = files.countP fun path => (outcome path).corrected.isSome
  offenses : StablySortedBy offenseOrder (files.flatMap fun path => (outcome path).offenses)
    report.offenses
  errors : StablySortedBy errorOrder (files.flatMap fun path => (outcome path).errors)
    report.errors
  /-- No file has come or gone. -/
  shape : FileTree.SameShape after tree
  /-- A file with a changed text holds it. -/
  written : ∀ path ∈ files, ∀ text, (outcome path).corrected = some text →
    after.read path = .ok text
  /-- Every other file holds what it held. -/
  unchanged : ∀ names, (∀ path ∈ files, tree.locate path = .ok names →
    (outcome path).corrected = none) → after.fileAt? names = tree.fileAt? names
  /-- A run that looks at its files side by side comes to the same. -/
  anyOrder : ∀ finished last,
    analyzer.Steps ⟨tree, files, [], []⟩ ⟨last, [], [], finished⟩ →
      finished.Perm (files.map outcome) ∧ ∀ names, last.fileAt? names = after.fileAt? names

section Composed

variable {outcome : String → FileOutcome}

/-- An outcome is that of a file exactly if it is that of its own path. -/
theorem mem_map_iff (linted : ∀ path ∈ files, analyzer.lintFile tree path = .ok (outcome path))
    {found : FileOutcome} :
    found ∈ files.map outcome ↔ found.path ∈ files ∧ outcome found.path = found := by
  constructor
  · intro member
    obtain ⟨path, listed, rfl⟩ := List.mem_map.mp member
    rw [path_of_lintFile (linted path listed)]
    exact ⟨listed, rfl⟩
  · rintro ⟨listed, same⟩
    exact List.mem_map.mpr ⟨found.path, listed, same⟩

theorem stored_writeBack (distinct : files.Pairwise (Apart tree))
    (linted : ∀ path ∈ files, analyzer.lintFile tree path = .ok (outcome path)) :
    Stored tree (files.map outcome) (writeBack tree (files.map outcome)) :=
  (complete_of_steps distinct linted (steps_writeBack linted)).2

theorem Stored.unchanged_of_paths {after : FileTree}
    (stored : Stored tree (files.map outcome) after)
    (linted : ∀ path ∈ files, analyzer.lintFile tree path = .ok (outcome path))
    {names : List String} (left : ∀ path ∈ files, tree.locate path = .ok names →
      (outcome path).corrected = none) : after.fileAt? names = tree.fileAt? names := by
  refine stored.unchanged names fun found member located => ?_
  obtain ⟨listed, same⟩ := (mem_map_iff linted).mp member
  rw [← same]
  exact left found.path listed located

theorem isComposed_of_linted (distinct : files.Pairwise (Apart tree))
    (linted : ∀ path ∈ files, analyzer.lintFile tree path = .ok (outcome path)) :
    IsComposed analyzer tree files outcome (reportOf (files.map outcome))
      (writeBack tree (files.map outcome)) := by
  have stored := stored_writeBack distinct linted
  constructor
  case readable =>
    intro path member text readable
    rw [← linted path member, lintFile, readable]
  case unreadable =>
    intro path member cause unreadable
    have own := linted path member
    rw [lintFile, unreadable] at own
    exact (Except.ok.inj own).symm
  case filesChecked => exact List.length_map _
  case filesCorrected => exact List.countP_map
  case offenses =>
    have sorted := stablySorted_offenses (files.map outcome)
    rwa [List.flatMap_map] at sorted
  case errors =>
    have sorted := stablySorted_errors (files.map outcome)
    rwa [List.flatMap_map] at sorted
  case shape => exact stored.shape
  case written =>
    intro path member text corrected
    obtain ⟨names, located, -⟩ := file_of_corrected (linted path member) corrected
    have holds := stored.written (outcome path) (List.mem_map_of_mem member) text corrected names
      (by rw [path_of_lintFile (linted path member), located])
    exact FileTree.read_of_fileAt? (stored.shape.locate path ▸ located) holds
  case unchanged => exact fun names left => stored.unchanged_of_paths linted left
  case anyOrder =>
    intro finished last steps
    obtain ⟨same, other⟩ := complete_of_steps distinct linted steps
    exact ⟨same, fun names => stored.agree other (.refl tree) rfl fun _ _ => same.mem_iff⟩

end Composed

/-! ### A change to one file -/

section Change

variable {source : String} {names : List String}

/-- **Writing one file leaves the outcomes of the others alone.** -/
theorem lintFile_write (located : tree.locate source = .ok names)
    (there : (tree.fileAt? names).isSome = true) (content : Content) {path : String}
    (other : tree.locate path ≠ .ok names) :
    analyzer.lintFile (tree.write source content) path = analyzer.lintFile tree path := by
  obtain ⟨shape, -, others⟩ := FileTree.write_rewrites located there content
  refine lintFile_congr shape fun found leads => others found fun same => other ?_
  rw [leads, same]

/-- The file that has been written has an outcome, if its new text has one. -/
theorem exists_lintFile_write (located : tree.locate source = .ok names)
    (there : (tree.fileAt? names).isSome = true) {content : Content} {path : String}
    (own : tree.locate path = .ok names)
    (linted : ∀ text, content = .text text → ∃ outcome, analyzer.lint path text = .ok outcome) :
    ∃ outcome, analyzer.lintFile (tree.write source content) path = .ok outcome := by
  obtain ⟨shape, holds, -⟩ := FileTree.write_rewrites located there content
  refine exists_lintFile_iff.mpr fun text readable => linted text ?_
  rw [FileTree.read_of_fileAt? (shape.locate path ▸ own) holds] at readable
  cases content <;> cases readable
  rfl

theorem outcomeOf_write (located : tree.locate source = .ok names)
    (there : (tree.fileAt? names).isSome = true) (content : Content) {path : String}
    (other : tree.locate path ≠ .ok names) :
    analyzer.outcomeOf (tree.write source content) path = analyzer.outcomeOf tree path := by
  rw [outcomeOf, outcomeOf, lintFile_write located there content other]

/-- **Writing one file leaves the texts alone that a run leaves behind in the others.** -/
theorem fileAt?_writeBack_write (located : tree.locate source = .ok names)
    (there : (tree.fileAt? names).isSome = true) {content : Content}
    (distinct : files.Pairwise (Apart tree))
    (linted : ∀ path ∈ files, analyzer.lintFile tree path = .ok (analyzer.outcomeOf tree path))
    (again : ∀ path ∈ files, analyzer.lintFile (tree.write source content) path =
      .ok (analyzer.outcomeOf (tree.write source content) path))
    {others : List String} (different : others ≠ names) :
    (writeBack (tree.write source content)
        (files.map (analyzer.outcomeOf (tree.write source content)))).fileAt? others =
      (writeBack tree (files.map (analyzer.outcomeOf tree))).fileAt? others := by
  obtain ⟨shape, -, rest⟩ := FileTree.write_rewrites located there content
  refine (stored_writeBack distinct linted).agree
    (stored_writeBack (pairwise_apart_congr shape distinct) again) shape (rest others different)
    fun outcome leads => ?_
  have away : tree.locate outcome.path ≠ .ok names := fun own => by
    rw [own] at leads
    exact different (Except.ok.inj leads).symm
  rw [mem_map_iff again, mem_map_iff linted, outcomeOf_write located there content away]

end Change

/-- **Every run is made up of its files**, if no two of their paths lead to the same file. It ends
with a report exactly if the calculations for each text do. Something new in one file, which is no
ignore file, leaves the outcomes and the texts of all others alone. -/
theorem run_isComposed (analyzer : Analyzer) (tree : FileTree) (files : List String)
    (found : analyzer.search.discover tree = .ok files)
    (distinct : files.Pairwise (Apart tree)) :
    ((∃ result, analyzer.run tree = .ok result) ↔
      ∀ path ∈ files, ∀ text, tree.read path = .ok text →
        ∃ outcome, analyzer.lint path text = .ok outcome) ∧
    ∀ report after, analyzer.run tree = .ok (report, after) →
      ∃ outcome, IsComposed analyzer tree files outcome report after ∧
        ∀ source names content, tree.locate source = .ok names →
          (tree.fileAt? names).isSome = true → names.getLastD "" ∉ ignoreNames →
          (∀ path ∈ files, tree.locate path = .ok names → ∀ text, content = .text text →
            ∃ outcome, analyzer.lint path text = .ok outcome) →
          ∃ newReport newAfter changed,
            analyzer.run (tree.write source content) = .ok (newReport, newAfter) ∧
            IsComposed analyzer (tree.write source content) files changed newReport newAfter ∧
            (∀ path ∈ files, tree.locate path ≠ .ok names → changed path = outcome path) ∧
            ∀ others, others ≠ names → newAfter.fileAt? others = after.fileAt? others := by
  refine ⟨(exists_run_iff found).trans (by simp only [exists_lintFile_iff]), ?_⟩
  intro report after ran
  have ended := (exists_run_iff found).mp ⟨_, ran⟩
  have linted := fun path member => lintFile_eq_outcomeOf (ended path member)
  rw [run_of_linted found linted] at ran
  cases ran
  refine ⟨_, isComposed_of_linted distinct linted, ?_⟩
  intro source names content located there plain fine
  have shape := (FileTree.write_rewrites located there content).1
  have foundAgain := (analyzer.search.discover_write located there plain content).trans found
  have again : ∀ path ∈ files, analyzer.lintFile (tree.write source content) path =
      .ok (analyzer.outcomeOf (tree.write source content) path) := by
    intro path member
    refine lintFile_eq_outcomeOf ?_
    by_cases own : tree.locate path = .ok names
    · exact exists_lintFile_write located there own (fine path member own)
    · rw [lintFile_write located there content own]
      exact ended path member
  exact ⟨_, _, _, run_of_linted foundAgain again,
    isComposed_of_linted (pairwise_apart_congr shape distinct) again,
    fun path _ => outcomeOf_write located there content,
    fun others => fileAt?_writeBack_write located there distinct linted again⟩

end Analyzer

/-! ### Two files -/

namespace Sample

/-- The analyzer `chain` for two files. -/
def pair : Analyzer := { chain with search := { chain.search with paths := ["/a.rb", "/b.rb"] } }

/-- A directory with a text and with a file that is none. -/
def folder : FileTree :=
  .directory [("a.rb", .file (.text "a")), ("b.rb", .file (.bytes [255]))]

theorem discover_folder : pair.search.discover folder = .ok ["/a.rb", "/b.rb"] := by
  have found : pair.search.paths.mapM (pair.search.filesOf folder) = .ok [["/a.rb"], ["/b.rb"]] :=
    ok_of_toOption (by decide +kernel)
  have sorted : ["/a.rb", "/b.rb"].mergeSort Path.le = ["/a.rb", "/b.rb"] :=
    List.mergeSort_of_pairwise (by decide +kernel)
  have different : Path.same "/a.rb" "/b.rb" = false := by decide +kernel
  rw [Search.discover, found]
  change Except.ok (Search.dropRepeated (["/a.rb", "/b.rb"].mergeSort Path.le)) = _
  rw [sorted, Search.dropRepeated, different, if_neg Bool.false_ne_true, Search.dropRepeated]
  rintro first second rest ⟨⟩

theorem locate_folder :
    folder.locate "/a.rb" = .ok ["a.rb"] ∧ folder.locate "/b.rb" = .ok ["b.rb"] :=
  ⟨ok_of_toOption (by decide +kernel), ok_of_toOption (by decide +kernel)⟩

theorem apart_folder : ["/a.rb", "/b.rb"].Pairwise (Analyzer.Apart folder) := by
  refine List.pairwise_pair.mpr fun names one other => ?_
  rw [locate_folder.1] at one
  rw [locate_folder.2, ← one] at other
  exact absurd (Except.ok.inj other) (by decide)

/-- One file is corrected, and a text in the place of the other one has no effect on that. -/
theorem folder_isComposed :
    pair.search.discover folder = .ok ["/a.rb", "/b.rb"] ∧
    ["/a.rb", "/b.rb"].Pairwise (Analyzer.Apart folder) ∧
    ∃ report after outcome, pair.run folder = .ok (report, after) ∧
      Analyzer.IsComposed pair folder ["/a.rb", "/b.rb"] outcome report after ∧
      (outcome "/a.rb").corrected = some "c" ∧ after.read "/a.rb" = .ok "c" ∧
      ∃ newReport newAfter changed,
        pair.run (folder.write "/b.rb" (.text "c")) = .ok (newReport, newAfter) ∧
        Analyzer.IsComposed pair (folder.write "/b.rb" (.text "c")) ["/a.rb", "/b.rb"] changed
          newReport newAfter ∧
        changed "/a.rb" = outcome "/a.rb" ∧
        newAfter.fileAt? ["a.rb"] = after.fileAt? ["a.rb"] := by
  have text : folder.read "/a.rb" = .ok "a" := ok_of_toOption (by decide +kernel)
  have noText : (folder.read "/b.rb").toOption = none := by decide +kernel
  have linted : pair.lint "/a.rb" "a" =
      .ok ⟨"/a.rb", [{ offense "ab" (some "b") ⟨"a.rb", 1, 1, 0, 1⟩ with corrected := true }], [],
        some "c"⟩ :=
    ok_of_toOption (by decide +kernel)
  obtain ⟨ends, composed⟩ := Analyzer.run_isComposed pair folder _ discover_folder apart_folder
  obtain ⟨⟨report, after⟩, ran⟩ := ends.mpr (by
    intro path member source readable
    rcases List.mem_pair.mp member with rfl | rfl
    · cases text.symm.trans readable
      exact ⟨_, linted⟩
    · rw [readable] at noText
      cases noText)
  obtain ⟨outcome, isComposed, change⟩ := composed report after ran
  have own := isComposed.readable "/a.rb" (by decide) "a" text
  rw [linted] at own
  have corrected : (outcome "/a.rb").corrected = some "c" := by rw [← Except.ok.inj own]
  obtain ⟨newReport, newAfter, changed, ranAgain, composedAgain, same, stored⟩ :=
    change "/b.rb" ["b.rb"] (.text "c") locate_folder.2 (by decide +kernel)
      (pair.search.not_mem_ignoreNames locate_folder.2 (by decide +kernel)) (by
        intro path member located source holds
        cases holds
        exact ⟨⟨path, [], [], none⟩, ok_of_toOption (by
          rcases List.mem_pair.mp member with rfl | rfl <;> decide +kernel)⟩)
  refine ⟨discover_folder, apart_folder, report, after, outcome, ran, isComposed, corrected,
    isComposed.written "/a.rb" (by decide) "c" corrected, newReport, newAfter, changed, ranAgain,
    composedAgain, same "/a.rb" (by decide) ?_, stored ["a.rb"] (by decide)⟩
  rw [locate_folder.1]
  exact fun equal => absurd (Except.ok.inj equal) (by decide)

end Sample

end RecipeLint
