/-
**Files that are looked at side by side.**

A run may look at its files in any order, and start with one before it is done with another: it
reads a file, and some time later it writes the changed text back. As long as no two paths lead to
the same file, every order comes to the same outcomes and leaves the same texts behind.

* `Analyzer.Apart` — two paths that lead to different files.
* `Analyzer.Stored` — a tree in which the changed texts of some outcomes have been written back.
* `Analyzer.Stored.store` — one more is written back.
* `Analyzer.Stored.agree` — the outcomes say what a file holds.
* `Analyzer.Step` — one step of a run: a file is read, or a changed text is written back.
* `Analyzer.Progress.Tracks` — what every step keeps.
* `Analyzer.complete_of_steps` — every order of steps comes to the same.
* `Analyzer.steps_writeBack` — to read everything first is one of them.
-/

import Mathlib.Logic.Relation
import RecipeLint.Proofs.Analyzer.Autocorrect
import RecipeLint.Proofs.FileTree.Contents

namespace RecipeLint.Analyzer

variable {analyzer : Analyzer} {tree : FileTree}

/-! ### Outcomes -/

theorem path_of_lint {path text : String} {outcome : FileOutcome}
    (linted : analyzer.lint path text = .ok outcome) : outcome.path = path := by
  rcases lint_eq_ok_cases linted with
    ⟨error, place, rfl⟩ | ⟨evaluation, -, ⟨-, rfl⟩ | ⟨answer, -, -, -, rfl⟩⟩
  · rfl
  · rfl
  · cases answer <;> rfl

theorem path_of_lintFile {path : String} {outcome : FileOutcome}
    (linted : analyzer.lintFile tree path = .ok outcome) : outcome.path = path := by
  unfold lintFile at linted
  split at linted
  next =>
    cases linted
    rfl
  next => exact path_of_lint linted

/-- A file whose text has been changed can be read, so it is there. -/
theorem file_of_corrected {path text : String} {outcome : FileOutcome}
    (linted : analyzer.lintFile tree path = .ok outcome)
    (corrected : outcome.corrected = some text) :
    ∃ names, tree.locate path = .ok names ∧ (tree.fileAt? names).isSome = true := by
  unfold lintFile at linted
  split at linted
  next =>
    cases linted
    cases corrected
  next source readable => exact FileTree.file_of_read readable

/-- A file that holds the same in two trees of the same shape has the same outcome. -/
theorem lintFile_congr {other : FileTree} (same : FileTree.SameShape other tree) {path : String}
    (holds : ∀ names, tree.locate path = .ok names → other.fileAt? names = tree.fileAt? names) :
    analyzer.lintFile other path = analyzer.lintFile tree path := by
  rw [lintFile, lintFile, same.read holds]

/-! ### Texts that are written back -/

/-- Two paths lead to different files, if both lead somewhere. -/
def Apart (tree : FileTree) (first second : String) : Prop :=
  ∀ names, tree.locate first = .ok names → tree.locate second ≠ .ok names

theorem Apart.symm {first second : String} (apart : Apart tree first second) :
    Apart tree second first :=
  fun names located other => apart names other located

theorem pairwise_apart_congr {other : FileTree} {files : List String}
    (same : FileTree.SameShape other tree) (distinct : files.Pairwise (Apart tree)) :
    files.Pairwise (Apart other) := by
  refine distinct.imp fun apart => ?_
  unfold Apart at apart ⊢
  simpa only [same.locate] using apart

/-- The tree with the changed text of an outcome, if there is one. -/
def store (tree : FileTree) (outcome : FileOutcome) : FileTree :=
  match outcome.corrected with
  | some text => tree.write outcome.path (.text text)
  | none => tree

/-- **The changed texts of some outcomes have been written back**, and all other files are as they
were. -/
structure Stored (tree : FileTree) (outcomes : List FileOutcome) (after : FileTree) : Prop where
  /-- No file has come or gone. -/
  shape : FileTree.SameShape after tree
  /-- The changed texts are there. -/
  written : ∀ outcome ∈ outcomes, ∀ text, outcome.corrected = some text → ∀ names,
    tree.locate outcome.path = .ok names → after.fileAt? names = some (.text text)
  /-- A file without a changed text holds what it held. -/
  unchanged : ∀ names, (∀ outcome ∈ outcomes, tree.locate outcome.path = .ok names →
    outcome.corrected = none) → after.fileAt? names = tree.fileAt? names

namespace Stored

variable {outcomes : List FileOutcome} {current : FileTree}

theorem nil (tree : FileTree) : Stored tree [] tree :=
  ⟨.refl tree, fun _ member => absurd member List.not_mem_nil, fun _ _ => rfl⟩

/-- A file that is apart from those of the outcomes has not been touched. -/
theorem fileAt?_of_apart (stored : Stored tree outcomes current) {path : String}
    (apart : ∀ outcome ∈ outcomes, Apart tree path outcome.path) {names : List String}
    (located : tree.locate path = .ok names) : current.fileAt? names = tree.fileAt? names :=
  stored.unchanged names fun outcome member other =>
    absurd other (apart outcome member names located)

/-- **One more changed text is written back**, to a file that is apart from those before. -/
theorem store (stored : Stored tree outcomes current) {outcome : FileOutcome}
    (apart : ∀ earlier ∈ outcomes, Apart tree outcome.path earlier.path)
    (there : ∀ text, outcome.corrected = some text →
      ∃ names, tree.locate outcome.path = .ok names ∧ (tree.fileAt? names).isSome = true) :
    Stored tree (outcomes ++ [outcome]) (Analyzer.store current outcome) := by
  unfold Analyzer.store
  cases corrected : outcome.corrected with
  | none =>
    refine ⟨stored.shape, fun other member text changed => ?_, fun names others => ?_⟩
    · rcases List.mem_append.mp member with earlier | last
      · exact stored.written other earlier text changed
      · rw [List.mem_singleton.mp last, corrected] at changed
        cases changed
    · exact stored.unchanged names fun other member =>
        others other (List.mem_append_left _ member)
  | some text =>
    obtain ⟨place, located, file⟩ := there text corrected
    have now : current.locate outcome.path = .ok place := by rw [stored.shape.locate, located]
    obtain ⟨shape, own, others⟩ := FileTree.write_rewrites now
      (by rw [stored.shape.isSome_fileAt?, file]) (.text text)
    refine ⟨shape.trans stored.shape, fun other member changed was names leads => ?_,
      fun names left => ?_⟩
    · rcases List.mem_append.mp member with earlier | last
      · have different : names ≠ place := fun same =>
          apart other earlier place located (same ▸ leads)
        rw [others names different]
        exact stored.written other earlier changed was names leads
      · obtain rfl := List.mem_singleton.mp last
        rw [corrected] at was
        cases was
        rw [located] at leads
        cases leads
        exact own
    · have different : names ≠ place := fun same => by
        have kept := left outcome (List.mem_append_right _ (List.mem_singleton_self _))
          (same ▸ located)
        rw [corrected] at kept
        cases kept
      rw [others names different]
      exact stored.unchanged names fun other member =>
        left other (List.mem_append_left _ member)

/-- **The outcomes say what a file holds**, in whatever order they were written back, and whatever
other files held and came to. -/
theorem agree {other : FileTree} {others : List FileOutcome} {first second : FileTree}
    (one : Stored tree outcomes first) (two : Stored other others second)
    (shape : FileTree.SameShape other tree) {names : List String}
    (holds : other.fileAt? names = tree.fileAt? names)
    (same : ∀ outcome, tree.locate outcome.path = .ok names →
      (outcome ∈ others ↔ outcome ∈ outcomes)) :
    second.fileAt? names = first.fileAt? names := by
  by_cases changed : ∃ outcome ∈ outcomes, tree.locate outcome.path = .ok names ∧
      outcome.corrected ≠ none
  · obtain ⟨outcome, member, located, corrected⟩ := changed
    obtain ⟨text, corrected⟩ := Option.ne_none_iff_exists'.mp corrected
    rw [one.written outcome member text corrected names located]
    exact two.written outcome ((same outcome located).mpr member) text corrected names
      (shape.locate outcome.path ▸ located)
  · have kept : ∀ outcome ∈ outcomes, tree.locate outcome.path = .ok names →
        outcome.corrected = none := fun outcome member located =>
      Classical.not_not.mp fun corrected => changed ⟨outcome, member, located, corrected⟩
    rw [one.unchanged names kept, ← holds]
    refine two.unchanged names fun outcome member located => ?_
    rw [shape.locate] at located
    exact kept outcome ((same outcome located).mp member) located

end Stored

/-! ### Steps in any order -/

/-- How far a run has come. -/
structure Progress where
  /-- The files as they are now. -/
  tree : FileTree
  /-- The paths of the files that have not been read yet. -/
  waiting : List String
  /-- The outcomes of the files that have been read and not been written back yet. -/
  started : List FileOutcome := []
  /-- The outcomes of the files that the run is done with. -/
  finished : List FileOutcome := []

/-- One step of a run. -/
inductive Step (analyzer : Analyzer) : Progress → Progress → Prop
  /-- A file is read. -/
  | start {tree : FileTree} {front back : List String} {path : String} {outcome : FileOutcome}
      {started finished : List FileOutcome} (linted : analyzer.lintFile tree path = .ok outcome) :
      Step analyzer ⟨tree, front ++ path :: back, started, finished⟩
        ⟨tree, front ++ back, started ++ [outcome], finished⟩
  /-- A changed text is written back. -/
  | finish {tree : FileTree} {waiting : List String} {front back finished : List FileOutcome}
      {outcome : FileOutcome} :
      Step analyzer ⟨tree, waiting, front ++ outcome :: back, finished⟩
        ⟨store tree outcome, waiting, front ++ back, finished ++ [outcome]⟩

/-- The steps of a run, one after the other. -/
def Steps (analyzer : Analyzer) : Progress → Progress → Prop :=
  Relation.ReflTransGen analyzer.Step

namespace Progress

/-- The paths of all files of a run. -/
def paths (progress : Progress) : List String :=
  progress.waiting ++ (progress.started ++ progress.finished).map (·.path)

section Paths

variable (tree : FileTree) (waiting : List String) (started finished : List FileOutcome)

theorem paths_of_waiting (front back : List String) (path : String) :
    (paths ⟨tree, front ++ path :: back, started, finished⟩).Perm
      (path :: paths ⟨tree, front ++ back, started, finished⟩) := by
  simp only [paths, List.append_assoc, List.cons_append]
  exact List.perm_middle

theorem paths_of_started (front back : List FileOutcome) (outcome : FileOutcome) :
    (paths ⟨tree, waiting, front ++ outcome :: back, finished⟩).Perm
      (outcome.path :: paths ⟨tree, waiting, front ++ back, finished⟩) := by
  simp only [paths, List.map_append, List.map_cons, List.append_assoc, List.cons_append]
  simpa only [List.append_assoc] using
    @List.perm_middle _ outcome.path (waiting ++ front.map (·.path)) _

theorem paths_of_finished (outcome : FileOutcome) :
    (paths ⟨tree, waiting, started, finished ++ [outcome]⟩).Perm
      (outcome.path :: paths ⟨tree, waiting, started, finished⟩) := by
  simp only [paths, List.map_append, List.map_cons, List.map_nil, ← List.append_assoc]
  exact List.perm_append_singleton _ _

end Paths

/-- **What every step keeps**: each file is waiting, started or finished; its outcome is that of
the file as it was before the run; and the changed texts of the finished ones have been written
back. -/
structure Tracks (analyzer : Analyzer) (tree : FileTree) (files : List String)
    (progress : Progress) : Prop where
  files : progress.paths.Perm files
  linted : ∀ outcome ∈ progress.started ++ progress.finished,
    analyzer.lintFile tree outcome.path = .ok outcome
  stored : Stored tree progress.finished progress.tree

variable {files : List String}

/-- A file that a run takes out of its place is apart from all others. -/
theorem apart_of_perm {path : String} {others : List String}
    (distinct : files.Pairwise (Apart tree)) (same : (path :: others).Perm files) :
    ∀ other ∈ others, Apart tree path other := by
  have pairwise := (same.pairwise_iff fun {first second} => Apart.symm).mpr distinct
  exact (List.pairwise_cons.mp pairwise).1

theorem Tracks.step (distinct : files.Pairwise (Apart tree)) {before after : Progress}
    (tracks : before.Tracks analyzer tree files) (step : analyzer.Step before after) :
    after.Tracks analyzer tree files := by
  obtain ⟨same, linted, stored⟩ := tracks
  cases step with
  | @start current front back path outcome started finished found =>
    have taken := (paths_of_waiting current started finished front back path).symm.trans same
    -- Nothing has been written to this file yet.
    have untouched : analyzer.lintFile current path = analyzer.lintFile tree path := by
      refine lintFile_congr stored.shape fun names located => ?_
      refine stored.fileAt?_of_apart (fun earlier member => ?_) located
      refine apart_of_perm distinct taken earlier.path ?_
      exact List.mem_append_right _ (List.mem_map_of_mem (List.mem_append_right _ member))
    obtain rfl := path_of_lintFile found
    refine ⟨?_, fun other member => ?_, stored⟩
    · have moved := paths_of_started current (front ++ back) finished started [] outcome
      rw [List.append_nil] at moved
      exact moved.trans taken
    · rw [List.append_assoc, List.singleton_append, List.mem_append, List.mem_cons] at member
      rcases member with early | rfl | late
      · exact linted other (List.mem_append_left _ early)
      · rw [← untouched, found]
      · exact linted other (List.mem_append_right _ late)
  | @finish current waiting front back finished outcome =>
    have taken := (paths_of_started current waiting finished front back outcome).symm.trans same
    have own := linted outcome (List.mem_append_left _ List.mem_append_cons_self)
    refine ⟨(paths_of_finished _ waiting (front ++ back) finished outcome).trans taken,
      fun other member => linted other ?_, stored.store (fun earlier member => ?_)
        fun text corrected => file_of_corrected own corrected⟩
    · simp only [List.mem_append, List.mem_cons, List.not_mem_nil, or_false] at member ⊢
      grind
    · refine apart_of_perm distinct taken earlier.path ?_
      exact List.mem_append_right _ (List.mem_map_of_mem (List.mem_append_right _ member))

theorem Tracks.steps (distinct : files.Pairwise (Apart tree)) {before after : Progress}
    (tracks : before.Tracks analyzer tree files) (steps : analyzer.Steps before after) :
    after.Tracks analyzer tree files := by
  induction steps with
  | refl => exact tracks
  | tail _ step ih => exact ih.step distinct step

theorem tracks_of_waiting (analyzer : Analyzer) (tree : FileTree) (files : List String) :
    Tracks analyzer tree files ⟨tree, files, [], []⟩ := by
  refine ⟨?_, fun outcome member => absurd member List.not_mem_nil, .nil tree⟩
  rw [paths, List.append_nil, List.map_nil, List.append_nil]

end Progress

/-! ### Whole runs -/

/-- **Every order of steps comes to the same**: the outcomes are those of the files as they were,
and their changed texts have been written back. -/
theorem complete_of_steps {outcome : String → FileOutcome} (distinct : files.Pairwise (Apart tree))
    (linted : ∀ path ∈ files, analyzer.lintFile tree path = .ok (outcome path)) {after : FileTree}
    {finished : List FileOutcome}
    (steps : analyzer.Steps ⟨tree, files, [], []⟩ ⟨after, [], [], finished⟩) :
    finished.Perm (files.map outcome) ∧ Stored tree finished after := by
  obtain ⟨same, own, stored⟩ :=
    (Progress.tracks_of_waiting analyzer tree files).steps distinct steps
  change (finished.map (·.path)).Perm files at same
  have each : (finished.map (·.path)).map outcome = finished := by
    rw [List.map_map]
    refine List.map_congr_left (fun found member => ?_) |>.trans (List.map_id _)
    have known := own found (List.mem_append_right _ member)
    rw [linted found.path (same.mem_iff.mp (List.mem_map_of_mem member))] at known
    exact Except.ok.inj known
  exact ⟨each ▸ same.map outcome, stored⟩

theorem steps_to_started {outcome : String → FileOutcome}
    (linted : ∀ path ∈ files, analyzer.lintFile tree path = .ok (outcome path))
    (started : List FileOutcome) :
    analyzer.Steps ⟨tree, files, started, []⟩ ⟨tree, [], started ++ files.map outcome, []⟩ := by
  induction files generalizing started with
  | nil =>
    rw [List.map_nil, List.append_nil]
    exact .refl
  | cons path files ih =>
    have first : analyzer.Step ⟨tree, path :: files, started, []⟩
        ⟨tree, files, started ++ [outcome path], []⟩ :=
      @Step.start _ _ [] _ _ _ _ _ (linted path List.mem_cons_self)
    rw [List.map_cons, List.append_cons]
    exact .head first (ih (fun other member => linted other (List.mem_cons_of_mem _ member)) _)

theorem steps_to_finished (tree : FileTree) (outcomes finished : List FileOutcome) :
    analyzer.Steps ⟨tree, [], outcomes, finished⟩
      ⟨writeBack tree outcomes, [], [], finished ++ outcomes⟩ := by
  induction outcomes generalizing tree finished with
  | nil =>
    rw [List.append_nil]
    exact .refl
  | cons outcome outcomes ih =>
    have first : analyzer.Step ⟨tree, [], outcome :: outcomes, finished⟩
        ⟨store tree outcome, [], outcomes, finished ++ [outcome]⟩ :=
      @Step.finish _ _ _ [] _ _ _
    rw [List.append_cons]
    exact .head first (ih (store tree outcome) (finished ++ [outcome]))

/-- One order is to read all files and then to write all changed texts back. -/
theorem steps_writeBack {outcome : String → FileOutcome}
    (linted : ∀ path ∈ files, analyzer.lintFile tree path = .ok (outcome path)) :
    analyzer.Steps ⟨tree, files, [], []⟩
      ⟨writeBack tree (files.map outcome), [], [], files.map outcome⟩ :=
  (steps_to_started linted []).trans (steps_to_finished tree (files.map outcome) [])

end RecipeLint.Analyzer
