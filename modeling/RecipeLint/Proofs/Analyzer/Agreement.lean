/-
**Runs with and without corrections.**

A run over a text that corrects is compared with one over the same text that only reports. Both look
at the same text first, so they find the same; the run that corrects may mark what it has corrected
and, if a pass fails, says so and leaves everything else as it is.

* `Analyzer.Agrees` — what two such outcomes have in common.
* `Analyzer.lint_agrees` — the outcomes of the two runs agree.
* `Analyzer.lint_isOk` — a run has an outcome if its texts stay within machine words.
-/

import Mathlib
import RecipeLint.Proofs.Analyzer.Autocorrect
import RecipeLint.Proofs.Evaluation.Origin
import RecipeLint.Proofs.Patch.Acceptance

namespace RecipeLint

/-! ### Marks before anything is corrected -/

/-- A rule reports no offense as corrected. -/
def Rule.LeavesUnmarked (rule : Rule) : Prop :=
  ∀ context node found, rule.check context node = .offenses found →
    ∀ offense ∈ found, offense.corrected = false

namespace Analyzer

variable {analyzer : Analyzer} {path : String}

/-- Where no rule marks an offense, there is no mark before anything is corrected. -/
theorem Finds.unmarked {text : String} {evaluation : Evaluation}
    (found : analyzer.Finds path text evaluation)
    (rules : ∀ rule ∈ analyzer.evaluator.registry.rules, rule.LeavesUnmarked) :
    ∀ offense ∈ evaluation.offenses, offense.corrected = false := by
  intro offense member
  obtain ⟨tree, -, evaluated⟩ := found
  obtain ⟨rule, known, visit, -, reports, checked, reported, reportedMember, settled⟩ :=
    Evaluator.offense_origin evaluated member
  rcases Evaluator.mem_settle settled with rfl | ⟨severity, rfl⟩
  · rfl
  · exact rules rule known _ _ _ checked reported reportedMember

/-! ### When there is an outcome -/

/-- **A text stays within machine words**: the place of its error does, or the ranges of its nodes,
which do not end before they start, and the changes that are suggested for it. -/
structure InWords (analyzer : Analyzer) (path text : String) : Prop where
  error : ∀ error, analyzer.language.parse text = .error error → error.offset < maxWord
  nodes : ∀ tree, analyzer.language.parse text = .ok tree → ∀ visit ∈ Visit.all tree,
    visit.node.span.IsOrdered ∧ visit.node.span.start < maxWord
  suggestions : ∀ evaluation, analyzer.Finds path text evaluation →
    ∀ correction ∈ corrections evaluation.offenses, correction.Fits

/-- All texts that a number of passes may lead to stay within machine words. -/
def KeepsToWords (analyzer : Analyzer) (path : String) (passes : Nat) (text : String) : Prop :=
  ∀ count ≤ passes, ∀ reached, Passes analyzer path count text reached →
    analyzer.InWords path reached

theorem KeepsToWords.here {passes : Nat} {text : String}
    (keeps : analyzer.KeepsToWords path passes text) : analyzer.InWords path text :=
  keeps 0 (Nat.zero_le _) text (.done text)

theorem KeepsToWords.after {passes : Nat} {text changed : String}
    (keeps : analyzer.KeepsToWords path (passes + 1) text)
    (first : analyzer.Pass path text changed) : analyzer.KeepsToWords path passes changed :=
  fun count bound reached rest =>
    keeps (count + 1) (Nat.succ_le_succ bound) reached (.pass first rest)

theorem InWords.finds {text : String} {tree : Node} (inWords : analyzer.InWords path text)
    (parsed : analyzer.language.parse text = .ok tree) :
    ∃ evaluation, analyzer.Finds path text evaluation := by
  obtain ⟨evaluation, evaluated⟩ := analyzer.evaluator.evaluate_isOk
    (analyzer.sourceFile path text) (inWords.nodes tree parsed)
  exact ⟨evaluation, tree, parsed, evaluated⟩

/-- The loop ends with a text or a reason to give up. -/
theorem correct_isOk (passes : Nat) {text : String} {evaluation : Evaluation}
    (keeps : analyzer.KeepsToWords path passes text)
    (found : analyzer.Finds path text evaluation)
    (suggested : corrections evaluation.offenses ≠ []) :
    ∃ answer, analyzer.correct path passes text (corrections evaluation.offenses) =
      .ok answer := by
  induction passes generalizing text evaluation with
  | zero => exact ⟨_, rfl⟩
  | succ passes ih =>
    have applied := Patch.apply_of_fits text (keeps.here.suggestions evaluation found)
    cases edited : (Patch.applyEdits text.toList
        ((corrections evaluation.offenses).map Correction.toEdit)).map String.ofList with
    | error refusal =>
      rw [edited] at applied
      exact ⟨_, correct_of_refusal applied⟩
    | ok changed =>
      rw [edited] at applied
      have keepsOn := keeps.after ⟨evaluation, found, suggested, applied⟩
      cases parsed : analyzer.language.parse changed with
      | error error => exact ⟨_, correct_of_broken applied parsed⟩
      | ok tree =>
        obtain ⟨next, foundNext⟩ := keepsOn.here.finds parsed
        rw [correct_of_finds applied foundNext]
        split
        next => exact ⟨_, rfl⟩
        next more => exact ih keepsOn foundNext more

/-- **A run has an outcome** if its texts stay within machine words. -/
theorem lint_isOk {text : String} (keeps : analyzer.KeepsToWords path maxPasses text) :
    ∃ outcome, analyzer.lint path text = .ok outcome := by
  cases parsed : analyzer.language.parse text with
  | error error =>
    obtain ⟨place, placed⟩ := (analyzer.sourceFile path text).lineColumn_isOk
      (keeps.here.error error parsed)
    rw [lint_of_broken parsed, placed]
    exact ⟨_, rfl⟩
  | ok tree =>
    obtain ⟨evaluation, found⟩ := keeps.here.finds parsed
    rw [lint_of_finds found]
    split
    next asked =>
      obtain ⟨answer, corrected⟩ := correct_isOk maxPasses keeps found asked.2
      rw [corrected]
      exact ⟨_, rfl⟩
    next => exact ⟨_, rfl⟩

/-! ### The two runs -/

/-- The analyzer with corrections switched on or off. -/
def withAutocorrect (analyzer : Analyzer) (autocorrect : Bool) : Analyzer :=
  { analyzer with autocorrect := autocorrect }

theorem finds_withAutocorrect {autocorrect : Bool} {text : String} {evaluation : Evaluation} :
    (analyzer.withAutocorrect autocorrect).Finds path text evaluation ↔
      analyzer.Finds path text evaluation := Iff.rfl

theorem KeepsToWords.withAutocorrect {passes : Nat} {text : String}
    (keeps : analyzer.KeepsToWords path passes text) (autocorrect : Bool) :
    (analyzer.withAutocorrect autocorrect).KeepsToWords path passes text := by
  intro count bound reached way
  obtain ⟨texts, start, stop, steps⟩ := passes_iff_texts.mp way
  have inWords := keeps count bound reached (passes_iff_texts.mpr ⟨texts, start, stop, steps⟩)
  exact ⟨inWords.error, inWords.nodes, inWords.suggestions⟩

/-- The loop does not ask whether corrections are switched on. -/
theorem correct_withAutocorrect (autocorrect : Bool) (passes : Nat) (text : String)
    (changes : List Correction) :
    (analyzer.withAutocorrect autocorrect).correct path passes text changes =
      analyzer.correct path passes text changes := by
  induction passes generalizing text changes with
  | zero => rfl
  | succ passes ih =>
    rw [correct, correct]
    simp only [ih]
    rfl

/-- A run that only reports returns what the rules find. -/
theorem lint_withAutocorrect_false {text : String} {evaluation : Evaluation}
    (found : analyzer.Finds path text evaluation) :
    (analyzer.withAutocorrect false).lint path text = .ok (plainOutcome path evaluation) := by
  rw [lint_of_finds (finds_withAutocorrect.mpr found), if_neg fun asked => by cases asked.1]

/-- A run that corrects settles what the loop comes to, if anything is suggested. -/
theorem lint_withAutocorrect_true {text : String} {evaluation : Evaluation}
    (found : analyzer.Finds path text evaluation)
    (suggested : corrections evaluation.offenses ≠ []) :
    (analyzer.withAutocorrect true).lint path text =
      (analyzer.correct path maxPasses text (corrections evaluation.offenses)).map
        (settle path (analyzer.sourceFile path text).relativePath text evaluation) := by
  rw [lint_of_finds (finds_withAutocorrect.mpr found), if_pos ⟨rfl, suggested⟩,
    correct_withAutocorrect]
  rfl

/-- Where nothing is suggested, it makes no difference whether corrections are switched on. -/
theorem lint_withAutocorrect_congr {text : String}
    (nothing : ∀ evaluation, analyzer.Finds path text evaluation →
      corrections evaluation.offenses = []) :
    (analyzer.withAutocorrect true).lint path text =
      (analyzer.withAutocorrect false).lint path text := by
  rcases lint_cases analyzer path text with
    ⟨error, broken⟩ | ⟨tree, cause, parsed, evaluated⟩ | ⟨evaluation, found⟩
  · have on : (analyzer.withAutocorrect true).language.parse text = .error error := broken
    have off : (analyzer.withAutocorrect false).language.parse text = .error error := broken
    rw [lint_of_broken on, lint_of_broken off]
    rfl
  · have on : (analyzer.withAutocorrect true).lint path text = .error cause :=
      lint_of_overflow parsed evaluated
    have off : (analyzer.withAutocorrect false).lint path text = .error cause :=
      lint_of_overflow parsed evaluated
    rw [on, off]
  · rw [lint_of_settled (finds_withAutocorrect.mpr found) (nothing evaluation found),
      lint_withAutocorrect_false found]

/-- A run that only reports marks no offense and gives nothing up. -/
theorem lint_withAutocorrect_false_plain {text : String} {plain : FileOutcome}
    (rules : ∀ rule ∈ analyzer.evaluator.registry.rules, rule.LeavesUnmarked)
    (linted : (analyzer.withAutocorrect false).lint path text = .ok plain) :
    (∀ offense ∈ plain.offenses, offense.corrected = false) ∧
      ∀ error ∈ plain.errors, error.kind ≠ .correction := by
  rcases lint_eq_ok_cases linted with
    ⟨error, place, rfl⟩ | ⟨evaluation, found, ⟨-, rfl⟩ | ⟨answer, impossible, -⟩⟩
  · refine ⟨fun offense member => (List.not_mem_nil member).elim, fun failure member => ?_⟩
    rw [List.mem_singleton.mp member]
    intro impossible
    cases impossible
  · exact ⟨(finds_withAutocorrect.mp found).unmarked rules, fun _ => kind_ne_of_mem_failures⟩
  · cases impossible

/-- An offense without its mark. -/
def unmark (offense : Offense) : Offense := { offense with corrected := false }

/-- **What the outcomes of a run that only reports and of one that corrects have in common.** -/
structure Agrees (plain fixed : FileOutcome) : Prop where
  /-- The offenses are the same, in the same order, but for the marks. -/
  offenses : fixed.offenses.map unmark = plain.offenses.map unmark
  /-- The run that only reports marks nothing. -/
  unmarked : ∀ offense ∈ plain.offenses, offense.corrected = false
  /-- The run that only reports gives nothing up. -/
  kinds : ∀ error ∈ plain.errors, error.kind ≠ .correction
  /-- The failures are the same, but for one at the end that says that changes are given up. -/
  errors : fixed.errors = plain.errors ∨
    ∃ error, error.kind = .correction ∧ fixed.errors = plain.errors ++ [error]
  /-- Either no offense is marked, or those are that come with changes. -/
  marks : (∀ offense ∈ fixed.offenses, offense.corrected = false) ∨
    ∀ offense ∈ fixed.offenses, offense.corrected = offense.isCorrectable
  /-- If changes are given up, the text stays as it was and no offense is marked. -/
  abandoned : (∃ error ∈ fixed.errors, error.kind = .correction) →
    fixed.corrected = none ∧ ∀ offense ∈ fixed.offenses, offense.corrected = false

/-- An outcome without marks and given up changes agrees with itself. -/
theorem Agrees.refl {outcome : FileOutcome}
    (unmarked : ∀ offense ∈ outcome.offenses, offense.corrected = false)
    (kinds : ∀ error ∈ outcome.errors, error.kind ≠ .correction) : Agrees outcome outcome where
  offenses := rfl
  unmarked := unmarked
  kinds := kinds
  errors := Or.inl rfl
  marks := Or.inl unmarked
  abandoned := fun ⟨error, member, kind⟩ => absurd kind (kinds error member)

/-- **Whatever the loop comes to**, a text or a reason to give up, the outcome agrees with the one
without corrections. -/
theorem agrees_settle {relativePath text : String} {evaluation : Evaluation}
    (unmarked : ∀ offense ∈ evaluation.offenses, offense.corrected = false)
    (answer : Except CorrectionError String) :
    Agrees (plainOutcome path evaluation) (settle path relativePath text evaluation answer) := by
  cases answer with
  | ok changed =>
    refine ⟨?_, unmarked, fun _ => kind_ne_of_mem_failures, Or.inl rfl, Or.inr ?_, ?_⟩
    · show (evaluation.offenses.map _).map unmark = evaluation.offenses.map unmark
      rw [List.map_map]
      rfl
    · intro offense member
      obtain ⟨original, -, rfl⟩ := List.mem_map.mp member
      rfl
    · rintro ⟨error, member, kind⟩
      exact absurd kind (kind_ne_of_mem_failures member)
  | error failure =>
    exact ⟨rfl, unmarked, fun _ => kind_ne_of_mem_failures, Or.inr ⟨_, rfl, rfl⟩, Or.inl unmarked,
      fun _ => ⟨rfl, unmarked⟩⟩

/-- The failure that says that changes are given up. -/
def givenUp (relativePath : String) (failure : CorrectionError) : FileError where
  file := relativePath
  kind := .correction
  message := failure.message

/-- What a run that corrects adds to the failures of one that only reports comes from a pass that
fails. -/
theorem givenUp_of_errors_ne {text : String} {evaluation : Evaluation}
    {answer : Except CorrectionError String} (found : analyzer.Finds path text evaluation)
    (suggested : corrections evaluation.offenses ≠ [])
    (corrected : analyzer.correct path maxPasses text (corrections evaluation.offenses) =
      .ok answer)
    {relativePath : String}
    (different : (settle path relativePath text evaluation answer).errors ≠
      (plainOutcome path evaluation).errors) :
    ∃ failure, (settle path relativePath text evaluation answer).errors =
        (plainOutcome path evaluation).errors ++ [givenUp relativePath failure] ∧
      ∃ count < maxPasses, ∃ reached, Passes analyzer path count text reached ∧
        analyzer.Fails path reached failure := by
  cases answer with
  | ok changed => exact absurd rfl different
  | error failure =>
    exact ⟨failure, rfl, (correct_eq_error_iff maxPasses found suggested).mp corrected⟩

/-- **A run that corrects agrees with one that only reports.** Whenever it has an outcome so has the
other one, the two agree, and a failure that is added is that of one of the ten passes. It has no
outcome where the other one has none, and it has one if its texts stay within machine words. -/
theorem lint_agrees (analyzer : Analyzer) (path source : String)
    (rules : ∀ rule ∈ analyzer.evaluator.registry.rules, rule.LeavesUnmarked) :
    (∀ fixed, (analyzer.withAutocorrect true).lint path source = .ok fixed →
      ∃ plain, (analyzer.withAutocorrect false).lint path source = .ok plain ∧
        Agrees plain fixed ∧
        (fixed.errors ≠ plain.errors → ∃ failure,
          fixed.errors = plain.errors ++
            [givenUp (analyzer.sourceFile path source).relativePath failure] ∧
          ∃ count < maxPasses, ∃ reached, Passes analyzer path count source reached ∧
            analyzer.Fails path reached failure)) ∧
      (∀ cause, (analyzer.withAutocorrect false).lint path source = .error cause →
        (analyzer.withAutocorrect true).lint path source = .error cause) ∧
      (analyzer.KeepsToWords path maxPasses source →
        ∃ fixed, (analyzer.withAutocorrect true).lint path source = .ok fixed) := by
  have ends : analyzer.KeepsToWords path maxPasses source →
      ∃ fixed, (analyzer.withAutocorrect true).lint path source = .ok fixed :=
    fun keeps => lint_isOk (keeps.withAutocorrect true)
  by_cases suggested : ∃ evaluation, analyzer.Finds path source evaluation ∧
      corrections evaluation.offenses ≠ []
  · obtain ⟨evaluation, found, suggested⟩ := suggested
    have reported := lint_withAutocorrect_false found
    have corrected := lint_withAutocorrect_true found suggested
    refine ⟨fun fixed linted => ⟨_, reported, ?_⟩, fun cause stopped => ?_, ends⟩
    · cases answered : analyzer.correct path maxPasses source (corrections evaluation.offenses) with
      | error cause =>
        rw [corrected, answered] at linted
        cases linted
      | ok answer =>
        rw [corrected, answered] at linted
        cases linted
        exact ⟨agrees_settle (found.unmarked rules) answer,
          givenUp_of_errors_ne found suggested answered⟩
    · rw [reported] at stopped
      cases stopped
  · have same : (analyzer.withAutocorrect true).lint path source =
        (analyzer.withAutocorrect false).lint path source :=
      lint_withAutocorrect_congr fun evaluation found =>
        Decidable.byContradiction fun more => suggested ⟨evaluation, found, more⟩
    refine ⟨fun fixed linted => ?_, fun cause stopped => same.trans stopped, ends⟩
    rw [same] at linted
    obtain ⟨unmarked, kinds⟩ := lint_withAutocorrect_false_plain rules linted
    exact ⟨fixed, linted, Agrees.refl unmarked kinds, fun different => absurd rfl different⟩

end Analyzer

/-! ### A pass that fails -/

namespace Sample

open Analyzer

theorem rule_leavesUnmarked (name bad : String) (better : Option String) :
    (rule name bad better).LeavesUnmarked := by
  intro context node found checked offense member
  simp only [rule] at checked
  split at checked
  next =>
    cases placed : context.file.location node.span with
    | error cause => rw [placed] at checked; cases checked
    | ok location =>
      rw [placed] at checked
      cases checked
      rw [List.mem_singleton.mp member]
      rfl
  next =>
    cases checked
    cases member

theorem analyzer_leavesUnmarked {first second : Rule} (one : first.LeavesUnmarked)
    (other : second.LeavesUnmarked) :
    ∀ subject ∈ (analyzer first second).evaluator.registry.rules, subject.LeavesUnmarked :=
  List.forall_mem_cons.mpr ⟨one, List.forall_mem_singleton.mpr other⟩

/-- The analyzer that leads from `a` to `c`, which is not of its language. -/
def strict : Analyzer :=
  { chain with
    language := { language with
      parse := fun text =>
        if text = "c" then .error ⟨"no c, please", 0, 1⟩ else language.parse text } }

theorem strict_leavesUnmarked :
    ∀ subject ∈ strict.evaluator.registry.rules, subject.LeavesUnmarked :=
  analyzer_leavesUnmarked (rule_leavesUnmarked _ _ _) (rule_leavesUnmarked _ _ _)

theorem strict_finds (text : String) {evaluation : Evaluation}
    (evaluated : (strict.evaluator.evaluate (strict.sourceFile "/a.rb" text)
      ⟨.program, ⟨0, Text.size text.toList⟩,
        [.leaf (.comment text) ⟨0, Text.size text.toList⟩]⟩).toOption = some evaluation)
    (different : text ≠ "c") : strict.Finds "/a.rb" text evaluation :=
  ⟨_, if_neg different, ok_of_toOption evaluated⟩

/-- Whether a text of the strict language stays within machine words depends on the changes that are
suggested for it. -/
theorem strict_inWords {text : String}
    (fits : ∀ evaluation, strict.Finds "/a.rb" text evaluation →
      ∀ correction ∈ corrections evaluation.offenses, correction.Fits) :
    strict.InWords "/a.rb" text := by
  refine ⟨fun error broken => ?_, fun tree parsed => ?_, fits⟩
  · simp only [strict] at broken
    split at broken
    next =>
      cases broken
      decide
    next => cases broken
  · simp only [strict] at parsed
    split at parsed
    next => cases parsed
    next =>
      cases parsed
      have positive : 0 < maxWord := by decide
      intro visit member
      rcases List.mem_cons.mp member with rfl | member
      · exact ⟨Nat.zero_le _, positive⟩
      · rw [List.mem_singleton.mp member]
        exact ⟨Nat.zero_le _, positive⟩

/-- Passes lead from `a` to `a`, `b` and `c` only. -/
theorem strict_keepsToWords : strict.KeepsToWords "/a.rb" maxPasses "a" := by
  have foundA : strict.Finds "/a.rb" "a" ⟨[offense "ab" (some "b") ⟨"a.rb", 1, 1, 0, 1⟩], []⟩ :=
    strict_finds "a" (by decide +kernel) (by decide)
  have foundB : strict.Finds "/a.rb" "b" ⟨[offense "bc" (some "c") ⟨"a.rb", 1, 1, 0, 1⟩], []⟩ :=
    strict_finds "b" (by decide +kernel) (by decide)
  have foundC : ∀ evaluation, ¬ strict.Finds "/a.rb" "c" evaluation :=
    fun evaluation ⟨tree, parsed, _⟩ => by cases parsed
  intro count _ reached way
  cases count with
  | zero =>
    cases way
    refine strict_inWords fun evaluation found => ?_
    rw [found.unique foundA]
    decide
  | succ count =>
    obtain ⟨changed, -, applied, way⟩ := way.first foundA
    cbv at applied
    cases applied
    cases count with
    | zero =>
      cases way
      refine strict_inWords fun evaluation found => ?_
      rw [found.unique foundB]
      decide
    | succ count =>
      obtain ⟨changed, -, applied, way⟩ := way.first foundB
      cbv at applied
      cases applied
      cases way with
      | done => exact strict_inWords fun evaluation found => absurd found (foundC evaluation)
      | pass first rest =>
        obtain ⟨evaluation, found, -⟩ := first
        exact absurd found (foundC evaluation)

/-- The second pass fails: the run that corrects reports the offense of the first one without a
mark, as the other run does, leaves the text as it was and says so. -/
theorem strict_agrees :
    (∀ subject ∈ strict.evaluator.registry.rules, subject.LeavesUnmarked) ∧
      strict.KeepsToWords "/a.rb" maxPasses "a" ∧
      (∃ fixed, (strict.withAutocorrect true).lint "/a.rb" "a" = .ok fixed) ∧
      ∃ plain, (strict.withAutocorrect false).lint "/a.rb" "a" = .ok plain ∧
        Agrees plain
          ⟨"/a.rb", [offense "ab" (some "b") ⟨"a.rb", 1, 1, 0, 1⟩],
            [givenUp "a.rb" (.broken ⟨"no c, please", 0, 1⟩)], none⟩ := by
  have linted : (strict.withAutocorrect true).lint "/a.rb" "a" =
      .ok ⟨"/a.rb", [offense "ab" (some "b") ⟨"a.rb", 1, 1, 0, 1⟩],
        [givenUp "a.rb" (.broken ⟨"no c, please", 0, 1⟩)], none⟩ :=
    ok_of_toOption (by decide +kernel)
  obtain ⟨same, -, ends⟩ := lint_agrees strict "/a.rb" "a" strict_leavesUnmarked
  obtain ⟨plain, reported, agrees, -⟩ := same _ linted
  exact ⟨strict_leavesUnmarked, strict_keepsToWords, ends strict_keepsToWords, plain, reported,
    agrees⟩

end Sample

end RecipeLint
