/-
**Passes of corrections.**

A text is corrected in passes: what the rules suggest for it is changed, the changed text is parsed
and shown to the rules again, and so on. This module describes the passes by relations between
texts and says that the loop follows them.

* `Analyzer.Finds` — what the rules find in a text that is of the language.
* `Analyzer.Pass`, `Analyzer.Passes` — one pass from a text to the changed one, and several.
* `Analyzer.Fails` — a pass that cannot be made, and why.
* `Analyzer.correct_eq_ok_iff` — the loop returns a text exactly if passes lead to it and nothing is
  left to correct, or no pass is left.
* `Analyzer.correct_eq_error_iff` — the loop gives up exactly if passes lead to a text whose pass
  fails.
-/

import RecipeLint.Analyzer

namespace RecipeLint.Analyzer

variable {analyzer : Analyzer} {path : String}

/-! ### Relations between texts -/

/-- A text is of the language, and this is what the rules find in it. -/
def Finds (analyzer : Analyzer) (path text : String) (evaluation : Evaluation) : Prop :=
  ∃ tree, analyzer.language.parse text = .ok tree ∧
    analyzer.evaluator.evaluate (analyzer.sourceFile path text) tree = .ok evaluation

theorem Finds.unique {text : String} {first second : Evaluation}
    (one : analyzer.Finds path text first) (other : analyzer.Finds path text second) :
    first = second := by
  obtain ⟨tree, parsed, evaluated⟩ := one
  obtain ⟨tree', parsed', evaluated'⟩ := other
  cases parsed.symm.trans parsed'
  cases evaluated.symm.trans evaluated'
  rfl

/-- All changes that the rules suggest for a text lead to the other text, and there are some. -/
def Pass (analyzer : Analyzer) (path before after : String) : Prop :=
  ∃ evaluation, analyzer.Finds path before evaluation ∧
    corrections evaluation.offenses ≠ [] ∧
    Patch.apply before (corrections evaluation.offenses) = .ok (.ok after)

/-- A number of passes lead from a text to another. -/
inductive Passes (analyzer : Analyzer) (path : String) : Nat → String → String → Prop
  | done (text : String) : Passes analyzer path 0 text text
  | pass {count : Nat} {text changed result : String} (first : analyzer.Pass path text changed)
      (rest : Passes analyzer path count changed result) :
      Passes analyzer path (count + 1) text result

/-- The changes that the rules suggest for a text cannot be made, or lead to a text that is not of
the language. -/
def Fails (analyzer : Analyzer) (path text : String) (failure : CorrectionError) : Prop :=
  ∃ evaluation, analyzer.Finds path text evaluation ∧ corrections evaluation.offenses ≠ [] ∧
    ((∃ refusal, failure = .patch refusal ∧
        Patch.apply text (corrections evaluation.offenses) = .ok (.error refusal)) ∨
      ∃ changed error, failure = .broken error ∧
        Patch.apply text (corrections evaluation.offenses) = .ok (.ok changed) ∧
        analyzer.language.parse changed = .error error)

/-! ### One pass of the loop -/

theorem correct_of_overflow {passes : Nat} {text : String} {changes : List Correction}
    {cause : Overflow} (applied : Patch.apply text changes = .error cause) :
    analyzer.correct path (passes + 1) text changes = .error cause := by
  rw [correct, applied]
  rfl

theorem correct_of_refusal {passes : Nat} {text : String} {changes : List Correction}
    {refusal : PatchError} (applied : Patch.apply text changes = .ok (.error refusal)) :
    analyzer.correct path (passes + 1) text changes = .ok (.error (.patch refusal)) := by
  rw [correct, applied]
  rfl

theorem correct_of_broken {passes : Nat} {text changed : String} {changes : List Correction}
    {error : SyntaxError} (applied : Patch.apply text changes = .ok (.ok changed))
    (broken : analyzer.language.parse changed = .error error) :
    analyzer.correct path (passes + 1) text changes = .ok (.error (.broken error)) := by
  rw [correct, applied]
  simp only [bind, Except.bind, broken]
  rfl

theorem correct_of_evaluation_overflow {passes : Nat} {text changed : String}
    {changes : List Correction} {tree : Node} {cause : Overflow}
    (applied : Patch.apply text changes = .ok (.ok changed))
    (parsed : analyzer.language.parse changed = .ok tree)
    (evaluated : analyzer.evaluator.evaluate (analyzer.sourceFile path changed) tree =
      .error cause) :
    analyzer.correct path (passes + 1) text changes = .error cause := by
  rw [correct, applied]
  simp only [bind, Except.bind, parsed, evaluated]

/-- A pass that succeeds ends the loop if the rules suggest nothing more. -/
theorem correct_of_finds {passes : Nat} {text changed : String} {changes : List Correction}
    {evaluation : Evaluation} (applied : Patch.apply text changes = .ok (.ok changed))
    (found : analyzer.Finds path changed evaluation) :
    analyzer.correct path (passes + 1) text changes =
      if corrections evaluation.offenses = [] then .ok (.ok changed)
      else analyzer.correct path passes changed (corrections evaluation.offenses) := by
  obtain ⟨tree, parsed, evaluated⟩ := found
  rw [correct, applied]
  simp only [bind, Except.bind, parsed, evaluated, List.isEmpty_iff]
  rfl

/-- **What one pass of the loop can come to**: no value, a reason to give up, or a changed text that
the rules have looked at. -/
theorem correct_succ_cases (analyzer : Analyzer) (path : String) (passes : Nat) (text : String)
    (changes : List Correction) :
    (∃ cause, analyzer.correct path (passes + 1) text changes = .error cause) ∨
      (∃ refusal, Patch.apply text changes = .ok (.error refusal) ∧
        analyzer.correct path (passes + 1) text changes = .ok (.error (.patch refusal))) ∨
      (∃ changed error, Patch.apply text changes = .ok (.ok changed) ∧
        analyzer.language.parse changed = .error error ∧
        analyzer.correct path (passes + 1) text changes = .ok (.error (.broken error))) ∨
      ∃ changed evaluation, Patch.apply text changes = .ok (.ok changed) ∧
        analyzer.Finds path changed evaluation := by
  cases applied : Patch.apply text changes with
  | error cause => exact Or.inl ⟨cause, correct_of_overflow applied⟩
  | ok answer =>
    cases answer with
    | error refusal => exact Or.inr (Or.inl ⟨refusal, rfl, correct_of_refusal applied⟩)
    | ok changed =>
      cases parsed : analyzer.language.parse changed with
      | error error =>
        have stopped : analyzer.correct path (passes + 1) text changes =
            .ok (.error (.broken error)) := correct_of_broken applied parsed
        exact Or.inr (Or.inr (Or.inl ⟨changed, error, rfl, parsed, stopped⟩))
      | ok tree =>
        cases evaluated : analyzer.evaluator.evaluate (analyzer.sourceFile path changed) tree with
        | error cause =>
          exact Or.inl ⟨cause, correct_of_evaluation_overflow applied parsed evaluated⟩
        | ok evaluation =>
          exact Or.inr (Or.inr (Or.inr ⟨changed, evaluation, rfl, tree, parsed, evaluated⟩))

/-! ### All passes of the loop -/

/-- The first of several passes is the one from the text's own evaluation. -/
theorem Passes.first {count : Nat} {text result : String} {evaluation : Evaluation}
    (found : analyzer.Finds path text evaluation)
    (passes : Passes analyzer path (count + 1) text result) :
    ∃ changed, corrections evaluation.offenses ≠ [] ∧
      Patch.apply text (corrections evaluation.offenses) = .ok (.ok changed) ∧
      Passes analyzer path count changed result := by
  cases passes with
  | @pass _ _ changed _ first rest =>
    obtain ⟨evaluation', found', suggested, applied⟩ := first
    cases found.unique found'
    exact ⟨changed, suggested, applied, rest⟩

/-- If the rules have looked at the last text, they have looked at the first one: it is the last
one, or they suggest something for it. -/
theorem Passes.start {count : Nat} {text result : String} {last : Evaluation}
    (passes : Passes analyzer path count text result) (found : analyzer.Finds path result last) :
    ∃ evaluation, analyzer.Finds path text evaluation ∧
      ((text = result ∧ evaluation = last) ∨ corrections evaluation.offenses ≠ []) := by
  cases passes with
  | done => exact ⟨last, found, Or.inl ⟨rfl, rfl⟩⟩
  | pass first rest =>
    obtain ⟨evaluation, foundFirst, suggested, -⟩ := first
    exact ⟨evaluation, foundFirst, Or.inr suggested⟩

/-- **The loop returns a text exactly if passes lead to it and either nothing is left to correct
there or no pass is left.** -/
theorem correct_eq_ok_iff (passes : Nat) {text result : String} {evaluation : Evaluation}
    (found : analyzer.Finds path text evaluation)
    (suggested : corrections evaluation.offenses ≠ []) :
    analyzer.correct path passes text (corrections evaluation.offenses) = .ok (.ok result) ↔
      ∃ count ≤ passes, Passes analyzer path count text result ∧
        ∃ last, analyzer.Finds path result last ∧
          (corrections last.offenses = [] ∨ count = passes) := by
  induction passes generalizing text evaluation with
  | zero =>
    constructor
    · intro corrected
      cases corrected
      exact ⟨0, Nat.le_refl 0, .done _, evaluation, found, Or.inr rfl⟩
    · rintro ⟨count, bound, way, -⟩
      obtain rfl : count = 0 := Nat.le_zero.mp bound
      cases way
      rfl
  | succ passes ih =>
    constructor
    · intro corrected
      rcases correct_succ_cases analyzer path passes text (corrections evaluation.offenses) with
        ⟨cause, stopped⟩ | ⟨refusal, -, stopped⟩ | ⟨changed, error, -, -, stopped⟩ |
        ⟨changed, next, applied, foundNext⟩
      · cases stopped.symm.trans corrected
      · cases stopped.symm.trans corrected
      · cases stopped.symm.trans corrected
      · rw [correct_of_finds applied foundNext] at corrected
        have first : analyzer.Pass path text changed := ⟨evaluation, found, suggested, applied⟩
        split at corrected
        next settled =>
          cases corrected
          exact ⟨1, Nat.succ_le_succ (Nat.zero_le _), .pass first (.done _), next, foundNext,
            Or.inl settled⟩
        next more =>
          obtain ⟨count, bound, way, last, foundLast, ended⟩ := (ih foundNext more).mp corrected
          exact ⟨count + 1, Nat.succ_le_succ bound, .pass first way, last, foundLast,
            ended.imp_right (congrArg Nat.succ)⟩
    · rintro ⟨count, bound, way, last, foundLast, ended⟩
      cases count with
      | zero =>
        -- no pass has been made, although something is suggested and passes are left
        cases way with
        | done =>
          cases found.unique foundLast
          rcases ended with settled | impossible
          · exact absurd settled suggested
          · cases impossible
      | succ count =>
        obtain ⟨changed, -, applied, rest⟩ := way.first found
        obtain ⟨next, foundNext, reason⟩ := rest.start foundLast
        rw [correct_of_finds applied foundNext]
        split
        next settled =>
          obtain ⟨rfl, -⟩ := reason.resolve_right fun more => more settled
          rfl
        next more =>
          exact (ih foundNext more).mpr ⟨count, Nat.le_of_succ_le_succ bound, rest, last, foundLast,
            ended.imp_right Nat.succ.inj⟩

/-- **The loop gives up exactly if passes lead to a text whose own pass fails.** -/
theorem correct_eq_error_iff (passes : Nat) {text : String} {evaluation : Evaluation}
    {failure : CorrectionError} (found : analyzer.Finds path text evaluation)
    (suggested : corrections evaluation.offenses ≠ []) :
    analyzer.correct path passes text (corrections evaluation.offenses) =
        .ok (.error failure) ↔
      ∃ count < passes, ∃ reached, Passes analyzer path count text reached ∧
        analyzer.Fails path reached failure := by
  induction passes generalizing text evaluation with
  | zero =>
    constructor
    · intro stopped
      cases stopped
    · rintro ⟨count, bound, -⟩
      exact absurd bound (Nat.not_lt_zero count)
  | succ passes ih =>
    constructor
    · intro stopped
      rcases correct_succ_cases analyzer path passes text (corrections evaluation.offenses) with
        ⟨cause, other⟩ | ⟨refusal, refused, other⟩ | ⟨changed, error, applied, broken, other⟩ |
        ⟨changed, next, applied, foundNext⟩
      · cases other.symm.trans stopped
      · cases other.symm.trans stopped
        exact ⟨0, Nat.succ_pos _, text, .done text, evaluation, found, suggested,
          Or.inl ⟨refusal, rfl, refused⟩⟩
      · cases other.symm.trans stopped
        exact ⟨0, Nat.succ_pos _, text, .done text, evaluation, found, suggested,
          Or.inr ⟨changed, error, rfl, applied, broken⟩⟩
      · rw [correct_of_finds applied foundNext] at stopped
        split at stopped
        next => cases stopped
        next more =>
          obtain ⟨count, bound, reached, way, fails⟩ := (ih foundNext more).mp stopped
          exact ⟨count + 1, Nat.succ_lt_succ bound, reached,
            .pass ⟨evaluation, found, suggested, applied⟩ way, fails⟩
    · rintro ⟨count, bound, reached, way, fails⟩
      obtain ⟨last, foundLast, suggestedLast, reason⟩ := fails
      cases count with
      | zero =>
        cases way with
        | done =>
          cases found.unique foundLast
          rcases reason with ⟨refusal, rfl, refused⟩ | ⟨changed, error, rfl, applied, broken⟩
          · exact correct_of_refusal refused
          · exact correct_of_broken applied broken
      | succ count =>
        obtain ⟨changed, -, applied, rest⟩ := way.first found
        obtain ⟨next, foundNext, start⟩ := rest.start foundLast
        have more : corrections next.offenses ≠ [] := by
          rcases start with ⟨-, rfl⟩ | more
          · exact suggestedLast
          · exact more
        rw [correct_of_finds applied foundNext, if_neg more]
        exact (ih foundNext more).mpr ⟨count, Nat.lt_of_succ_lt_succ bound, reached, rest,
          last, foundLast, suggestedLast, reason⟩

end RecipeLint.Analyzer
