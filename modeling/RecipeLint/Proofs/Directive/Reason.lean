/-
**Reasons that are found.**

Two lines can allow the violation of a rule, and where both do, the directive of the line above
decides. A reason that one of them gives is found unless the directive of the line above names the
rule and gives none: that one shadows the reason on the line itself. The offense is dropped in
either case; a rule that insists on a reason warns exactly if the reason is shadowed.

* `Directive.GivesReason`, `Directive.IsShadowed` — what stands on the two lines.
* `Directive.allowing?_of_above`, `Directive.allowing?_of_line` — which directive decides.
* `Directive.givesReason_iff_found` — when a reason that is given is found, and what becomes of an
  offense.
-/

import RecipeLint.Evaluation
import RecipeLint.Proofs.Directive.Coverage
import RecipeLint.Rules.VaultUse

namespace RecipeLint

namespace Directive

variable {content : List Char} {line : Nat} {name code : String} {directive : Directive}

/-- **A reason is given** on a line or on the line above, by a directive that names the rule. -/
def GivesReason (content : List Char) (line : Nat) (name code : String) : Prop :=
  ∃ place directive reason, (place = line ∨ place + 1 = line) ∧
    at? content place = some directive ∧ directive.Names name code ∧
    directive.reason = some reason

/-- **The line above shadows a reason** on the line itself: its directive names the rule and gives
none. -/
def IsShadowed (content : List Char) (line : Nat) (name code : String) : Prop :=
  ∃ place directive, place + 1 = line ∧ at? content place = some directive ∧
    directive.Names name code ∧ directive.reason = none

/-! ### Which directive decides -/

theorem filter_covers_eq_some (named : directive.Names name code) :
    (some directive).filter (fun directive => directive.covers name code) = some directive :=
  Option.filter_some_pos ((covers_iff directive name code).mpr named)

/-- A directive on the line above decides if it names the rule. -/
theorem allowing?_of_above {place : Nat} (above : place + 1 = line)
    (found : at? content place = some directive) (named : directive.Names name code) :
    allowing? content line name code = some directive := by
  subst above
  rw [allowing?, Nat.add_sub_cancel, found, filter_covers_eq_some named, Option.some_or]

/-- A directive on the line itself decides if it names the rule and that of the line above does
not. -/
theorem allowing?_of_line (found : at? content line = some directive)
    (named : directive.Names name code)
    (alone : ∀ place other, place + 1 = line → at? content place = some other →
      ¬ other.Names name code) :
    allowing? content line name code = some directive := by
  have nothing : (at? content (line - 1)).filter (fun directive => directive.covers name code) =
      none := by
    rw [Option.filter_eq_none_iff]
    intro other above covered
    cases line with
    | zero => cases above
    | succ place => exact alone place other rfl above ((covers_iff other name code).mp covered)
  rw [allowing?, nothing, found, filter_covers_eq_some named, Option.none_or]

/-- The directive that decides gives its reason. -/
theorem check_scan_of_allowing? (decides : allowing? content line name code = some directive) :
    (Directives.scan content).check line name code = .allowed directive.reason := by
  rw [Directives.check_scan, decides]

/-! ### Reasons that are given -/

/-- What decides if a reason is given: a directive without a reason if the reason is shadowed, and
one with a reason otherwise. -/
theorem exists_allowing? (given : GivesReason content line name code) :
    ∃ directive, allowing? content line name code = some directive ∧
      (directive.reason = none ↔ IsShadowed content line name code) := by
  by_cases above : ∃ place other, place + 1 = line ∧ at? content place = some other ∧
      other.Names name code
  · obtain ⟨place, other, next, found, named⟩ := above
    refine ⟨other, allowing?_of_above next found named, fun missing => ?_, ?_⟩
    · exact ⟨place, other, next, found, named, missing⟩
    · rintro ⟨place', other', next', found', -, missing⟩
      obtain rfl : place = place' := by omega
      rw [found] at found'
      cases found'
      exact missing
  · have alone : ∀ place other, place + 1 = line → at? content place = some other →
        ¬ other.Names name code :=
      fun place other next found named => above ⟨place, other, next, found, named⟩
    obtain ⟨place, directive, reason, rfl | next, found, named, reasoned⟩ := given
    · refine ⟨directive, allowing?_of_line found named alone, fun missing => ?_, ?_⟩
      · rw [reasoned] at missing
        cases missing
      · rintro ⟨place', other, next, found', named', -⟩
        exact absurd named' (alone place' other next found')
    · exact absurd named (alone place directive next found)

/-- **A reason that is given is found unless it is shadowed.** An offense of the rule is dropped in
either case; the warning about a missing reason stands in its place exactly if the rule insists on
a reason and the given one is shadowed. -/
theorem givesReason_iff_found (content : List Char) (line : Nat) (name code : String)
    (given : GivesReason content line name code) :
    ((∃ reason, (Directives.scan content).check line name code = .allowed (some reason)) ↔
      ¬ IsShadowed content line name code) ∧
    ∀ (evaluator : Evaluator) (rule : Rule) (offense : Offense),
      rule.name = name → rule.code = code → offense.location.line = line →
        (evaluator.settle (Directives.scan content) rule offense = [] ∨
          evaluator.settle (Directives.scan content) rule offense =
            [Evaluator.missingReason rule offense.location]) ∧
        (evaluator.settle (Directives.scan content) rule offense = [] ↔
          ¬ (rule.requiresReason = true ∧ IsShadowed content line name code)) := by
  obtain ⟨directive, decides, shadowed⟩ := exists_allowing? given
  have checked := check_scan_of_allowing? decides
  rw [← shadowed]
  constructor
  · rw [checked]
    cases directive.reason with
    | none => simp
    | some reason => simp
  · rintro evaluator rule offense rfl rfl rfl
    have settled : evaluator.settle (Directives.scan content) rule offense =
        if rule.requiresReason && directive.reason.isNone then
          [Evaluator.missingReason rule offense.location] else [] := by
      rw [Evaluator.settle, checked]
    rw [settled]
    cases directive.reason with
    | none => cases rule.requiresReason <;> simp
    | some reason => simp

end Directive

/-! ### Samples -/

namespace Sample

/-- A rule that insists on a reason. -/
def insisting : Rule := { Rules.VaultUse.rule with requiresReason := true }

/-- A reason below a directive for another rule. -/
def openReason : List Char :=
  "# cookbook-lint: allow(CL002)\nx # cookbook-lint: allow(CL004) reason=\"ours\"\n".toList

/-- A reason below a directive for the same rule. -/
def shadowedReason : List Char :=
  "# cookbook-lint: allow(CL004)\nx # cookbook-lint: allow(CL004) reason=\"ours\"\n".toList

theorem openReason_given :
    Directive.GivesReason openReason 2 insisting.name insisting.code := by
  -- The characters are spelled out first: decoding a string takes long.
  have characters : openReason = _ := String.toList_ofList
  have second : Directive.at? openReason 2 = some ⟨["CL004"], some "ours"⟩ := by
    rw [characters]
    decide
  exact ⟨2, _, "ours", Or.inl rfl, second, Or.inr (Or.inr (by decide)), rfl⟩

theorem openReason_isOpen :
    ¬ Directive.IsShadowed openReason 2 insisting.name insisting.code := by
  rintro ⟨place, directive, above, found, named, -⟩
  obtain rfl : place = 1 := by omega
  have characters : openReason = _ := String.toList_ofList
  have first : Directive.at? openReason 1 = some ⟨["CL002"], none⟩ := by
    rw [characters]
    decide
  cases first.symm.trans found
  revert named
  unfold Directive.Names
  decide

/-- Below a directive for another rule the reason is found, and nothing is said. -/
theorem openReason_found :
    Directive.GivesReason openReason 2 insisting.name insisting.code ∧
      (∃ reason, (Directives.scan openReason).check 2 insisting.name insisting.code =
        .allowed (some reason)) ∧
      ∀ (evaluator : Evaluator) (offense : Offense), offense.location.line = 2 →
        evaluator.settle (Directives.scan openReason) insisting offense = [] := by
  obtain ⟨found, settled⟩ := Directive.givesReason_iff_found _ _ _ _ openReason_given
  refine ⟨openReason_given, found.mpr openReason_isOpen, fun evaluator offense second => ?_⟩
  obtain ⟨-, quiet⟩ := settled evaluator insisting offense rfl rfl second
  exact quiet.mpr fun both => openReason_isOpen both.2

/-- **Below a directive for the same rule the reason is not found**, and the rule warns that it is
missing. -/
theorem shadowedReason_not_found :
    Directive.GivesReason shadowedReason 2 insisting.name insisting.code ∧
      (Directives.scan shadowedReason).check 2 insisting.name insisting.code = .allowed none ∧
      ∀ (evaluator : Evaluator) (offense : Offense), offense.location.line = 2 →
        evaluator.settle (Directives.scan shadowedReason) insisting offense =
          [Evaluator.missingReason insisting offense.location] := by
  have characters : shadowedReason = _ := String.toList_ofList
  have second : Directive.at? shadowedReason 2 = some ⟨["CL004"], some "ours"⟩ := by
    rw [characters]
    decide
  have checked : (Directives.scan shadowedReason).check 2 insisting.name insisting.code =
      .allowed none := by
    rw [characters]
    decide
  refine ⟨⟨2, _, "ours", Or.inl rfl, second, Or.inr (Or.inr (by decide)), rfl⟩, checked,
    fun evaluator offense line => ?_⟩
  rw [Evaluator.settle, line, checked]
  rfl

end Sample

end RecipeLint
