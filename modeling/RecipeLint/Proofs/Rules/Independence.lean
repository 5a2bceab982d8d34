/-
**Fixes of independent offenses can be made together.**

Offenses that do not overlap have corrections that do not overlap either, since a rule changes what
it reports. There is one exception. The removal of `provides` takes the blanks before the call with
it, and a comment may end in one of these blanks.

* `Rules.Independent` — offenses do not overlap, are not empty, and do not run into a `provides`.
* `Rules.evaluate_isAbout` — every offense of an evaluation is about a node.
* `Rules.apply_of_independent` — the corrections of independent offenses are accepted.
* `Sample.fixes_collide` — without each of the conditions they may be refused.
-/

import RecipeLint.Proofs.Evaluation.Order
import RecipeLint.Proofs.Evaluation.Origin
import RecipeLint.Proofs.Evaluation.Reference
import RecipeLint.Proofs.Rules.Reach

namespace RecipeLint

/-- Corrections that can be cut out of a text and do not overlap are accepted. -/
theorem Patch.apply_ofList_isOk {text : List Char} {corrections : List Correction}
    (fits : ∀ correction ∈ corrections, correction.Fits)
    (cuts : ∀ correction ∈ corrections, correction.span.CutsOut text)
    (disjoint : corrections.Pairwise fun one other => one.span.overlaps other.span = false) :
    ∃ result, apply (String.ofList text) corrections = .ok (.ok result) := by
  have ordered : ∀ edit ∈ corrections.map Correction.toEdit, edit.range.IsOrdered :=
    List.forall_mem_map.mpr fun correction _ => correction.span_isOrdered
  have accepted := (accepted_map_toEdit_iff text corrections).mpr ⟨cuts, disjoint⟩
  have made := (applyEdits_eq_ok_iff ordered).mpr ⟨accepted, rfl⟩
  rw [apply_of_fits _ fits, String.toList_ofList, made]
  exact ⟨_, rfl⟩

/-- Corrections that can be cut out of a text and overlap are refused because they overlap. -/
theorem Patch.apply_ofList_overlapping {text : List Char} {corrections : List Correction}
    (fits : ∀ correction ∈ corrections, correction.Fits)
    (cuts : ∀ correction ∈ corrections, correction.span.CutsOut text)
    (clash : ¬ corrections.Pairwise fun one other => one.span.overlaps other.span = false) :
    ∃ first second, apply (String.ofList text) corrections =
      .ok (.error (.overlapping first second)) := by
  have allOrdered : ∀ edit ∈ corrections.map Correction.toEdit, edit.range.IsOrdered :=
    List.forall_mem_map.mpr fun correction _ => correction.span_isOrdered
  have allCut : ∀ edit ∈ corrections.map Correction.toEdit, edit.range.CutsOut text :=
    List.forall_mem_map.mpr cuts
  have ordered : ∀ edit ∈ Edit.sorted (corrections.map Correction.toEdit), edit.range.IsOrdered :=
    fun edit member => allOrdered edit (Edit.mem_sorted.mp member)
  have within : (Edit.sorted (corrections.map Correction.toEdit)).find?
      (fun edit => !edit.range.isWithin text) = none :=
    (find?_isWithin_eq_none_iff ordered).mpr fun edit member =>
      allCut edit (Edit.mem_sorted.mp member)
  cases found : overlap? (Edit.sorted (corrections.map Correction.toEdit)) with
  | none =>
    rw [overlap?_eq_none_iff ordered (Edit.sorted_pairwise_le _), Edit.pairwise_sorted_iff] at found
    exact absurd ((accepted_map_toEdit_iff text corrections).mp ⟨allCut, found⟩).2 clash
  | some both =>
    refine ⟨both.1, both.2, ?_⟩
    rw [apply_of_fits _ fits, String.toList_ofList, applyEdits, check, within]
    simp only [found]
    rfl

namespace Rules

/-- **Offenses are independent**: no two of them overlap, none that is fixed is empty, and none that
is fixed ends in the blanks before a call of `provides` that is removed. -/
structure Independent (source : List Char) (offenses : List Offense) : Prop where
  disjoint : offenses.Pairwise fun first second =>
    first.location.span.overlaps second.location.span = false
  notEmpty : ∀ offense ∈ offenses, offense.isCorrectable = true →
    offense.location.span.start < offense.location.span.stop
  separate : ∀ offense ∈ offenses, offense.isCorrectable = true → ∀ removed ∈ offenses,
    removed.code = ProvidesMetadata.identity.code →
      ¬ offense.location.span.RunsInto source removed.location.span

/-! ### Two offenses -/

section TwoOffenses

variable {source : List Char} {first second : Offense}

theorem stop_le_reachStart (firstCuts : first.location.span.CutsOut source)
    (secondCuts : second.location.span.CutsOut source)
    (before : first.location.span.stop ≤ second.location.span.start)
    (separate : second.code = ProvidesMetadata.identity.code →
      ¬ first.location.span.RunsInto source second.location.span) :
    first.location.span.stop ≤ second.reachStart source := by
  by_cases removes : second.code = ProvidesMetadata.identity.code
  · rw [Offense.reachStart_of_eq removes]
    have notReached := separate removes
    rw [runsInto_iff firstCuts secondCuts before] at notReached
    exact Nat.le_of_not_lt notReached
  · rw [Offense.reachStart_of_ne removes]
    exact before

/-- If an offense ends before the other one touches anything, their corrections do not overlap. -/
theorem corrections_apart (firstKeeps : first.KeepsWithin source)
    (secondKeeps : second.KeepsWithin source)
    (before : first.location.span.stop ≤ second.location.span.start)
    (clear : first.location.span.stop ≤ second.reachStart source) {one other : Correction}
    (oneMember : one ∈ first.corrections) (otherMember : other ∈ second.corrections) :
    one.span.overlaps other.span = false := by
  have oneStop := (firstKeeps.inside one oneMember).2
  have otherStart := (secondKeeps.inside other otherMember).1
  have behind := secondKeeps.behind other otherMember
  rw [← Bool.not_eq_true, Span.overlaps_iff]
  change one.span.stop ≤ first.location.span.stop at oneStop
  change second.reachStart source ≤ other.span.start at otherStart
  rintro (⟨-, shared⟩ | ⟨oneEmpty, otherEmpty, same⟩)
  · omega
  · -- Two texts put in at one place: the second goes behind the start of its offense.
    have late := behind otherEmpty
    omega

end TwoOffenses

/-! ### Evaluations -/

theorem settled_isAbout {evaluator : Evaluator} {directives : Directives} {rule : Rule}
    {source : List Char} {node : Node} {reported offense : Offense}
    (about : reported.IsAbout source node)
    (member : offense ∈ evaluator.settle directives rule reported) :
    offense.IsAbout source node := by
  rcases Evaluator.mem_settle member with rfl | ⟨severity, rfl⟩
  · exact ⟨about.span, fun _ => .of_nil rfl⟩
  · refine ⟨about.span, fun notEmpty => ?_⟩
    obtain ⟨cuts, inside, apart, behind⟩ := about.keeps notEmpty
    exact ⟨cuts, inside, apart, behind⟩

theorem isCorrectable_of_mem {offense : Offense} {correction : Correction}
    (fixes : correction ∈ offense.corrections) : offense.isCorrectable = true := by
  unfold Offense.isCorrectable
  cases found : offense.corrections with
  | nil => rw [found] at fixes; cases fixes
  | cons => rfl

section Evaluations

variable {evaluator : Evaluator} {file : SourceFile} {root : Node} {evaluation : Evaluation}
  (builtIn : ∀ rule ∈ evaluator.registry.rules, IsBuiltIn rule)
  (laid : ∀ node ∈ root.walk, node.IsLaidOut file.content)
  (named : ∀ node ∈ root.walk, ShellOut.IsNamed node)

include builtIn laid named

/-- Every offense of an evaluation is about a node of the tree. -/
theorem evaluate_isAbout (evaluated : evaluator.evaluate file root = .ok evaluation)
    {offense : Offense} (member : offense ∈ evaluation.offenses) :
    ∃ node ∈ root.walk, offense.IsAbout file.content node := by
  obtain ⟨rule, ruleMember, visit, visitMember, found, checked, reported, isReported, settled⟩ :=
    Evaluator.offense_origin evaluated member
  have inWalk := Visit.node_mem_walk visitMember
  have about := check_isAbout (builtIn rule ruleMember) (laid visit.node inWalk)
    (named visit.node inWalk) checked isReported
  exact ⟨visit.node, inWalk, settled_isAbout about settled⟩

section Fixes

variable (evaluated : evaluator.evaluate file root = .ok evaluation)
  (independent : Independent file.content evaluation.offenses)

include evaluated independent

theorem offense_keepsWithin {offense : Offense} {correction : Correction}
    (member : offense ∈ evaluation.offenses) (fixes : correction ∈ offense.corrections) :
    offense.KeepsWithin file.content ∧ offense.location.span.CutsOut file.content := by
  obtain ⟨node, inWalk, about⟩ := evaluate_isAbout builtIn laid named evaluated member
  have notEmpty := independent.notEmpty offense member (isCorrectable_of_mem fixes)
  rw [about.span] at notEmpty ⊢
  exact ⟨about.keeps notEmpty, (laid node inWalk).cuts⟩

/-- No correction of an offense overlaps one of another offense. -/
theorem corrections_of_two {first second : Offense} (firstMember : first ∈ evaluation.offenses)
    (secondMember : second ∈ evaluation.offenses)
    (disjoint : first.location.span.overlaps second.location.span = false) {one other : Correction}
    (oneFixes : one ∈ first.corrections) (otherFixes : other ∈ second.corrections) :
    one.span.overlaps other.span = false := by
  obtain ⟨firstKeeps, firstCuts⟩ :=
    offense_keepsWithin builtIn laid named evaluated independent firstMember oneFixes
  obtain ⟨secondKeeps, secondCuts⟩ :=
    offense_keepsWithin builtIn laid named evaluated independent secondMember otherFixes
  have firstFixed := isCorrectable_of_mem oneFixes
  have secondFixed := isCorrectable_of_mem otherFixes
  have firstLength := independent.notEmpty first firstMember firstFixed
  have secondLength := independent.notEmpty second secondMember secondFixed
  rw [← Bool.not_eq_true, Span.overlaps_iff] at disjoint
  have oneBefore : first.location.span.stop ≤ second.location.span.start ∨
      second.location.span.stop ≤ first.location.span.start := by omega
  rcases oneBefore with before | before
  · have clear := stop_le_reachStart firstCuts secondCuts before
      (independent.separate first firstMember firstFixed second secondMember)
    exact corrections_apart firstKeeps secondKeeps before clear oneFixes otherFixes
  · have clear := stop_le_reachStart secondCuts firstCuts before
      (independent.separate second secondMember secondFixed first firstMember)
    rw [Span.overlaps_comm]
    exact corrections_apart secondKeeps firstKeeps before clear otherFixes oneFixes

theorem corrections_pairwise :
    (evaluation.offenses.flatMap (·.corrections)).Pairwise fun one other =>
      one.span.overlaps other.span = false := by
  rw [List.pairwise_flatMap]
  refine ⟨fun offense member => ?_, independent.disjoint.imp_of_mem ?_⟩
  · cases found : offense.corrections with
    | nil => exact List.Pairwise.nil
    | cons correction rest =>
      have fixes : correction ∈ offense.corrections := found ▸ List.mem_cons_self
      rw [← found]
      exact (offense_keepsWithin builtIn laid named evaluated independent member fixes).1.apart
  · intro first second firstMember secondMember disjoint one oneFixes other otherFixes
    exact corrections_of_two builtIn laid named evaluated independent firstMember secondMember
      disjoint oneFixes otherFixes

theorem corrections_cutOut {correction : Correction}
    (member : correction ∈ evaluation.offenses.flatMap (·.corrections)) :
    correction.span.CutsOut file.content := by
  obtain ⟨offense, offenseMember, fixes⟩ := List.mem_flatMap.mp member
  exact (offense_keepsWithin builtIn laid named evaluated independent offenseMember fixes).1.cuts
    correction fixes

end Fixes

end Evaluations

/-- **The corrections of independent offenses are accepted together.** Whatever the settings and the
file, the rules have an outcome on every tree that is laid out in the text, and what they report can
be fixed all at once if it is independent. -/
theorem apply_of_independent (evaluator : Evaluator) (file : SourceFile) (root : Node)
    (builtIn : ∀ rule ∈ evaluator.registry.rules, IsBuiltIn rule)
    (small : Text.size file.content < maxWord)
    (laid : ∀ node ∈ root.walk, node.IsLaidOut file.content)
    (named : ∀ node ∈ root.walk, ShellOut.IsNamed node) :
    ∃ evaluation, evaluator.evaluate file root = .ok evaluation ∧
      (Independent file.content evaluation.offenses →
        ∃ result, Patch.apply (String.ofList file.content)
          (evaluation.offenses.flatMap (·.corrections)) = .ok (.ok result)) := by
  have placed : ∀ visit ∈ Visit.all root,
      visit.node.span.IsOrdered ∧ visit.node.span.start < maxWord := by
    intro visit member
    have cuts := (laid visit.node (Visit.node_mem_walk member)).cuts
    have ordered := cuts.isOrdered
    have bound := cuts.stop_le
    unfold Span.IsOrdered at ordered
    exact ⟨ordered, by omega⟩
  obtain ⟨evaluation, evaluated⟩ := evaluator.evaluate_isOk file placed
  refine ⟨evaluation, evaluated, fun independent => ?_⟩
  have cuts : ∀ correction ∈ evaluation.offenses.flatMap (·.corrections),
      correction.span.CutsOut file.content := fun correction member =>
    corrections_cutOut builtIn laid named evaluated independent member
  have fits : ∀ correction ∈ evaluation.offenses.flatMap (·.corrections), correction.Fits := by
    intro correction member
    have bound := (cuts correction member).stop_le
    exact Nat.le_trans bound (Nat.le_of_lt small)
  exact Patch.apply_ofList_isOk fits cuts
    (corrections_pairwise builtIn laid named evaluated independent)

end Rules

/-! ### Samples -/

namespace Sample

/-- All seven rules. -/
def allRules : Registry :=
  match Registry.ofRules Rules.all with
  | .ok registry => registry
  | .error _ => .empty

theorem allRules_rules : allRules.rules = Rules.all := rfl

theorem allRules_builtIn : ∀ rule ∈ allRules.rules, Rules.IsBuiltIn rule := by
  rw [allRules_rules, Rules.all]
  simp only [List.forall_mem_cons, List.not_mem_nil, IsEmpty.forall_iff, implies_true, and_true]
  exact ⟨.legacyRunner _, .poiseDependency _, .shellOut, .vaultUse, .providesMetadata, .copyright,
    .registryUac⟩

/-- A description of a cookbook. -/
def description (text : String) : SourceFile where
  path := "/metadata.rb"
  content := text.toList
  relativePath := "metadata.rb"
  year := 2024

/-- A copyright comment, a call of `provides` and a specialised command. -/
def mixedText : String :=
  "# Copyright 2010 Acme\nprovides 'x'\nshell_out_with_systems_locale 'ls'\n"

def mixedTree : Node :=
  ⟨.program, ⟨0, 70⟩,
    [.leaf (.comment "# Copyright 2010 Acme") ⟨0, 21⟩,
     ⟨.call "provides" ⟨22, 30⟩ false 1, ⟨22, 34⟩, [.leaf (.str "x") ⟨31, 34⟩]⟩,
     ⟨.call "shell_out_with_systems_locale" ⟨35, 64⟩ false 1, ⟨35, 69⟩,
       [.leaf (.str "ls") ⟨65, 69⟩]⟩]⟩

/-- Whether the looks at a tree come to offenses that are in order and pass a test. -/
def comesTo (evaluator : Evaluator) (file : SourceFile) (root : Node) (holds : Evaluation → Prop)
    [DecidablePred holds] : Bool :=
  (evaluator.sweep file root).toOption.any fun found =>
    decide (found.offenses.Pairwise fun first second =>
      Evaluator.startsNoLater first second = true) && decide (holds found)

theorem exists_evaluation {evaluator : Evaluator} {file : SourceFile} {root : Node}
    {holds : Evaluation → Prop} [DecidablePred holds]
    (passes : comesTo evaluator file root holds = true) :
    ∃ evaluation, evaluator.evaluate file root = .ok evaluation ∧ holds evaluation := by
  unfold comesTo at passes
  rw [Evaluator.evaluate_eq_map_sweep]
  cases swept : evaluator.sweep file root with
  | error cause =>
    rw [swept] at passes
    cases passes
  | ok found =>
    rw [swept, Except.toOption, Option.any_some, Bool.and_eq_true, decide_eq_true_eq,
      decide_eq_true_eq] at passes
    obtain ⟨inOrder, holds⟩ := passes
    have sorted : found.sorted = found := by
      rw [Evaluation.sorted, List.mergeSort_of_pairwise inOrder]
    exact ⟨found, congrArg Except.ok sorted, holds⟩

theorem not_runsInto {source : List Char} {first second : Span}
    (clear : first.stop ≤ second.start → first.stop ≤ (spaceToLeft source second).start) :
    ¬ first.RunsInto source second := by
  intro runs
  have reaches := spaceToLeft_start_lt runs
  obtain ⟨-, -, gap, -, -, -, -, -, gapAt⟩ := runs
  have order : first.stop ≤ second.start := by omega
  exact Nat.not_lt_of_le (clear order) reaches

/-- Three fixes of neighbours are accepted together. -/
theorem mixed_accepted :
    (∀ node ∈ mixedTree.walk, node.IsLaidOut (description mixedText).content) ∧
      (∀ node ∈ mixedTree.walk, Rules.ShellOut.IsNamed node) ∧
      ∃ evaluation, Evaluator.evaluate ⟨allRules, {}, none⟩ (description mixedText) mixedTree =
          .ok evaluation ∧
        evaluation.offenses.length = 3 ∧
        Rules.Independent (description mixedText).content evaluation.offenses ∧
        ∃ result, Patch.apply (String.ofList (description mixedText).content)
          (evaluation.offenses.flatMap (·.corrections)) = .ok (.ok result) := by
  have laid : ∀ node ∈ mixedTree.walk, node.IsLaidOut (description mixedText).content := by
    rw [Node.walk_eq_preorder]
    decide +kernel
  have named : ∀ node ∈ mixedTree.walk, Rules.ShellOut.IsNamed node := by
    rw [Node.walk_eq_preorder]
    decide +kernel
  obtain ⟨evaluation, evaluated, count, disjoint, notEmpty, clear⟩ :
      ∃ evaluation, Evaluator.evaluate ⟨allRules, {}, none⟩ (description mixedText) mixedTree =
          .ok evaluation ∧
        evaluation.offenses.length = 3 ∧
        (evaluation.offenses.Pairwise fun first second =>
          first.location.span.overlaps second.location.span = false) ∧
        (∀ offense ∈ evaluation.offenses,
          offense.location.span.start < offense.location.span.stop) ∧
        ∀ offense ∈ evaluation.offenses, ∀ removed ∈ evaluation.offenses,
          offense.location.span.stop ≤ removed.location.span.start →
            offense.location.span.stop ≤
              (spaceToLeft (description mixedText).content removed.location.span).start :=
    exists_evaluation (by decide +kernel)
  have independent : Rules.Independent (description mixedText).content evaluation.offenses :=
    ⟨disjoint, fun offense member _ => notEmpty offense member,
      fun offense member _ removed removedMember _ =>
        not_runsInto (clear offense member removed removedMember)⟩
  obtain ⟨same, evaluated', accepted⟩ := Rules.apply_of_independent ⟨allRules, {}, none⟩
    (description mixedText) mixedTree allRules_builtIn (by decide +kernel) laid named
  rw [evaluated] at evaluated'
  cases evaluated'
  exact ⟨laid, named, evaluation, evaluated, count, independent, accepted independent⟩

/-- **Fixes collide although the offenses do not overlap**: all rules report offenses on a tree that
is laid out in a text, no two of them overlap, and their corrections are refused. -/
def Collide (text : String) (root : Node) : Prop :=
  (∀ rule ∈ allRules.rules, Rules.IsBuiltIn rule) ∧
    (∀ node ∈ root.walk, node.IsLaidOut (description text).content) ∧
    ∃ evaluation, Evaluator.evaluate ⟨allRules, {}, none⟩ (description text) root =
        .ok evaluation ∧
      (evaluation.offenses.Pairwise fun first second =>
        first.location.span.overlaps second.location.span = false) ∧
      ∃ first second, Patch.apply text (evaluation.offenses.flatMap (·.corrections)) =
        .ok (.error (.overlapping first second))

/-- Whether corrections in order are parts of a text, and two neighbours overlap. -/
def Refused (text : String) (corrections : List Correction) : Prop :=
  (∀ correction ∈ corrections, correction.Fits) ∧
    ((corrections.map Correction.toEdit).Pairwise fun first second =>
      first.range.le second.range = true) ∧
    (∀ edit ∈ corrections.map Correction.toEdit, edit.range.isWithin text.toList = true) ∧
    (Patch.overlap? (corrections.map Correction.toEdit)).isSome = true

instance (text : String) (corrections : List Correction) : Decidable (Refused text corrections) :=
  inferInstanceAs (Decidable (_ ∧ _))

theorem apply_of_refused {text : String} {corrections : List Correction}
    (refused : Refused text corrections) :
    ∃ first second, Patch.apply text corrections = .ok (.error (.overlapping first second)) := by
  obtain ⟨fits, inOrder, within, overlap⟩ := refused
  obtain ⟨⟨first, second⟩, found⟩ := Option.isSome_iff_exists.mp overlap
  have sorted : Edit.sorted (corrections.map Correction.toEdit) =
      corrections.map Correction.toEdit := List.mergeSort_of_pairwise inOrder
  have allWithin : (corrections.map Correction.toEdit).find?
      (fun edit => !edit.range.isWithin text.toList) = none :=
    List.find?_eq_none.mpr fun edit member => by simp [within edit member]
  refine ⟨first, second, ?_⟩
  rw [Patch.apply_of_fits text fits, Patch.applyEdits, sorted, Patch.check, allWithin]
  simp only [found]
  rfl

theorem collide_of_test {text : String} {root : Node}
    (laid : ∀ node ∈ root.preorder, node.IsLaidOut (description text).content)
    (passes : comesTo ⟨allRules, {}, none⟩ (description text) root (fun found =>
      (found.offenses.Pairwise fun first second =>
        first.location.span.overlaps second.location.span = false) ∧
      Refused text (found.offenses.flatMap (·.corrections))) = true) :
    Collide text root := by
  obtain ⟨evaluation, evaluated, disjoint, refused⟩ := exists_evaluation passes
  rw [← Node.walk_eq_preorder] at laid
  exact ⟨allRules_builtIn, laid, evaluation, evaluated, disjoint, apply_of_refused refused⟩

/-- A copyright comment that ends in a blank, and a call of `provides` on the next line. -/
def blankText : String := "# Copyright 2010 Acme \nprovides 'x'\n"

def blankTree : Node :=
  ⟨.program, ⟨0, 36⟩,
    [.leaf (.comment "# Copyright 2010 Acme ") ⟨0, 22⟩,
     ⟨.call "provides" ⟨23, 31⟩ false 1, ⟨23, 35⟩, [.leaf (.str "x") ⟨32, 35⟩]⟩]⟩

/-- A specialised command with an empty name. -/
def namelessTree : Node :=
  ⟨.program, ⟨0, 1⟩, [⟨.call "shell_out_with_systems_locale" ⟨1, 1⟩ false 0, ⟨0, 1⟩, []⟩]⟩

/-- An empty comment behind a specialised command. -/
def emptyTree : Node :=
  ⟨.program, ⟨0, 1⟩,
    [⟨.call "shell_out_with_systems_locale" ⟨0, 1⟩ false 0, ⟨0, 1⟩, []⟩,
     .leaf (.comment "# Copyright 2010 Acme") ⟨1, 1⟩]⟩

/-- **None of the conditions can be left out.** The removal of `provides` reaches into the comment
before it, and where a name or an offense is empty, two texts are put in at one place. -/
theorem fixes_collide :
    Collide blankText blankTree ∧ Collide "x" namelessTree ∧ Collide "x" emptyTree :=
  ⟨collide_of_test (by decide +kernel) (by decide +kernel),
    collide_of_test (by decide +kernel) (by decide +kernel),
    collide_of_test (by decide +kernel) (by decide +kernel)⟩

end Sample

end RecipeLint
