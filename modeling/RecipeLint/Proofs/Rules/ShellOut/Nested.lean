/-
**Nested calls of specialised commands.**

A pass fixes all specialised calls of a tree at once, those in the receiver or the arguments of
others included. Changes below different children of a node keep to ranges that do not overlap. Of
two calls of which one is inside the other, only the options can meet: the last argument of the
outer call may end where the option of a call in it goes, and then the changes cannot be made
together.

* `ShellOut.Unshared` — no two nested calls of a tree share a place for their options.
* `ShellOut.pairwise_iff_unshared` — then, and only then, the changes of a tree do not overlap.
* `ShellOut.corrections_evaluate` — an evaluation with this rule alone comes to these changes.
* `ShellOut.apply_of_unshared` — when a pass of this rule can be made.
* `Sample.nested_refused` — two texts whose nested calls cannot be fixed.
-/

import Mathlib.Data.List.Flatten
import RecipeLint.Proofs.Ruby.Lowering
import RecipeLint.Proofs.Rules.ShellOut.Changes

namespace RecipeLint

namespace Rules.ShellOut

variable {file : SourceFile}

/-! ### Whole trees -/

section Trees

variable {root : Node} (small : Text.size file.content < maxWord)
  (laid : ∀ node ∈ root.walk, node.IsLaidOut file.content)
  (named : ∀ node ∈ root.walk, IsNamed node) (holds : ∀ node ∈ root.walk, HoldsApart node)

/-- **No two nested calls share a place for their options.** -/
def Unshared (file : SourceFile) (root : Node) : Prop :=
  ∀ outer ∈ root.walk, ∀ inner ∈ Node.preorderAll outer.children, ¬ SharePlace file outer inner

instance (file : SourceFile) (root : Node) : Decidable (Unshared file root) := by
  unfold Unshared
  infer_instance

/-- All that stands below a node of a tree stands in the tree. -/
theorem mem_walk_of_below {node child inner : Node} (member : node ∈ root.walk)
    (childMember : child ∈ node.children) (below : inner ∈ child.preorder) : inner ∈ root.walk := by
  rw [Node.walk_eq_preorder] at member ⊢
  exact Node.mem_preorder_trans root node member inner
    (Node.mem_preorder.mpr (Or.inr ⟨child, childMember, below⟩))

include laid named

/-- What is changed below siblings does not overlap. -/
theorem children_related (member : node ∈ root.walk) :
    node.children.Pairwise (Node.Related (corrections file)
      fun one other => one.span.overlaps other.span = false) := by
  refine (laid node member).siblings.imp_of_mem ?_
  intro first second firstMember secondMember apart one oneMember other otherMember
  obtain ⟨oneNode, oneBelow, one⟩ := List.mem_flatMap.mp oneMember
  obtain ⟨otherNode, otherBelow, other⟩ := List.mem_flatMap.mp otherMember
  have inTree (child : Node) (childMember : child ∈ node.children) :
      (∀ inner ∈ child.preorder, inner.IsLaidOut file.content) ∧
        ∀ inner ∈ child.preorder, IsNamed inner :=
    ⟨fun inner below => laid inner (mem_walk_of_below member childMember below),
      fun inner below => named inner (mem_walk_of_below member childMember below)⟩
  obtain ⟨laidFirst, namedFirst⟩ := inTree first firstMember
  obtain ⟨laidSecond, namedSecond⟩ := inTree second secondMember
  exact (touches_below laidFirst namedFirst oneBelow one).apart
    (touches_below laidSecond namedSecond otherBelow other) apart

include small holds

/-- **The changes of a whole tree do not overlap exactly if no two nested calls share a place.** -/
theorem pairwise_iff_unshared :
    ((root.walk.flatMap (corrections file)).Pairwise fun one other =>
      one.span.overlaps other.span = false) ↔ Unshared file root := by
  have own : ∀ node ∈ root.preorder, (corrections file node).Pairwise fun one other =>
      one.span.overlaps other.span = false := by
    rw [← Node.walk_eq_preorder]
    exact fun node member => corrections_pairwise (laid node member) (named node member)
  have siblings : ∀ node ∈ root.preorder, node.children.Pairwise (Node.Related (corrections file)
      fun one other => one.span.overlaps other.span = false) := by
    rw [← Node.walk_eq_preorder]
    exact fun node member => children_related laid named member
  rw [Node.walk_eq_preorder, Node.pairwise_preorder_iff _ _ root own siblings, Unshared,
    Node.walk_eq_preorder]
  refine forall₄_congr fun outer outerMember inner innerMember => ?_
  rw [← Node.walk_eq_preorder] at outerMember
  obtain ⟨child, childMember, below⟩ := Node.mem_preorderAll.mp innerMember
  have innerWalk := mem_walk_of_below outerMember childMember below
  constructor
  · rintro apart ⟨place, outerGoes, innerGoes⟩
    obtain ⟨one, oneMember, onePuts⟩ := exists_mem_of_place (laid outer outerMember) small outerGoes
    obtain ⟨other, otherMember, otherPuts⟩ :=
      exists_mem_of_place (laid inner innerWalk) small innerGoes
    have clear := apart one oneMember other otherMember
    rw [onePuts, otherPuts, ← Bool.not_eq_true, Span.overlaps_iff] at clear
    exact clear (Or.inr ⟨rfl, rfl, rfl⟩)
  · intro unshared one oneMember other otherMember
    rw [← Bool.not_eq_true]
    intro overlap
    refine unshared (sharePlace_of_overlaps (laid outer outerMember) (named outer outerMember)
      (holds outer outerMember) childMember ?_ ?_ below oneMember otherMember overlap)
    · exact fun node inside => laid node (mem_walk_of_below outerMember childMember inside)
    · exact fun node inside => named node (mem_walk_of_below outerMember childMember inside)

end Trees

/-! ### Evaluations with this rule alone -/

section Evaluations

variable {evaluator : Evaluator} {root : Node}

/-- What becomes of an offense has its corrections or, if a directive allows it, none. -/
theorem corrections_judge (evaluator : Evaluator) (file : SourceFile) (rule : Rule)
    (offense : Offense) :
    ((evaluator.judge file rule offense).flatMap (·.corrections)).Sublist offense.corrections ∧
      (Directives.scan file.content = [] →
        (evaluator.judge file rule offense).flatMap (·.corrections) = offense.corrections) := by
  unfold Evaluator.judge
  split
  next directive allowed =>
    have denied (quiet : Directives.scan file.content = []) : False := by
      have asked := Directives.check_scan file.content offense.location.line rule.name rule.code
      rw [quiet, allowed] at asked
      cases asked
    refine ⟨?_, fun quiet => (denied quiet).elim⟩
    split
    next =>
      rw [List.flatMap_singleton]
      exact List.nil_sublist _
    next => exact List.nil_sublist _
  next =>
    rw [List.flatMap_singleton]
    exact ⟨List.Sublist.refl _, fun _ => rfl⟩

/-- Where this rule alone runs, a node is shown to it or to nobody. -/
theorem concerned_eq (alone : evaluator.activeRules file = [rule]) (node : Node) :
    evaluator.concerned file node = [rule].filter fun rule => decide (node.tag ∈ rule.tags) := by
  rw [← alone, Evaluator.activeRules, List.filter_filter, Evaluator.concerned]

/-- The corrections of what is found at a node are the changes there, less those of offenses that a
directive allows. -/
theorem corrections_showing (alone : evaluator.activeRules file = [rule]) (visit : Visit) :
    let shown := ((evaluator.concerned file visit.node).map (evaluator.showing file visit)).flatMap
      fun part => part.offenses.flatMap (·.corrections)
    shown.Sublist (corrections file visit.node) ∧
      (Directives.scan file.content = [] → shown = corrections file visit.node) := by
  intro shown
  by_cases looks : visit.node.tag ∈ rule.tags
  · have one : shown = (evaluator.showing file visit rule).offenses.flatMap (·.corrections) := by
      show ((evaluator.concerned file visit.node).map _).flatMap _ = _
      rw [concerned_eq alone, List.filter_cons_of_pos (by simpa using looks)]
      simp
    rw [one]
    unfold Evaluator.showing
    split
    next found checked =>
      rw [← corrections_of_check checked, List.flatMap_assoc]
      have each := corrections_judge evaluator file rule
      exact ⟨List.Sublist.flatMap_right found fun offense _ => (each offense).1,
        fun quiet => List.flatMap_congr fun offense _ => (each offense).2 quiet⟩
    next reason checked =>
      have same : rule.check ⟨file, []⟩ visit.node = .refused reason := checked
      rw [corrections, same]
      exact ⟨List.nil_sublist _, fun _ => rfl⟩
    next message checked =>
      have same : rule.check ⟨file, []⟩ visit.node = .crashed message := checked
      rw [corrections, same]
      exact ⟨List.nil_sublist _, fun _ => rfl⟩
  · have none : shown = [] := by
      show ((evaluator.concerned file visit.node).map _).flatMap _ = _
      rw [concerned_eq alone, List.filter_cons_of_neg (by simpa using looks)]
      rfl
    have unchanged : corrections file visit.node = [] := by
      refine List.eq_nil_iff_forall_not_mem.mpr fun correction member => looks ?_
      obtain ⟨method, methodSpan, hasReceiver, count, kind, -⟩ := fixes_of_mem member
      rw [Node.tag, kind]
      exact List.mem_singleton_self _
    rw [none, unchanged]
    exact ⟨List.Sublist.refl _, fun _ => rfl⟩

/-- The corrections of all offenses are, in another order, the changes of the tree, less those of
offenses that a directive allows. -/
theorem corrections_evaluate (built : evaluator.registry.Built)
    (alone : evaluator.activeRules file = [rule])
    (placed : ∀ node ∈ root.walk, file.Places node.span) :
    ∃ evaluation kept, evaluator.evaluate file root = .ok evaluation ∧
      (evaluation.offenses.flatMap (·.corrections)).Perm kept ∧
      kept.Sublist (root.walk.flatMap (corrections file)) ∧
      (Directives.scan file.content = [] → kept = root.walk.flatMap (corrections file)) := by
  have each := fun visit : Visit => corrections_showing alone visit
  have found : (evaluator.findings file root).offenses.flatMap (·.corrections) =
      (Visit.all root).flatMap fun visit =>
        ((evaluator.concerned file visit.node).map (evaluator.showing file visit)).flatMap
          fun part => part.offenses.flatMap (·.corrections) := by
    rw [Evaluator.findings, Evaluation.join, List.flatMap_assoc, List.flatMap_assoc]
  refine ⟨_, (evaluator.findings file root).offenses.flatMap (·.corrections),
    Evaluator.evaluate_eq_ok built placed, (List.mergeSort_perm _ _).flatMap_right _, ?_⟩
  rw [found, ← Visit.map_node_all, List.flatMap_map]
  exact ⟨List.Sublist.flatMap_right _ fun visit _ => (each visit).1,
    fun quiet => List.flatMap_congr fun visit _ => (each visit).2 quiet⟩

section Alone

variable (built : evaluator.registry.Built) (alone : evaluator.activeRules file = [rule])
  (small : Text.size file.content < maxWord)
  (laid : ∀ node ∈ root.walk, node.IsLaidOut file.content)

include built alone small laid

/-- On a tree that is laid out an evaluation returns, its corrections can be made one by one, and
they do not overlap if the changes of the tree do not; the converse holds where no directive drops
an offense. -/
theorem evaluate_laidOut :
    ∃ evaluation, evaluator.evaluate file root = .ok evaluation ∧
      (∀ correction ∈ evaluation.offenses.flatMap (·.corrections),
        correction.Fits ∧ correction.span.CutsOut file.content) ∧
      (((root.walk.flatMap (corrections file)).Pairwise fun one other =>
          one.span.overlaps other.span = false) →
        (evaluation.offenses.flatMap (·.corrections)).Pairwise fun one other =>
          one.span.overlaps other.span = false) ∧
      (Directives.scan file.content = [] →
        ((evaluation.offenses.flatMap (·.corrections)).Pairwise fun one other =>
          one.span.overlaps other.span = false) →
        (root.walk.flatMap (corrections file)).Pairwise fun one other =>
          one.span.overlaps other.span = false) := by
  have placed : ∀ node ∈ root.walk, file.Places node.span := fun node member =>
    SourceFile.places_of_cutsOut small (laid node member).cuts
  obtain ⟨evaluation, kept, evaluated, same, some, all⟩ := corrections_evaluate built alone placed
  have reordered := same.pairwise_iff fun {one other : Correction}
    (apart : one.span.overlaps other.span = false) => (Span.overlaps_comm _ _).trans apart
  refine ⟨evaluation, evaluated, fun correction member => ?_, fun apart => ?_, fun quiet => ?_⟩
  · obtain ⟨node, nodeMember, own⟩ := List.mem_flatMap.mp (some.subset (same.mem_iff.mp member))
    have cuts := cutsOut_of_mem (laid node nodeMember) own
    exact ⟨Nat.le_trans cuts.stop_le (Nat.le_of_lt small), cuts⟩
  · exact reordered.mpr (apart.sublist some)
  · rw [← all quiet]
    exact reordered.mp

variable (named : ∀ node ∈ root.walk, IsNamed node) (holds : ∀ node ∈ root.walk, HoldsApart node)

include named holds

/-- Where no two nested calls share a place, all corrections are made together. -/
theorem apply_isOk_of_unshared (unshared : Unshared file root) :
    ∃ evaluation, evaluator.evaluate file root = .ok evaluation ∧
      ∃ result, Patch.apply (String.ofList file.content)
        (evaluation.offenses.flatMap (·.corrections)) = .ok (.ok result) := by
  obtain ⟨evaluation, evaluated, single, together, -⟩ := evaluate_laidOut built alone small laid
  exact ⟨evaluation, evaluated, Patch.apply_ofList_isOk (fun correction member =>
    (single correction member).1) (fun correction member => (single correction member).2)
    (together ((pairwise_iff_unshared small laid named holds).mpr unshared))⟩

/-- Where two nested calls share a place, the corrections are refused. -/
theorem apply_overlapping_of_shared (shared : ¬ Unshared file root)
    (quiet : Directives.scan file.content = []) :
    ∃ evaluation, evaluator.evaluate file root = .ok evaluation ∧
      ∃ first second, Patch.apply (String.ofList file.content)
        (evaluation.offenses.flatMap (·.corrections)) =
          .ok (.error (.overlapping first second)) := by
  obtain ⟨evaluation, evaluated, single, -, apart⟩ := evaluate_laidOut built alone small laid
  exact ⟨evaluation, evaluated, Patch.apply_ofList_overlapping (fun correction member =>
    (single correction member).1) (fun correction member => (single correction member).2)
    fun together => shared ((pairwise_iff_unshared small laid named holds).mp
      (apart quiet together))⟩

end Alone

end Evaluations

/-- **A pass of this rule alone can be made unless nested calls share a place.** On a tree that is
laid out in a text, with names that are not empty and calls held by receivers and arguments only,
the changes do not overlap exactly if no two nested calls share a place for their options. Then an
evaluation in which no other rule runs returns, and all its corrections are made together; if calls
share a place and no directive drops an offense, the corrections are refused. -/
theorem apply_of_unshared (evaluator : Evaluator) (file : SourceFile) (root : Node)
    (built : evaluator.registry.Built) (alone : evaluator.activeRules file = [rule])
    (small : Text.size file.content < maxWord)
    (laid : ∀ node ∈ root.walk, node.IsLaidOut file.content)
    (named : ∀ node ∈ root.walk, IsNamed node) (holds : ∀ node ∈ root.walk, HoldsApart node) :
    (((root.walk.flatMap (corrections file)).Pairwise fun one other =>
      one.span.overlaps other.span = false) ↔ Unshared file root) ∧
    (Unshared file root → ∃ evaluation, evaluator.evaluate file root = .ok evaluation ∧
      ∃ result, Patch.apply (String.ofList file.content)
        (evaluation.offenses.flatMap (·.corrections)) = .ok (.ok result)) ∧
    (¬ Unshared file root → Directives.scan file.content = [] →
      ∃ evaluation, evaluator.evaluate file root = .ok evaluation ∧
        ∃ first second, Patch.apply (String.ofList file.content)
          (evaluation.offenses.flatMap (·.corrections)) =
            .ok (.error (.overlapping first second))) :=
  ⟨pairwise_iff_unshared small laid named holds,
    apply_isOk_of_unshared built alone small laid named holds,
    apply_overlapping_of_shared built alone small laid named holds⟩

end Rules.ShellOut

/-! ### Samples -/

namespace Sample

/-- The collection of the rule about commands alone. -/
def commandRule : Registry :=
  match Registry.ofRules [Rules.ShellOut.rule] with
  | .ok registry => registry
  | .error _ => .empty

theorem commandRule_built : commandRule.Built := by
  have added : Registry.ofRules [Rules.ShellOut.rule] = .ok commandRule := rfl
  exact Registry.built_of_ofRules added

theorem commandRule_alone (file : SourceFile) :
    Evaluator.activeRules ⟨commandRule, {}, none⟩ file = [Rules.ShellOut.rule] := rfl

/-- **What is asked of a tree**: it is laid out in the text, with names and with calls where they
are expected. -/
def IsSuitable (file : SourceFile) (root : Node) : Prop :=
  (∀ node ∈ root.walk, node.IsLaidOut file.content) ∧
    (∀ node ∈ root.walk, Rules.ShellOut.IsNamed node) ∧
    ∀ node ∈ root.walk, Rules.ShellOut.HoldsApart node

/-- It can be told by going through the list of all nodes. -/
instance (file : SourceFile) (root : Node) : Decidable (IsSuitable file root) :=
  decidable_of_iff
    ((∀ node ∈ root.preorder, node.IsLaidOut file.content) ∧
      (∀ node ∈ root.preorder, Rules.ShellOut.IsNamed node) ∧
      ∀ node ∈ root.preorder, Rules.ShellOut.HoldsApart node)
    (by rw [IsSuitable, Node.walk_eq_preorder])

theorem exists_parse {text : String} {holds : Node → Prop} [DecidablePred holds]
    (passes : (Ruby.parse text).toOption.any (fun root => decide (holds root)) = true) :
    ∃ root, Ruby.parse text = .ok root ∧ holds root := by
  obtain ⟨root, parsed, test⟩ := exists_ok passes
  exact ⟨root, parsed, of_decide_eq_true test⟩

/-- A call in the arguments of another one, with an argument between parentheses. -/
def closedText : String := "shell_out_with_systems_locale(shell_out_with_systems_locale('x'))\n"

/-- The changes of two nested calls, of which the inner one ends with a parenthesis, are made
together. -/
theorem closed_fixed :
    commandRule.Built ∧ Text.size (description closedText).content < maxWord ∧
      Evaluator.activeRules ⟨commandRule, {}, none⟩ (description closedText) =
        [Rules.ShellOut.rule] ∧
      ∃ root, Ruby.parse closedText = .ok root ∧ IsSuitable (description closedText) root ∧
        Rules.ShellOut.Unshared (description closedText) root ∧
        (root.walk.flatMap (Rules.ShellOut.corrections (description closedText))).length = 4 ∧
        ((root.walk.flatMap (Rules.ShellOut.corrections (description closedText))).Pairwise
          fun one other => one.span.overlaps other.span = false) ∧
        ∃ evaluation, Evaluator.evaluate ⟨commandRule, {}, none⟩ (description closedText) root =
            .ok evaluation ∧
          ∃ result, Patch.apply (String.ofList (description closedText).content)
            (evaluation.offenses.flatMap (·.corrections)) = .ok (.ok result) := by
  obtain ⟨root, parsed, suitable, unshared, four⟩ : ∃ root, Ruby.parse closedText = .ok root ∧
      IsSuitable (description closedText) root ∧
      (∀ outer ∈ root.preorder, ∀ inner ∈ Node.preorderAll outer.children,
        ¬ Rules.ShellOut.SharePlace (description closedText) outer inner) ∧
      (root.preorder.flatMap (Rules.ShellOut.corrections (description closedText))).length = 4 :=
    exists_parse (by decide +kernel)
  rw [← Node.walk_eq_preorder] at unshared four
  have characters : (description closedText).content = _ := String.toList_ofList
  have small : Text.size (description closedText).content < maxWord := by
    rw [characters]
    decide
  obtain ⟨exactly, together, -⟩ := Rules.ShellOut.apply_of_unshared ⟨commandRule, {}, none⟩
    (description closedText) root commandRule_built (commandRule_alone _) small suitable.1
    suitable.2.1 suitable.2.2
  exact ⟨commandRule_built, small, commandRule_alone _, root, parsed, suitable, unshared, four,
    exactly.mpr unshared, together unshared⟩

/-- A call in the arguments of another one, without an argument of its own. -/
def bareText : String := "shell_out_with_systems_locale(shell_out_with_systems_locale)\n"

/-- A call in the arguments of another one, both without parentheses. -/
def plainText : String := "shell_out_with_systems_locale shell_out_with_systems_locale 'x'\n"

/-- **The changes of a tree get into each other's way**, although the tree is as it is asked for,
and an evaluation with this rule alone comes to corrections that are refused. -/
def IsRefused (text : String) (root : Node) : Prop :=
  IsSuitable (description text) root ∧
    (¬ (root.walk.flatMap (Rules.ShellOut.corrections (description text))).Pairwise
      fun one other => one.span.overlaps other.span = false) ∧
    ∃ evaluation, Evaluator.evaluate ⟨commandRule, {}, none⟩ (description text) root =
        .ok evaluation ∧
      ∃ first second, Patch.apply (String.ofList (description text).content)
        (evaluation.offenses.flatMap (·.corrections)) = .ok (.error (.overlapping first second))

/-- Whether two nested calls of a tree as it is asked for share a place. -/
def Shares (file : SourceFile) (root : Node) : Prop :=
  IsSuitable file root ∧ ∃ outer ∈ root.preorder, ∃ inner ∈ Node.preorderAll outer.children,
    Rules.ShellOut.SharePlace file outer inner

instance (file : SourceFile) (root : Node) : Decidable (Shares file root) :=
  inferInstanceAs (Decidable (_ ∧ _))

theorem exists_isRefused {text : String} {characters : List Char}
    (spelled : (description text).content = characters) (small : Text.size characters < maxWord)
    (quiet : Directives.scan characters = [])
    (shares : (Ruby.parse text).toOption.any
      (fun root => decide (Shares (description text) root)) = true) :
    ∃ root, Ruby.parse text = .ok root ∧ IsRefused text root := by
  subst spelled
  obtain ⟨root, parsed, suitable, outer, outerMember, inner, innerMember, share⟩ :=
    exists_parse shares
  have shared : ¬ Rules.ShellOut.Unshared (description text) root := fun unshared =>
    unshared outer (Node.walk_eq_preorder root ▸ outerMember) inner innerMember share
  obtain ⟨laid, named, holds⟩ := id suitable
  exact ⟨root, parsed, suitable, fun apart => shared
    ((Rules.ShellOut.pairwise_iff_unshared small laid named holds).mp apart),
    Rules.ShellOut.apply_overlapping_of_shared commandRule_built (commandRule_alone _) small laid
      named holds shared quiet⟩

/-- A specialised call that is the receiver of another one and stands at its name. -/
def coveredTree : Node :=
  ⟨.program, ⟨0, 1⟩,
    [⟨.call "shell_out_compact" ⟨0, 1⟩ true 0, ⟨0, 1⟩,
      [.leaf (.call "shell_out_compact" ⟨0, 1⟩ false 0) ⟨0, 1⟩]⟩]⟩

/-- **Nested calls are refused** if the last argument of the outer one ends with the place of the
option of the inner one. Of trees with empty names, or with a call at the name of another one,
the same holds. -/
theorem nested_refused :
    (∃ root, Ruby.parse bareText = .ok root ∧ IsRefused bareText root) ∧
      (∃ root, Ruby.parse plainText = .ok root ∧ IsRefused plainText root) ∧
      ∀ root ∈ [namelessTree, coveredTree],
        (∀ node ∈ root.walk, node.IsLaidOut (description "x").content) ∧
          ¬ (root.walk.flatMap (Rules.ShellOut.corrections (description "x"))).Pairwise
            fun one other => one.span.overlaps other.span = false := by
  refine ⟨exists_isRefused String.toList_ofList (by decide) (by decide) (by decide +kernel),
    exists_isRefused String.toList_ofList (by decide) (by decide) (by decide +kernel), ?_⟩
  intro root
  rw [Node.walk_eq_preorder]
  revert root
  decide

end Sample

end RecipeLint
