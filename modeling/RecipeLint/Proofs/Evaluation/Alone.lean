/-
**Evaluations with one rule.**

Where one rule runs alone and no directive allows what it finds, the corrections that an evaluation
comes to are those of the nodes of the tree, put in the order of the offenses.

* `Evaluator.Alone` — a rule runs alone.
* `Evaluator.Alone.corrections_evaluate` — what the corrections are.
* `Evaluator.Alone.corrections_eq_nil` — there are none if it finds nothing.
-/

import RecipeLint.Proofs.Evaluation.Reference

namespace RecipeLint.Evaluator

/-- **A rule runs alone on a file.** -/
structure Alone (evaluator : Evaluator) (file : SourceFile) (rule : Rule) : Prop where
  built : evaluator.registry.Built
  active : evaluator.activeRules file = [rule]

variable {evaluator : Evaluator} {file : SourceFile} {rule : Rule}

/-- What becomes of an offense has its corrections, if no directive allows it. -/
theorem corrections_judge_of_denied
    (denied : ∀ line, Directive.allowing? file.content line rule.name rule.code = none)
    (offense : Offense) :
    (evaluator.judge file rule offense).flatMap (·.corrections) = offense.corrections := by
  unfold judge
  rw [denied]
  exact List.flatMap_singleton _ _

/-- The rule sees the nodes of its kinds. -/
theorem Alone.concerned_eq (alone : evaluator.Alone file rule) (node : Node) :
    evaluator.concerned file node = [rule].filter fun rule => decide (node.tag ∈ rule.tags) := by
  rw [← alone.active, activeRules, List.filter_filter, concerned]

/-- An evaluation returns if the rule fails on no node. -/
theorem Alone.evaluate_eq_ok (alone : evaluator.Alone file rule) {root : Node}
    (finds : ∀ visit ∈ Visit.all root, visit.node.tag ∈ rule.tags →
      ∃ found, rule.check ⟨file, visit.ancestors⟩ visit.node = .offenses found) :
    evaluator.evaluate file root = .ok (evaluator.reference file root) := by
  refine evaluate_eq_ok_of_looks alone.built fun visit member other concerned => ?_
  rw [alone.concerned_eq] at concerned
  obtain ⟨isRule, looks⟩ := List.mem_filter.mp concerned
  obtain rfl := List.mem_singleton.mp isRule
  obtain ⟨found, checked⟩ := finds visit member (of_decide_eq_true looks)
  exact look_eq_showing_of_offenses checked

/-- **The corrections of an evaluation are those of the nodes**, if the rule finds the same at a
node whatever stands around it. -/
theorem Alone.corrections_evaluate (alone : evaluator.Alone file rule) (root : Node)
    (changes : Node → List Correction)
    (denied : ∀ line, Directive.allowing? file.content line rule.name rule.code = none)
    (finds : ∀ visit ∈ Visit.all root, visit.node.tag ∈ rule.tags →
      ∃ found, rule.check ⟨file, visit.ancestors⟩ visit.node = .offenses found ∧
        found.flatMap (·.corrections) = changes visit.node)
    (only : ∀ node, node.tag ∉ rule.tags → changes node = []) :
    ∃ evaluation, evaluator.evaluate file root = .ok evaluation ∧
      (evaluation.offenses.flatMap (·.corrections)).Perm (root.walk.flatMap changes) := by
  have returns := alone.evaluate_eq_ok fun visit member looks =>
    let ⟨found, checked, _⟩ := finds visit member looks
    ⟨found, checked⟩
  refine ⟨_, returns, ?_⟩
  refine ((List.mergeSort_perm _ _).flatMap_right _).trans (List.Perm.of_eq ?_)
  rw [findings, Evaluation.join, List.flatMap_assoc, List.flatMap_assoc, ← Visit.map_node_all,
    List.flatMap_map]
  refine List.flatMap_congr fun visit member => ?_
  rw [alone.concerned_eq]
  by_cases looks : visit.node.tag ∈ rule.tags
  · obtain ⟨found, checked, same⟩ := finds visit member looks
    have shown : (evaluator.showing file visit rule).offenses.flatMap (·.corrections) =
        changes visit.node := by
      rw [showing, checked, ← same, List.flatMap_assoc]
      exact List.flatMap_congr fun offense _ => corrections_judge_of_denied denied offense
    rw [List.filter_cons_of_pos (by simpa using looks), List.filter_nil, List.map_singleton,
      List.flatMap_singleton]
    exact shown
  · rw [List.filter_cons_of_neg (by simpa using looks), only _ looks]
    rfl

/-- A rule that finds nothing corrects nothing. -/
theorem Alone.corrections_eq_nil (alone : evaluator.Alone file rule) (root : Node)
    (clean : ∀ visit ∈ Visit.all root, visit.node.tag ∈ rule.tags →
      rule.check ⟨file, visit.ancestors⟩ visit.node = .offenses []) :
    ∃ evaluation, evaluator.evaluate file root = .ok evaluation ∧
      evaluation.offenses.flatMap (·.corrections) = [] := by
  refine ⟨_, alone.evaluate_eq_ok fun visit member looks => ⟨[], clean visit member looks⟩, ?_⟩
  refine List.flatMap_eq_nil_iff.mpr fun offense found => ?_
  have found : offense ∈ (evaluator.findings file root).offenses := List.mem_mergeSort.mp found
  rw [findings, Evaluation.join, List.mem_flatMap] at found
  obtain ⟨part, shown, inPart⟩ := found
  obtain ⟨visit, member, shown⟩ := List.mem_flatMap.mp shown
  rw [alone.concerned_eq] at shown
  obtain ⟨other, concerned, rfl⟩ := List.mem_map.mp shown
  obtain ⟨isRule, looks⟩ := List.mem_filter.mp concerned
  obtain rfl := List.mem_singleton.mp isRule
  rw [showing, clean visit member (of_decide_eq_true looks)] at inPart
  cases inPart

end RecipeLint.Evaluator
