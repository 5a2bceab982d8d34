/-
**Where the offenses of an evaluation come from, and when there is an evaluation.**

An evaluation shows every node to every rule that looks at its kind. Each offense of its outcome is
one that a rule of the collection reported, perhaps with another severity, or the warning in its
place. The outcome has no value only where a rule fails on a node whose place has none.

* `Evaluator.offense_origin` — the rule, the node and the report behind an offense.
* `Evaluator.mem_settle` — what can become of a reported offense.
* `Evaluator.evaluate_isOk` — an evaluation has an outcome if the range of each node does not end
  before it starts and starts below the largest machine word.
-/

import RecipeLint.Evaluation
import RecipeLint.Proofs.Patch.Order

namespace RecipeLint

/-! ### Places -/

namespace SourceFile

/-- A position has a line and a column, since its column is no greater than the position. -/
theorem lineColumn_isOk (file : SourceFile) {offset : Nat} (small : offset < maxWord) :
    ∃ place, file.lineColumn offset = .ok place := by
  have fits : ∀ column, column ≤ offset → addWords column 1 = .ok (column + 1) :=
    fun column bound => if_pos (by omega)
  unfold lineColumn
  simp only [bind, Except.bind]
  rw [fits]
  · exact ⟨_, rfl⟩
  · split
    next before slice =>
      have short := Text.length_le_size before
      have measured := (Text.size_of_slice? slice).2
      omega
    next => exact Nat.sub_le _ _

/-- A range that does not end before it starts has a place. -/
theorem location_isOk (file : SourceFile) {span : Span} (ordered : span.IsOrdered)
    (small : span.start < maxWord) : ∃ location, file.location span = .ok location := by
  obtain ⟨place, found⟩ := file.lineColumn_isOk small
  have length : span.length = .ok (span.stop - span.start) := if_pos ordered
  rw [location, found, length]
  exact ⟨_, rfl⟩

end SourceFile

namespace Registry

/-- What looks at a kind of node is a rule of the collection. -/
theorem mem_of_mem_rulesFor {registry : Registry} {tag : Tag} {rule : Rule}
    (member : rule ∈ registry.rulesFor tag) : rule ∈ registry.rules := by
  obtain ⟨place, -, found⟩ := List.mem_filterMap.mp member
  exact List.mem_of_getElem? found

end Registry

namespace Evaluator

/-! ### Outcomes of several steps -/

theorem collect_isOk {α : Type} {step : α → Except Overflow Evaluation} {items : List α}
    (each : ∀ item ∈ items, ∃ part, step item = .ok part) :
    ∃ evaluation, collect step items = .ok evaluation := by
  induction items with
  | nil => exact ⟨{}, rfl⟩
  | cons item items ih =>
    obtain ⟨first, firstOk⟩ := each item List.mem_cons_self
    obtain ⟨second, secondOk⟩ := ih fun other member => each other (List.mem_cons_of_mem _ member)
    rw [collect, firstOk, secondOk]
    exact ⟨_, rfl⟩

/-- Several steps have an outcome if the first one and the others have. -/
theorem collect_cons_eq_ok {α : Type} {step : α → Except Overflow Evaluation} {item : α}
    {items : List α} {evaluation : Evaluation}
    (collected : collect step (item :: items) = .ok evaluation) :
    ∃ first second, step item = .ok first ∧ collect step items = .ok second ∧
      evaluation = first.append second := by
  rw [collect] at collected
  cases firstOk : step item with
  | error cause => rw [firstOk] at collected; cases collected
  | ok first =>
    cases secondOk : collect step items with
    | error cause => rw [firstOk, secondOk] at collected; cases collected
    | ok second =>
      rw [firstOk, secondOk] at collected
      cases collected
      exact ⟨first, second, rfl, rfl, rfl⟩

/-- An offense of several steps is an offense of one of them. -/
theorem mem_collect {α : Type} {step : α → Except Overflow Evaluation} {items : List α}
    {evaluation : Evaluation} {offense : Offense}
    (collected : collect step items = .ok evaluation) (member : offense ∈ evaluation.offenses) :
    ∃ item ∈ items, ∃ part, step item = .ok part ∧ offense ∈ part.offenses := by
  induction items generalizing evaluation with
  | nil =>
    cases collected
    cases member
  | cons item items ih =>
    obtain ⟨first, second, firstOk, secondOk, rfl⟩ := collect_cons_eq_ok collected
    rcases List.mem_append.mp member with here | later
    · exact ⟨item, List.mem_cons_self, first, firstOk, here⟩
    · obtain ⟨other, otherMember, found⟩ := ih secondOk later
      exact ⟨other, List.mem_cons_of_mem _ otherMember, found⟩

/-! ### Offenses and the reports behind them -/

/-- **What becomes of a reported offense**: it stays, perhaps with another severity, or the warning
about a missing reason takes its place. -/
theorem mem_settle {evaluator : Evaluator} {directives : Directives} {rule : Rule}
    {reported offense : Offense} (member : offense ∈ evaluator.settle directives rule reported) :
    offense = missingReason rule reported.location ∨
      ∃ severity, offense = { reported with severity := severity } := by
  unfold settle at member
  split at member
  next reason =>
    split at member
    next => exact Or.inl (List.mem_singleton.mp member)
    next => cases member
  next =>
    split at member
    next severity _ => exact Or.inr ⟨severity, List.mem_singleton.mp member⟩
    next => exact Or.inr ⟨reported.severity, List.mem_singleton.mp member⟩

/-- An offense of a look at a node has been reported by the rule. -/
theorem mem_look {evaluator : Evaluator} {file : SourceFile} {directives : Directives}
    {visit : Visit} {rule : Rule} {part : Evaluation} {offense : Offense}
    (looked : evaluator.look file directives visit rule = .ok part)
    (member : offense ∈ part.offenses) :
    ∃ found, rule.check ⟨file, visit.ancestors⟩ visit.node = .offenses found ∧
      ∃ reported ∈ found, offense ∈ evaluator.settle directives rule reported := by
  have failed : ∀ message, fail file rule visit.node message = .ok part → False := by
    intro message failing
    unfold fail at failing
    cases place : file.location visit.node.span with
    | error cause => rw [place] at failing; cases failing
    | ok location =>
      rw [place] at failing
      cases failing
      cases member
  unfold look at looked
  split at looked
  next found checked =>
    cases looked
    exact ⟨found, checked, List.mem_flatMap.mp member⟩
  next reason checked => exact (failed _ looked).elim
  next message checked => exact (failed _ looked).elim

/-- **Behind every offense of an evaluation stands the report of a rule of the collection on a node
of the tree.** -/
theorem offense_origin {evaluator : Evaluator} {file : SourceFile} {root : Node}
    {evaluation : Evaluation} {offense : Offense}
    (evaluated : evaluator.evaluate file root = .ok evaluation)
    (member : offense ∈ evaluation.offenses) :
    ∃ rule ∈ evaluator.registry.rules, ∃ visit ∈ Visit.all root, ∃ found,
      rule.check ⟨file, visit.ancestors⟩ visit.node = .offenses found ∧
      ∃ reported ∈ found,
        offense ∈ evaluator.settle (Directives.scan file.content) rule reported := by
  unfold evaluate at evaluated
  simp only at evaluated
  split at evaluated
  next =>
    cases evaluated
    cases member
  next =>
    cases collected : collect (fun visit : Visit =>
        collect (evaluator.look file (Directives.scan file.content) visit)
          (evaluator.rulesAt ((evaluator.activeRules file).map (·.name)) visit.node))
        (Visit.all root) with
    | error cause => rw [collected] at evaluated; cases evaluated
    | ok all =>
      rw [collected] at evaluated
      cases evaluated
      obtain ⟨visit, visitMember, part, partOk, partMember⟩ :=
        mem_collect collected (List.mem_mergeSort.mp member)
      obtain ⟨rule, ruleMember, piece, looked, pieceMember⟩ := mem_collect partOk partMember
      have ruleKnown : rule ∈ evaluator.registry.rules :=
        Registry.mem_of_mem_rulesFor (List.mem_filter.mp ruleMember).1
      exact ⟨rule, ruleKnown, visit, visitMember, mem_look looked pieceMember⟩

/-! ### When there is an outcome -/

theorem look_isOk {evaluator : Evaluator} {file : SourceFile} {directives : Directives}
    {visit : Visit} {rule : Rule} (ordered : visit.node.span.IsOrdered)
    (small : visit.node.span.start < maxWord) :
    ∃ part, evaluator.look file directives visit rule = .ok part := by
  obtain ⟨location, placed⟩ := file.location_isOk ordered small
  unfold look
  split
  next => exact ⟨_, rfl⟩
  next => exact ⟨_, by rw [fail, placed]; rfl⟩
  next => exact ⟨_, by rw [fail, placed]; rfl⟩

/-- **An evaluation has an outcome** if the ranges of the nodes have places, whatever the rules
do. -/
theorem evaluate_isOk (evaluator : Evaluator) (file : SourceFile) {root : Node}
    (placed : ∀ visit ∈ Visit.all root,
      visit.node.span.IsOrdered ∧ visit.node.span.start < maxWord) :
    ∃ evaluation, evaluator.evaluate file root = .ok evaluation := by
  have each : ∀ visit ∈ Visit.all root, ∃ part,
      collect (evaluator.look file (Directives.scan file.content) visit)
        (evaluator.rulesAt ((evaluator.activeRules file).map (·.name)) visit.node) = .ok part :=
    fun visit member => collect_isOk fun rule _ =>
      look_isOk (placed visit member).1 (placed visit member).2
  obtain ⟨all, collected⟩ := collect_isOk each
  unfold evaluate
  simp only
  split
  next => exact ⟨{}, rfl⟩
  next =>
    rw [collected]
    exact ⟨_, rfl⟩

end Evaluator

end RecipeLint
