/-
**What an evaluation comes to, node by node and rule by rule.**

An evaluation is told here without machine words, without an index of rules and without a list of
directives: every node in the order of the walk is shown to every rule of the collection that names
its kind and runs on the file. A look that fails is noted at the place of the node; an offense is
dropped, replaced by a warning or kept, as the directive on its line or the line above says; at the
end the offenses are put in the order of their places.

* `SourceFile.place`, `SourceFile.Places` — the place of a range, and when machine words hold it.
* `Evaluator.reference` — the outcome, told in this way.
* `Evaluator.evaluate_eq_ok` — an evaluation returns this outcome if machine words hold the places
  of the nodes.
* `Evaluator.evaluate_meets_reference` — the same with the order of the nodes and of the offenses.
* `Sample.evaluate_without_outcome` — without the condition on places there may be no outcome.
-/

import RecipeLint.Proofs.Directive.Nearest
import RecipeLint.Proofs.Evaluation.Order
import RecipeLint.Proofs.Node.Nesting
import RecipeLint.Proofs.Registry.Index

namespace RecipeLint

/-! ### Places -/

namespace SourceFile

/-- The column of a position, from zero. -/
def columnBefore (file : SourceFile) (offset : Nat) : Nat :=
  match Text.slice? file.content (file.lineStart offset).2 offset with
  | some before => before.length
  | none => offset - (file.lineStart offset).2

/-- The place of a range, in unbounded arithmetic. -/
def place (file : SourceFile) (span : Span) : Location where
  file := file.relativePath
  line := (file.lineStart span.start).1 + 1
  column := file.columnBefore span.start + 1
  offset := span.start
  length := span.stop - span.start

/-- **Machine words hold the place of a range**: it does not end before it starts, and the number of
bytes from the start of its line to its own start is below the largest word. -/
def Places (file : SourceFile) (span : Span) : Prop :=
  span.start ≤ span.stop ∧ span.start < (file.lineStart span.start).2 + maxWord

instance (file : SourceFile) (span : Span) : Decidable (file.Places span) :=
  inferInstanceAs (Decidable (_ ∧ _))

/-- A column counts no more than the bytes since the start of the line. -/
theorem columnBefore_le (file : SourceFile) (offset : Nat) :
    file.columnBefore offset ≤ offset - (file.lineStart offset).2 := by
  unfold columnBefore
  split
  next before slice =>
    rw [← (Text.size_of_slice? slice).2]
    exact Text.length_le_size before
  next => exact Nat.le_refl _

theorem location_eq_place {file : SourceFile} {span : Span} (placed : file.Places span) :
    file.location span = .ok (file.place span) := by
  have small := file.columnBefore_le span.start
  have column : addWords (file.columnBefore span.start) 1 =
      .ok (file.columnBefore span.start + 1) := by
    have positive : 0 < maxWord := by decide
    exact if_pos (by have := placed.2; omega)
  have lineColumn : file.lineColumn span.start =
      .ok ((file.lineStart span.start).1 + 1, file.columnBefore span.start + 1) := by
    show (do return ((file.lineStart span.start).1 + 1,
      ← addWords (file.columnBefore span.start) 1)) = _
    rw [column]
    rfl
  have length : span.length = .ok (span.stop - span.start) := if_pos placed.1
  rw [location, lineColumn, length]
  rfl

/-- In a small text all parts have their places. -/
theorem places_of_cutsOut {file : SourceFile} (small : Text.size file.content < maxWord)
    {span : Span} (cuts : span.CutsOut file.content) : file.Places span := by
  have bound := cuts.stop_le
  have ordered := cuts.isOrdered
  unfold Span.IsOrdered at ordered
  exact ⟨ordered, by omega⟩

/-- A change at the place of a range is a change of the range. -/
theorem span_place (file : SourceFile) {span : Span} (ordered : span.IsOrdered) (text : String) :
    (Correction.mk (file.place span) text).span = span :=
  congrArg (Span.mk _) (Nat.add_sub_cancel' ordered)

theorem span_insert_place (file : SourceFile) (position : Nat) (text : String) :
    (Correction.insert (file.place (.empty position)) text).span = .empty position :=
  rfl

end SourceFile

/-! ### The outcome, told again -/

namespace Evaluation

/-- Several outcomes, one after the other. -/
def join (parts : List Evaluation) : Evaluation :=
  ⟨parts.flatMap (·.offenses), parts.flatMap (·.failures)⟩

/-- An outcome with the offenses in the order of their places. -/
def sorted (evaluation : Evaluation) : Evaluation :=
  { evaluation with offenses := evaluation.offenses.mergeSort Evaluator.startsNoLater }

theorem join_flatMap {α : Type} (items : List α) (parts : α → List Evaluation) :
    join (items.map fun item => join (parts item)) = join (items.flatMap parts) := by
  unfold join
  rw [List.flatMap_map, List.flatMap_map, List.flatMap_assoc, List.flatMap_assoc]

end Evaluation

namespace Evaluator

/-- The rules that a node is shown to: in the order in which they were added, those that name its
kind and run on the file. -/
def concerned (evaluator : Evaluator) (file : SourceFile) (node : Node) : List Rule :=
  evaluator.registry.rules.filter fun rule =>
    decide (node.tag ∈ rule.tags) && evaluator.isActive file rule

/-- What becomes of an offense that a rule reported. A directive that allows it drops it or, if the
rule insists on a reason and there is none, puts a warning in its place; otherwise it gets the
severity that the settings give the rule. -/
def judge (evaluator : Evaluator) (file : SourceFile) (rule : Rule) (offense : Offense) :
    List Offense :=
  match Directive.allowing? file.content offense.location.line rule.name rule.code with
  | some directive =>
    if rule.requiresReason && directive.reason.isNone then [missingReason rule offense.location]
    else []
  | none =>
    [{ offense with
      severity := (evaluator.settings.severity? rule.name rule.code).getD offense.severity }]

/-- What comes of showing a node to a rule: offenses, or one failure at the place of the node. -/
def showing (evaluator : Evaluator) (file : SourceFile) (visit : Visit) (rule : Rule) :
    Evaluation :=
  match rule.check ⟨file, visit.ancestors⟩ visit.node with
  | .offenses found => { offenses := found.flatMap (evaluator.judge file rule) }
  | .refused reason => { failures := [⟨rule.name, file.place visit.node.span, reason⟩] }
  | .crashed message =>
    { failures := [⟨rule.name, file.place visit.node.span, crashText message⟩] }

/-- What comes of a tree before anything is sorted: node by node, and rule by rule at each. -/
def findings (evaluator : Evaluator) (file : SourceFile) (root : Node) : Evaluation :=
  .join ((Visit.all root).flatMap fun visit =>
    (evaluator.concerned file visit.node).map (evaluator.showing file visit))

/-- **The outcome of an evaluation**: all that is found, the offenses in the order of their
places. -/
def reference (evaluator : Evaluator) (file : SourceFile) (root : Node) : Evaluation :=
  (evaluator.findings file root).sorted

variable {evaluator : Evaluator} {file : SourceFile}

/-! ### Steps -/

/-- A collection in which a name stands for one rule shows a node to those rules that name its kind
and run. -/
theorem rulesAt_eq_concerned (built : evaluator.registry.Built) (node : Node) :
    evaluator.rulesAt ((evaluator.activeRules file).map (·.name)) node =
      evaluator.concerned file node := by
  have active : ∀ rule ∈ evaluator.registry.rules,
      ((evaluator.activeRules file).map (·.name)).contains rule.name =
        evaluator.isActive file rule := by
    intro rule member
    rw [Bool.eq_iff_iff, List.contains_iff_mem, List.mem_map]
    constructor
    · rintro ⟨other, otherActive, same⟩
      obtain ⟨otherMember, runs⟩ := List.mem_filter.mp otherActive
      rwa [← built.eq_of_name_eq otherMember member same]
    · intro runs
      exact ⟨rule, List.mem_filter.mpr ⟨member, runs⟩, rfl⟩
  rw [rulesAt, built.rulesFor_eq, List.filter_filter, concerned]
  refine List.filter_congr fun rule member => ?_
  rw [active rule member, Bool.and_comm]

theorem settle_eq_judge (rule : Rule) (offense : Offense) :
    evaluator.settle (Directives.scan file.content) rule offense =
      evaluator.judge file rule offense := by
  unfold settle judge
  rw [Directives.check_scan]
  cases Directive.allowing? file.content offense.location.line rule.name rule.code with
  | some directive => rfl
  | none => cases evaluator.settings.severity? rule.name rule.code <;> rfl

/-- Showing a node to a rule has an outcome if the look ends with offenses. -/
theorem look_eq_showing_of_offenses {visit : Visit} {rule : Rule} {found : List Offense}
    (checked : rule.check ⟨file, visit.ancestors⟩ visit.node = .offenses found) :
    evaluator.look file (Directives.scan file.content) visit rule =
      .ok (evaluator.showing file visit rule) := by
  have settled : evaluator.settle (Directives.scan file.content) rule =
      evaluator.judge file rule := funext (settle_eq_judge rule)
  rw [look, showing, checked, settled]

/-- Showing a node to a rule has an outcome, even if the look fails. -/
theorem look_eq_showing {visit : Visit} (rule : Rule) (placed : file.Places visit.node.span) :
    evaluator.look file (Directives.scan file.content) visit rule =
      .ok (evaluator.showing file visit rule) := by
  have failed : ∀ message, fail file rule visit.node message =
      .ok { failures := [⟨rule.name, file.place visit.node.span, message⟩] } := by
    intro message
    rw [fail, SourceFile.location_eq_place placed]
    rfl
  cases checked : rule.check ⟨file, visit.ancestors⟩ visit.node with
  | offenses found => exact look_eq_showing_of_offenses checked
  | refused reason =>
    rw [look, showing, checked]
    exact failed reason
  | crashed message =>
    rw [look, showing, checked]
    exact failed (crashText message)

/-! ### Runs -/

/-- If every step has an outcome, all steps together come to all outcomes together. -/
theorem collect_eq_join {α : Type} {step : α → Except Overflow Evaluation}
    {part : α → Evaluation} {items : List α}
    (each : ∀ item ∈ items, step item = .ok (part item)) :
    collect step items = .ok (.join (items.map part)) := by
  induction items with
  | nil => rfl
  | cons item items ih =>
    rw [collect, each item List.mem_cons_self,
      ih fun other member => each other (List.mem_cons_of_mem _ member)]
    rfl

/-- All looks at a tree, before anything is sorted. -/
def sweep (evaluator : Evaluator) (file : SourceFile) (root : Node) : Except Overflow Evaluation :=
  collect (fun visit : Visit =>
      collect (evaluator.look file (Directives.scan file.content) visit)
        (evaluator.rulesAt ((evaluator.activeRules file).map (·.name)) visit.node))
    (Visit.all root)

/-- An evaluation sorts what the looks come to. That it stops at once where no rule runs makes no
difference, since no node is shown to anyone then. -/
theorem evaluate_eq_map_sweep (evaluator : Evaluator) (file : SourceFile) (root : Node) :
    evaluator.evaluate file root = (evaluator.sweep file root).map Evaluation.sorted := by
  unfold evaluate
  simp only
  split
  next inactive =>
    rw [List.isEmpty_iff] at inactive
    have nobody : ∀ visit ∈ Visit.all root,
        collect (evaluator.look file (Directives.scan file.content) visit)
          (evaluator.rulesAt ((evaluator.activeRules file).map (·.name)) visit.node) = .ok {} := by
      intro visit _
      have none : evaluator.rulesAt ((evaluator.activeRules file).map (·.name)) visit.node = [] :=
        List.filter_eq_nil_iff.mpr fun rule _ => by simp [inactive]
      rw [none]
      rfl
    have nothing : Evaluation.join ((Visit.all root).map fun _ => {}) = {} := by
      simp [Evaluation.join]
    rw [sweep, collect_eq_join nobody, nothing]
    simp [Except.map, Evaluation.sorted, pure, Except.pure]
  next =>
    show (evaluator.sweep file root).bind (fun found => .ok found.sorted) = _
    cases evaluator.sweep file root <;> rfl

/-- An evaluation returns its outcome if every look does. -/
theorem evaluate_eq_ok_of_looks (built : evaluator.registry.Built) {root : Node}
    (shows : ∀ visit ∈ Visit.all root, ∀ rule ∈ evaluator.concerned file visit.node,
      evaluator.look file (Directives.scan file.content) visit rule =
        .ok (evaluator.showing file visit rule)) :
    evaluator.evaluate file root = .ok (evaluator.reference file root) := by
  have shown : ∀ visit ∈ Visit.all root,
      collect (evaluator.look file (Directives.scan file.content) visit)
          (evaluator.rulesAt ((evaluator.activeRules file).map (·.name)) visit.node) =
        .ok (.join ((evaluator.concerned file visit.node).map (evaluator.showing file visit))) := by
    intro visit member
    rw [rulesAt_eq_concerned built]
    exact collect_eq_join (shows visit member)
  have swept : evaluator.sweep file root = .ok (evaluator.findings file root) := by
    rw [sweep, collect_eq_join shown, Evaluation.join_flatMap]
    rfl
  rw [evaluate_eq_map_sweep, swept]
  rfl

/-- **An evaluation returns its outcome, whatever the rules do**, if machine words hold the places
of the nodes. -/
theorem evaluate_eq_ok (built : evaluator.registry.Built) {root : Node}
    (placed : ∀ node ∈ root.walk, file.Places node.span) :
    evaluator.evaluate file root = .ok (evaluator.reference file root) :=
  evaluate_eq_ok_of_looks built fun _ member rule _ =>
    look_eq_showing rule (placed _ (Visit.node_mem_walk member))

/-- **An evaluation returns, and its outcome is the one that is told node by node and rule by
rule.** The nodes come in the order of the walk, and the offenses are sorted stably by their
places. -/
theorem evaluate_meets_reference (evaluator : Evaluator) (file : SourceFile) (root : Node)
    (built : evaluator.registry.Built) (placed : ∀ node ∈ root.walk, file.Places node.span) :
    evaluator.evaluate file root = .ok (evaluator.reference file root) ∧
      (Visit.all root).map (·.node) = root.walk ∧
      StablySorted (evaluator.findings file root).offenses
        (evaluator.reference file root).offenses :=
  ⟨evaluate_eq_ok built placed, Visit.map_node_all root, stablySorted_mergeSort _⟩

end Evaluator

/-! ### Samples -/

namespace Sample

/-- The rule against comments, which insists on a reason if one is allowed. -/
def noComments : Rule where
  name := "no-comments"
  code := "NC"
  severity := .error
  tags := [.comment, .comment]
  check := fun context node =>
    .ofExcept (do return [← (⟨"no-comments", "NC", .error⟩ : RuleIdentity).offense context.file
      node.span "comment"])

/-- The rule that never can tell. -/
def helpless : Rule where
  name := "helpless"
  code := "HL"
  tags := [.program]
  check := fun _ _ => .refused "no idea"

/-- The rule that breaks off, for a newer version of the platform. -/
def future : Rule where
  name := "future"
  code := "FU"
  tags := [.comment]
  minimumVersion := some ⟨15, 0, 0⟩
  check := fun _ _ => .crashed none

/-- The collection of the three rules. -/
def trio : Registry :=
  match Registry.ofRules [noComments, helpless, future] with
  | .ok registry => registry
  | .error _ => .empty

theorem trio_built : trio.Built := by
  have added : Registry.ofRules [noComments, helpless, future] = .ok trio := rfl
  exact Registry.built_of_ofRules added

/-- The evaluator with the three rules, for an older version of the platform, with a mild severity
for comments. -/
def reviewer : Evaluator where
  registry := trio
  settings := { rules := [("NC", { severity := some .refactor })] }
  target := some ⟨14, 0, 0⟩

/-- A file with three comments, the first of which is a directive without a reason. -/
def remarkFile : SourceFile where
  path := "/a.rb"
  content := "# cookbook-lint: allow(NC)\n# a\n# b\n".toList
  relativePath := "a.rb"
  year := 2024

/-- The tree with the last two comments. -/
def remarks : Node :=
  ⟨.program, ⟨0, 35⟩, [.leaf (.comment "# a") ⟨27, 30⟩, .leaf (.comment "# b") ⟨31, 34⟩]⟩

/-- A warning in place of the first offense, the second one with another severity, and the failure
of the rule that cannot tell. -/
def remarkOutcome : Evaluation where
  offenses :=
    [Evaluator.missingReason noComments ⟨"a.rb", 2, 1, 27, 3⟩,
      { code := "NC", rule := "no-comments", severity := .refactor
        location := ⟨"a.rb", 3, 1, 31, 3⟩, message := "comment" }]
  failures := [⟨"helpless", ⟨"a.rb", 1, 1, 0, 35⟩, "no idea"⟩]

/-- The directive, the settings and a look that fails show in the outcome; the rule for a newer
version does not. -/
theorem evaluate_remarks :
    trio.Built ∧ (∀ node ∈ remarks.walk, remarkFile.Places node.span) ∧
      reviewer.evaluate remarkFile remarks = .ok remarkOutcome := by
  have placed : ∀ node ∈ remarks.walk, remarkFile.Places node.span := by
    rw [Node.walk_eq_preorder]
    decide +kernel
  have found : reviewer.findings remarkFile remarks = remarkOutcome := by decide +kernel
  have sorted : remarkOutcome.offenses.mergeSort Evaluator.startsNoLater =
      remarkOutcome.offenses := List.mergeSort_of_pairwise (by decide)
  have outcome : reviewer.reference remarkFile remarks = remarkOutcome := by
    rw [Evaluator.reference, found, Evaluation.sorted, sorted]
  refine ⟨trio_built, placed, ?_⟩
  rw [(Evaluator.evaluate_meets_reference reviewer remarkFile remarks trio_built placed).1, outcome]

/-- A file without text. -/
def blankFile : SourceFile where
  path := "/a.rb"
  content := []
  relativePath := "a.rb"
  year := 2024

/-- The tree whose only node is empty at the largest machine word. -/
def lastNode : Node := .leaf .program (.empty maxWord)

/-- **An evaluation may have no outcome although no node ends before it starts**: the column of a
node may be one too large for a machine word. -/
theorem evaluate_without_outcome :
    trio.Built ∧ (∀ node ∈ lastNode.walk, node.span.start ≤ node.span.stop) ∧
      ∀ evaluation, reviewer.evaluate blankFile lastNode ≠ .ok evaluation := by
  have ordered : ∀ node ∈ lastNode.walk, node.span.start ≤ node.span.stop := by
    rw [Node.walk_eq_preorder]
    decide
  have nothing : (reviewer.evaluate blankFile lastNode).toOption = none := by decide +kernel
  refine ⟨trio_built, ordered, fun evaluation evaluated => ?_⟩
  rw [evaluated] at nothing
  cases nothing

end Sample

end RecipeLint
