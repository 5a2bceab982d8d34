/-
**Rules do not interfere with each other.**

Two evaluators over one collection are compared on one tree. If the rules that run for the one also
run for the other, with the same severities, then the one finds what the other finds, less what is
signed by rules that do not run for it. The order is the same, and it makes no difference whether
the further rules report something, cannot tell or break off.

* `Rule.SignsOffenses` — the offenses of a rule bear its name.
* `Evaluation.only` — an outcome without what is signed by other rules.
* `Evaluator.collect_only` — the steps of the one evaluator are some of the steps of the other.
* `Evaluator.evaluate_only` — the outcome of the one evaluator from that of the other.
* `Sample.narrow_outcome_alone` — where the place of a node is too large for machine words, a
  further rule that fails leaves the other evaluator without an outcome.
-/

import RecipeLint.Proofs.Evaluation.Origin
import RecipeLint.Proofs.Evaluation.Reference

namespace RecipeLint

/-- The offenses of a rule bear its name. -/
def Rule.SignsOffenses (rule : Rule) : Prop :=
  ∀ context node found, rule.check context node = .offenses found →
    ∀ offense ∈ found, offense.rule = rule.name

/-! ### Outcomes by their signatures -/

namespace Evaluation

/-- What is signed by rules of some names, in its order. -/
def only (names : List String) (evaluation : Evaluation) : Evaluation where
  offenses := evaluation.offenses.filter fun offense => names.contains offense.rule
  failures := evaluation.failures.filter fun failure => names.contains failure.rule

/-- All of an outcome is signed by one rule. -/
structure SignedBy (evaluation : Evaluation) (name : String) : Prop where
  offenses : ∀ offense ∈ evaluation.offenses, offense.rule = name
  failures : ∀ failure ∈ evaluation.failures, failure.rule = name

variable {names : List String} {evaluation : Evaluation} {name : String}

theorem only_append (first second : Evaluation) :
    (first.append second).only names = (first.only names).append (second.only names) := by
  simp only [only, append, List.filter_append]

theorem SignedBy.only_of_mem (signed : evaluation.SignedBy name) (member : name ∈ names) :
    evaluation.only names = evaluation := by
  have offenses : evaluation.offenses.filter (fun offense => names.contains offense.rule) =
      evaluation.offenses := List.filter_eq_self.mpr fun offense found => by
    rw [signed.offenses offense found]
    exact List.contains_iff_mem.mpr member
  have failures : evaluation.failures.filter (fun failure => names.contains failure.rule) =
      evaluation.failures := List.filter_eq_self.mpr fun failure found => by
    rw [signed.failures failure found]
    exact List.contains_iff_mem.mpr member
  rw [only, offenses, failures]

theorem SignedBy.only_of_not_mem (signed : evaluation.SignedBy name) (absent : name ∉ names) :
    evaluation.only names = {} := by
  have offenses : evaluation.offenses.filter (fun offense => names.contains offense.rule) = [] :=
    List.filter_eq_nil_iff.mpr fun offense found listed => by
      rw [signed.offenses offense found] at listed
      exact absent (List.contains_iff_mem.mp listed)
  have failures : evaluation.failures.filter (fun failure => names.contains failure.rule) = [] :=
    List.filter_eq_nil_iff.mpr fun failure found listed => by
      rw [signed.failures failure found] at listed
      exact absent (List.contains_iff_mem.mp listed)
  rw [only, offenses, failures]

/-- What is left out may be left out before or after the offenses are sorted. -/
theorem sorted_only (names : List String) (evaluation : Evaluation) :
    evaluation.sorted.only names = (evaluation.only names).sorted := by
  simp only [only, sorted,
    filter_mergeSort Evaluator.startsNoLater_trans Evaluator.startsNoLater_total]

end Evaluation

namespace Evaluator

variable {evaluator : Evaluator} {file : SourceFile} {directives : Directives}

/-! ### One look -/

/-- **What comes of a look at a node is signed by the rule**, be it offenses, warnings in their
place, or a failure. -/
theorem look_signedBy {visit : Visit} {rule : Rule} {part : Evaluation}
    (signs : rule.SignsOffenses) (looked : evaluator.look file directives visit rule = .ok part) :
    part.SignedBy rule.name := by
  constructor
  · intro offense member
    obtain ⟨found, checked, reported, reportedMember, settled⟩ := mem_look looked member
    rcases mem_settle settled with rfl | ⟨severity, rfl⟩
    · rfl
    · exact signs _ _ _ checked reported reportedMember
  · have failed : ∀ message, fail file rule visit.node message = .ok part →
        ∀ failure ∈ part.failures, failure.rule = rule.name := by
      intro message failing failure member
      unfold fail at failing
      cases place : file.location visit.node.span with
      | error cause => rw [place] at failing; cases failing
      | ok location =>
        rw [place] at failing
        cases failing
        rw [List.mem_singleton.mp member]
    unfold look at looked
    split at looked
    next found checked =>
      cases looked
      exact fun failure member => (List.not_mem_nil member).elim
    next reason checked => exact failed _ looked
    next message checked => exact failed _ looked

/-- Of an evaluator, a look at a node depends on the severity of the rule only. -/
theorem look_congr {narrow wide : Evaluator} {visit : Visit} {rule : Rule}
    (agree : narrow.settings.severity? rule.name rule.code =
      wide.settings.severity? rule.name rule.code) :
    narrow.look file directives visit rule = wide.look file directives visit rule := by
  have settled : narrow.settle directives rule = wide.settle directives rule := by
    funext offense
    unfold settle
    rw [agree]
  unfold look
  rw [settled]

/-! ### All looks -/

/-- **Some steps of many.** If the steps that are kept come to what is signed by some names, and the
others to nothing of it, then the kept steps together come to what all steps come to, less all that
is signed by others. -/
theorem collect_only {α : Type} {wide narrow : α → Except Overflow Evaluation}
    {names : List String} (kept : α → Bool) {items : List α}
    (same : ∀ item ∈ items, kept item = true → ∀ part, wide item = .ok part →
      narrow item = .ok (part.only names))
    (other : ∀ item ∈ items, kept item = false → ∀ part, wide item = .ok part →
      part.only names = {})
    {all : Evaluation} (collected : collect wide items = .ok all) :
    collect narrow (items.filter kept) = .ok (all.only names) := by
  induction items generalizing all with
  | nil =>
    cases collected
    rfl
  | cons item items ih =>
    obtain ⟨first, second, firstOk, secondOk, rfl⟩ := collect_cons_eq_ok collected
    have rest := ih (fun item member => same item (List.mem_cons_of_mem _ member))
      (fun item member => other item (List.mem_cons_of_mem _ member)) secondOk
    rw [Evaluation.only_append]
    cases keep : kept item with
    | true =>
      rw [List.filter_cons_of_pos keep, collect, same item List.mem_cons_self keep first firstOk,
        rest]
      rfl
    | false =>
      have drop : ¬ kept item = true := by rw [keep]; exact Bool.false_ne_true
      rw [List.filter_cons_of_neg drop, rest, other item List.mem_cons_self keep first firstOk]
      rfl

/-- The rules that a node is shown to by the evaluator for which fewer rules run. -/
theorem rulesAt_filter {narrow wide : Evaluator} (same : narrow.registry = wide.registry)
    {fewer more : List String} (subset : ∀ name ∈ fewer, name ∈ more) (node : Node) :
    narrow.rulesAt fewer node =
      (wide.rulesAt more node).filter fun rule => fewer.contains rule.name := by
  rw [rulesAt, rulesAt, List.filter_filter, same]
  refine List.filter_congr fun rule _ => ?_
  cases listed : fewer.contains rule.name with
  | false => rw [Bool.false_and]
  | true =>
    have known := subset rule.name (List.contains_iff_mem.mp listed)
    rw [List.contains_iff_mem.mpr known, Bool.true_and]

/-- All looks of the evaluator for which fewer rules run, from those of the other one. At each node
its rules are some of the other's, and all that a rule leaves behind bears its name. -/
theorem sweep_only {narrow wide : Evaluator} (same : narrow.registry = wide.registry)
    (built : wide.registry.Built) (signed : ∀ rule ∈ wide.registry.rules, rule.SignsOffenses)
    (fewer : ∀ rule ∈ narrow.activeRules file, rule ∈ wide.activeRules file)
    (agree : ∀ rule ∈ narrow.activeRules file,
      narrow.settings.severity? rule.name rule.code = wide.settings.severity? rule.name rule.code)
    {root : Node} {all : Evaluation} (swept : wide.sweep file root = .ok all) :
    narrow.sweep file root = .ok (all.only ((narrow.activeRules file).map (·.name))) := by
  have subset : ∀ name ∈ (narrow.activeRules file).map (·.name),
      name ∈ (wide.activeRules file).map (·.name) := by
    intro name member
    obtain ⟨rule, active, rfl⟩ := List.mem_map.mp member
    exact List.mem_map_of_mem (fewer rule active)
  have agrees : ∀ rule ∈ wide.registry.rules,
      rule.name ∈ (narrow.activeRules file).map (·.name) →
        narrow.settings.severity? rule.name rule.code =
          wide.settings.severity? rule.name rule.code := by
    intro rule known listed
    obtain ⟨active, activeMember, sameName⟩ := List.mem_map.mp listed
    have activeKnown := (List.mem_filter.mp (fewer active activeMember)).1
    rw [← built.eq_of_name_eq activeKnown known sameName]
    exact agree active activeMember
  have atNode : ∀ visit ∈ Visit.all root, ∀ part,
      collect (wide.look file (Directives.scan file.content) visit)
          (wide.rulesAt ((wide.activeRules file).map (·.name)) visit.node) = .ok part →
        collect (narrow.look file (Directives.scan file.content) visit)
            (narrow.rulesAt ((narrow.activeRules file).map (·.name)) visit.node) =
          .ok (part.only ((narrow.activeRules file).map (·.name))) := by
    intro visit _ part looked
    have known : ∀ rule ∈ wide.rulesAt ((wide.activeRules file).map (·.name)) visit.node,
        rule ∈ wide.registry.rules := fun rule member =>
      Registry.mem_of_mem_rulesFor (List.mem_filter.mp member).1
    rw [rulesAt_filter same subset]
    refine collect_only _ (fun rule member listed piece pieceOk => ?_)
      (fun rule member unlisted piece pieceOk => ?_) looked
    · have name := List.contains_iff_mem.mp listed
      rw [look_congr (agrees rule (known rule member) name), pieceOk,
        (look_signedBy (signed rule (known rule member)) pieceOk).only_of_mem name]
    · refine (look_signedBy (signed rule (known rule member)) pieceOk).only_of_not_mem ?_
      intro name
      cases unlisted.symm.trans (List.contains_iff_mem.mpr name)
  -- no node is left out, only rules at the nodes
  have everything := collect_only (fun _ => true) (fun visit member _ => atNode visit member)
    (fun visit _ impossible => by cases impossible) swept
  rwa [List.filter_eq_self.mpr fun _ _ => rfl] at everything

/-- **Rules do not interfere.** Whenever the evaluator for which more rules run has an outcome, the
other one has it too, less what is signed by rules that do not run for it; and it has one if machine
words hold the places of the nodes, whatever the further rules do. -/
theorem evaluate_only (narrow wide : Evaluator) (file : SourceFile) (root : Node)
    (same : narrow.registry = wide.registry) (built : wide.registry.Built)
    (signed : ∀ rule ∈ wide.registry.rules, rule.SignsOffenses)
    (fewer : ∀ rule ∈ narrow.activeRules file, rule ∈ wide.activeRules file)
    (agree : ∀ rule ∈ narrow.activeRules file,
      narrow.settings.severity? rule.name rule.code =
        wide.settings.severity? rule.name rule.code) :
    (∀ all, wide.evaluate file root = .ok all →
        narrow.evaluate file root =
          .ok (all.only ((narrow.activeRules file).map (·.name)))) ∧
      ((∀ node ∈ root.walk, file.Places node.span) →
        ∃ all, wide.evaluate file root = .ok all) := by
  refine ⟨fun all evaluated => ?_, fun placed => ⟨_, evaluate_eq_ok built placed⟩⟩
  rw [evaluate_eq_map_sweep] at evaluated ⊢
  cases swept : wide.sweep file root with
  | error cause =>
    rw [swept] at evaluated
    cases evaluated
  | ok found =>
    rw [swept] at evaluated
    cases evaluated
    rw [sweep_only same built signed fewer agree swept]
    exact congrArg Except.ok (Evaluation.sorted_only _ found).symm

end Evaluator

/-! ### Samples -/

namespace Sample

theorem trio_signsOffenses : ∀ rule ∈ trio.rules, rule.SignsOffenses := by
  have members : trio.rules = [noComments, helpless, future] := rfl
  intro rule member context node found checked offense reported
  rw [members, List.mem_cons, List.mem_cons, List.mem_singleton] at member
  rcases member with rfl | rfl | rfl
  · simp only [noComments, RuleIdentity.offense] at checked
    cases placed : context.file.location node.span with
    | error cause => rw [placed] at checked; cases checked
    | ok location =>
      rw [placed] at checked
      cases checked
      rw [List.mem_singleton.mp reported]
      rfl
  · cases checked
  · cases checked

/-- The evaluator for which all three rules run. -/
def openReviewer : Evaluator := { reviewer with target := none }

/-- The evaluator for which the rule against comments alone runs. -/
def calmReviewer : Evaluator where
  registry := trio
  settings := { rules := [("NC", { severity := some .refactor }),
    ("helpless", { enabled := some false })] }
  target := some ⟨14, 0, 0⟩

theorem calm_activeRules (file : SourceFile) : calmReviewer.activeRules file = [noComments] := rfl

theorem open_activeRules (file : SourceFile) : openReviewer.activeRules file = trio.rules := rfl

/-- The rule against comments runs for both, with one severity. -/
theorem calm_within_open (file : SourceFile) :
    (∀ rule ∈ calmReviewer.activeRules file, rule ∈ openReviewer.activeRules file) ∧
      ∀ rule ∈ calmReviewer.activeRules file,
        calmReviewer.settings.severity? rule.name rule.code =
          openReviewer.settings.severity? rule.name rule.code := by
  rw [calm_activeRules, open_activeRules]
  constructor
  · intro rule member
    rw [List.mem_singleton.mp member]
    exact List.mem_cons_self
  · intro rule member
    rw [List.mem_singleton.mp member]
    rfl

/-- One further rule cannot tell and one breaks off at both comments; the offenses are the same
without them. -/
theorem calm_evaluates_remarks :
    calmReviewer.registry = openReviewer.registry ∧ openReviewer.registry.Built ∧
      (∀ rule ∈ openReviewer.registry.rules, rule.SignsOffenses) ∧
      (∀ node ∈ remarks.walk, remarkFile.Places node.span) ∧
      ∃ all, openReviewer.evaluate remarkFile remarks = .ok all ∧ all.failures.length = 3 ∧
        calmReviewer.evaluate remarkFile remarks = .ok (all.only ["no-comments"]) := by
  have placed : ∀ node ∈ remarks.walk, remarkFile.Places node.span := by
    rw [Node.walk_eq_preorder]
    decide +kernel
  obtain ⟨fewer, agree⟩ := calm_within_open remarkFile
  obtain ⟨less, returns⟩ := Evaluator.evaluate_only calmReviewer openReviewer remarkFile remarks rfl
    trio_built trio_signsOffenses fewer agree
  obtain ⟨all, evaluated⟩ := returns placed
  have failures : all.failures.length = 3 := by
    have failed : (openReviewer.findings remarkFile remarks).failures.length = 3 := by
      decide +kernel
    have same := (Evaluator.evaluate_eq_ok trio_built placed).symm.trans evaluated
    cases same
    exact failed
  exact ⟨rfl, trio_built, trio_signsOffenses, placed, all, evaluated, failures,
    less all evaluated⟩

/-- **Where the column of a node is one too large for a machine word, rules do interfere**: a
further rule that fails there leaves its evaluator without an outcome, while the other one has
one. No node ends before it starts. -/
theorem narrow_outcome_alone :
    calmReviewer.registry = openReviewer.registry ∧ openReviewer.registry.Built ∧
      (∀ rule ∈ openReviewer.registry.rules, rule.SignsOffenses) ∧
      (∀ node ∈ lastNode.walk, node.span.start ≤ node.span.stop) ∧
      ((∀ rule ∈ calmReviewer.activeRules blankFile, rule ∈ openReviewer.activeRules blankFile) ∧
        ∀ rule ∈ calmReviewer.activeRules blankFile,
          calmReviewer.settings.severity? rule.name rule.code =
            openReviewer.settings.severity? rule.name rule.code) ∧
      calmReviewer.evaluate blankFile lastNode = .ok {} ∧
      ∀ all, openReviewer.evaluate blankFile lastNode ≠ .ok all := by
  have ordered : ∀ node ∈ lastNode.walk, node.span.start ≤ node.span.stop := by
    rw [Node.walk_eq_preorder]
    decide
  have quiet : calmReviewer.evaluate blankFile lastNode = .ok {} := by
    have swept : calmReviewer.sweep blankFile lastNode = .ok {} := rfl
    rw [Evaluator.evaluate_eq_map_sweep, swept, Except.map, Evaluation.sorted, List.mergeSort_nil]
  have nothing : (openReviewer.evaluate blankFile lastNode).toOption = none := by decide +kernel
  refine ⟨rfl, trio_built, trio_signsOffenses, ordered, calm_within_open blankFile, quiet,
    fun all evaluated => ?_⟩
  rw [evaluated] at nothing
  cases nothing

end Sample

end RecipeLint
