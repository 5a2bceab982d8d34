/-
**The rules are safe on every tree that is placed in its text.**

A rule computes places from the ranges of nodes and takes as many arguments as a call claims to
have. Neither can fail if the ranges are parts of the text and the arguments are there; how the
ranges lie to one another does not matter. So nothing that a rule reports reaches beyond the text or
into a character.

* `Node.IsPlaced` — what is asked of a node. It can be computed.
* `Rules.IsSafe` — a look has a result, and its corrections are parts of the text.
* `Rules.check_isSafe` — each of the seven rules is safe on every node.
* `Rules.evaluate_isSafe` — an evaluation by them has no failures, and whichever of its corrections
  are made, they are accepted or overlap.
-/

import RecipeLint.Proofs.Node.Walks
import RecipeLint.Proofs.Rules.Independence

namespace RecipeLint

/-! ### Nodes in their text -/

namespace Node

/-- The number of children that a call claims to have at least. -/
def claimed (node : Node) : Nat :=
  match node.kind with
  | .call _ _ hasReceiver count => hasReceiver.toNat + count
  | _ => 0

/-- **A node is placed in a text**: its range and that of its name are parts of the text, and it has
the children that it claims. The number of children is a machine word. -/
structure IsPlaced (source : List Char) (node : Node) : Prop where
  cuts : node.span.CutsOut source
  method : ∀ methodSpan ∈ node.methodSpan?, methodSpan.CutsOut source
  counted : node.claimed ≤ node.children.length
  few : node.children.length ≤ maxWord

instance (source : List Char) (node : Node) : Decidable (node.IsPlaced source) :=
  decidable_of_iff
    (node.span.CutsOut source ∧ (∀ methodSpan ∈ node.methodSpan?, methodSpan.CutsOut source) ∧
      node.claimed ≤ node.children.length ∧ node.children.length ≤ maxWord)
    ⟨fun ⟨cuts, method, counted, few⟩ => ⟨cuts, method, counted, few⟩,
      fun placed => ⟨placed.cuts, placed.method, placed.counted, placed.few⟩⟩

theorem IsPlaced.exists_arguments {source : List Char} {node : Node}
    (placed : node.IsPlaced source) : ∃ arguments, node.arguments = .ok arguments := by
  obtain ⟨-, -, counted, few⟩ := placed
  unfold Node.arguments
  split
  next method methodSpan hasReceiver count kind =>
    rw [claimed, kind] at counted
    have start : (if hasReceiver = true then 1 else 0) = hasReceiver.toNat := by
      cases hasReceiver <;> rfl
    have fits : addWords hasReceiver.toNat count = .ok (hasReceiver.toNat + count) :=
      if_pos (Nat.le_trans counted few)
    simp only [start, fits]
    exact ⟨_, if_pos counted⟩
  next => exact ⟨[], rfl⟩

theorem mem_children_of_blockCall? {node call : Node} (found : node.blockCall? = some call) :
    call ∈ node.children := by
  unfold blockCall? at found
  split at found
  next => exact List.mem_of_head? (Option.filter_eq_some_iff.mp found).1
  next => cases found

theorem mem_children_of_mem_blockBody {node statement : Node}
    (member : statement ∈ node.blockBody) : statement ∈ node.children := by
  unfold blockBody at member
  split at member
  next => exact List.mem_of_mem_drop member
  next => cases member

theorem mem_walk_of_child {root node child : Node} (inWalk : node ∈ root.walk)
    (below : child ∈ node.children) : child ∈ root.walk := by
  rw [Node.walk_eq_preorder] at inWalk ⊢
  have own : child ∈ node.preorder :=
    mem_preorder.mpr (Or.inr ⟨child, below, mem_preorder.mpr (Or.inl rfl)⟩)
  exact mem_preorder_trans root node inWalk child own

end Node

/-- There is no text in a range that ends before it starts. -/
theorem SourceFile.text_of_not_isOrdered (file : SourceFile) {span : Span}
    (reversed : ¬ span.start ≤ span.stop) : file.text span = [] := by
  have none : Text.slice? file.content span.start span.stop = none := by
    unfold Text.slice?
    rw [if_neg reversed]
  rw [text, none]
  rfl

/-! ### Rules -/

namespace Rules

/-- **A look is safe**: it has a result, and all corrections in it are parts of the text. -/
def IsSafe (source : List Char) (look : Except Overflow (List Offense)) : Prop :=
  ∃ found, look = .ok found ∧
    ∀ offense ∈ found, ∀ correction ∈ offense.corrections, correction.span.CutsOut source

section

variable {source : List Char}

theorem isSafe_nothing : IsSafe source (.ok []) :=
  ⟨[], rfl, by simp⟩

/-- A look with one report. -/
theorem isSafe_single {offense : Offense}
    (cuts : ∀ correction ∈ offense.corrections, correction.span.CutsOut source) :
    IsSafe source (.ok [offense]) :=
  ⟨[offense], rfl, List.forall_mem_singleton.mpr cuts⟩

/-- A step that has a value goes on with it. -/
theorem IsSafe.bind {α : Type} {first : Except Overflow α}
    {next : α → Except Overflow (List Offense)} {value : α} (done : first = .ok value)
    (rest : IsSafe source (next value)) : IsSafe source (first >>= next) := by
  rw [done]
  exact rest

end

section

variable {context : CheckContext} {node : Node}
  (small : Text.size context.file.content < maxWord)
  (placed : node.IsPlaced context.file.content)

include small

/-- A part of the text has a place. -/
theorem exists_location {span : Span} (cuts : span.CutsOut context.file.content) :
    ∃ location, context.file.location span = .ok location :=
  ⟨_, SourceFile.location_eq_place (SourceFile.places_of_cutsOut small cuts)⟩

include placed

/-- A report on a node without corrections. -/
theorem exists_offense (identity : RuleIdentity) (message : String) :
    ∃ plain, identity.offense context.file node.span message = .ok plain ∧
      plain.corrections = [] := by
  obtain ⟨location, found⟩ := exists_location small placed.cuts
  exact ⟨_, by rw [RuleIdentity.offense, found]; rfl, rfl⟩

/-- A look that reports the node and fixes nothing. -/
theorem isSafe_report (identity : RuleIdentity) (message : String) :
    IsSafe context.file.content (do
      return [← identity.offense context.file node.span message]) := by
  obtain ⟨plain, made, none⟩ := exists_offense small placed identity message
  exact .bind made (isSafe_single (by simp [none]))

/-- A look that reports the node and changes a range. -/
theorem isSafe_change (identity : RuleIdentity) (message hint text : String) {span : Span}
    (cuts : span.CutsOut context.file.content) :
    IsSafe context.file.content (do
      let location ← context.file.location span
      let offense ← identity.offense context.file node.span message
      return [{ offense with suggestion := some ⟨hint, [⟨location, text⟩]⟩ }]) := by
  obtain ⟨location, found⟩ := exists_location small cuts
  obtain ⟨plain, made, -⟩ := exists_offense small placed identity message
  refine .bind found (.bind made (isSafe_single (List.forall_mem_singleton.mpr ?_)))
  show location.span.CutsOut context.file.content
  rw [SourceFile.span_of_location found]
  exact cuts

theorem legacyRunner_isSafe (severity : Severity) :
    IsSafe context.file.content (LegacyRunner.offenses severity context node) := by
  unfold LegacyRunner.offenses
  split
  next => exact isSafe_change small placed _ _ _ _ placed.cuts
  next => exact isSafe_nothing

theorem copyright_isSafe : IsSafe context.file.content (Copyright.offenses context node) := by
  unfold Copyright.offenses
  split
  next => exact isSafe_change small placed _ _ _ _ placed.cuts
  next => exact isSafe_nothing

theorem providesMetadata_isSafe :
    IsSafe context.file.content (ProvidesMetadata.offenses context node) := by
  unfold ProvidesMetadata.offenses
  split
  next => exact isSafe_change small placed _ _ _ _ (spaceToLeft_cutsOut placed.cuts)
  next => exact isSafe_nothing

theorem poiseDependency_isSafe (cookbooks : List String) :
    IsSafe context.file.content (PoiseDependency.offenses cookbooks context node) := by
  obtain ⟨arguments, read⟩ := placed.exists_arguments
  unfold PoiseDependency.offenses Node.firstString?
  split
  next =>
    refine .bind read ?_
    split
    next =>
      refine .bind (by rw [read]; rfl) ?_
      split
      next =>
        split
        next => exact isSafe_report small placed _ _
        next => exact isSafe_nothing
      next => exact isSafe_nothing
    next => exact isSafe_nothing
  next => exact isSafe_nothing

omit small in
/-- Whether a node uses the vault can be told. -/
theorem exists_isVaultUse : ∃ answer, VaultUse.isVaultUse node = .ok answer := by
  obtain ⟨arguments, read⟩ := placed.exists_arguments
  unfold VaultUse.isVaultUse
  split
  next =>
    unfold VaultUse.isVaultCall
    rw [read]
    split
    next => exact ⟨_, rfl⟩
    next =>
      split
      next => exact ⟨_, rfl⟩
      next =>
        simp only [bind, Except.bind]
        split
        next => exact ⟨_, rfl⟩
        next => exact ⟨_, rfl⟩
  next => exact ⟨_, rfl⟩
  next => exact ⟨_, rfl⟩

theorem vaultUse_isSafe : IsSafe context.file.content (VaultUse.offenses context node) := by
  obtain ⟨answer, told⟩ := exists_isVaultUse placed
  refine .bind told ?_
  split
  next => exact isSafe_report small placed _ _
  next => exact isSafe_nothing

section

variable (below : ∀ child ∈ node.children, child.IsPlaced context.file.content)

include below

omit small placed in
/-- Which key a block is about can be told. -/
theorem exists_managedKey : ∃ key, RegistryUac.managedKey? node = .ok key := by
  have first (child : Node) (member : child ∈ node.children) :
      ∃ text, child.firstString? = .ok text := by
    obtain ⟨arguments, read⟩ := (below child member).exists_arguments
    exact ⟨_, by rw [Node.firstString?, read]; rfl⟩
  unfold RegistryUac.managedKey?
  split
  next => exact ⟨_, rfl⟩
  next call isCall =>
    obtain ⟨name, named⟩ := first call (Node.mem_children_of_blockCall? isCall)
    split
    next => exact ⟨_, rfl⟩
    next =>
      split
      next => exact ⟨_, named⟩
      next statement found =>
        have member := Node.mem_children_of_mem_blockBody (List.mem_of_find?_eq_some found)
        obtain ⟨key, keyed⟩ := first statement member
        rw [keyed]
        cases key with
        | none => exact ⟨_, named⟩
        | some key => exact ⟨_, rfl⟩

theorem registryUac_isSafe : IsSafe context.file.content (RegistryUac.offenses context node) := by
  obtain ⟨key, told⟩ := exists_managedKey below
  refine .bind told ?_
  split
  next =>
    split
    next => exact isSafe_report small placed _ _
    next => exact isSafe_nothing
  next => exact isSafe_nothing

omit placed below in
/-- A text can be put in wherever the text of the file can be cut. -/
theorem exists_insertion {position : Nat} (cut : (Span.empty position).CutsOut context.file.content)
    (text : String) :
    ∃ correction, ShellOut.insertion context.file position text = .ok correction ∧
      correction.span.CutsOut context.file.content := by
  obtain ⟨location, found⟩ := exists_location small cut
  have made : ShellOut.insertion context.file position text = .ok (.insert location text) := by
    rw [ShellOut.insertion, found]
    rfl
  exact ⟨_, made, ShellOut.span_of_insertion made ▸ cut⟩

/-- The option of a command can be put in, wherever its arguments and its name are. -/
theorem exists_optionFix {methodSpan : Span} (named : methodSpan.CutsOut context.file.content) :
    ∃ correction, ShellOut.optionFix context.file node methodSpan = .ok correction ∧
      correction.span.CutsOut context.file.content := by
  obtain ⟨arguments, read⟩ := placed.exists_arguments
  unfold ShellOut.optionFix
  rw [read]
  simp only [bind, Except.bind]
  split
  next last isLast =>
    have member := Node.mem_children_of_mem_arguments read (List.mem_of_getLast? isLast)
    have cuts := (below last member).cuts
    split
    next => exact exists_insertion small cuts.at_start _
    next => exact exists_insertion small cuts.at_stop _
  next =>
    split
    next opening after found =>
      refine exists_insertion small ?_ _
      by_cases ordered : methodSpan.stop ≤ node.span.stop
      · have rest := named.at_stop.between placed.cuts.at_stop ordered
        exact (ShellOut.behind_parenthesis rest found).1
      · -- The name ends behind the call, so there is no text between them.
        rw [context.file.text_of_not_isOrdered ordered] at found
        cases found
    next => exact exists_insertion small named.at_stop _

/-- A command can be fixed. -/
theorem exists_fixes (method : String) {methodSpan : Span}
    (named : methodSpan.CutsOut context.file.content) :
    ∃ corrections, ShellOut.fixes context.file node method methodSpan = .ok corrections ∧
      ∀ correction ∈ corrections, correction.span.CutsOut context.file.content := by
  obtain ⟨location, found⟩ := exists_location small named
  obtain ⟨option, made, cut⟩ := exists_optionFix small placed below named
  have renames : (⟨location, ShellOut.replacement method⟩ : Correction).span.CutsOut
      context.file.content := by
    show location.span.CutsOut context.file.content
    rw [SourceFile.span_of_location found]
    exact named
  unfold ShellOut.fixes
  rw [found, made]
  simp only [bind, Except.bind]
  split
  next =>
    exact ⟨_, rfl, List.forall_mem_cons.mpr ⟨renames, List.forall_mem_singleton.mpr cut⟩⟩
  next => exact ⟨_, rfl, List.forall_mem_singleton.mpr renames⟩

theorem shellOut_isSafe : IsSafe context.file.content (ShellOut.offenses context node) := by
  obtain ⟨plain, made, -⟩ := exists_offense small placed ShellOut.identity ShellOut.message
  unfold ShellOut.offenses
  split
  next method methodSpan hasReceiver count kind =>
    have spanned : node.methodSpan? = some methodSpan := by rw [Node.methodSpan?, kind]
    have named := placed.method methodSpan spanned
    split
    next =>
      obtain ⟨corrections, fixed, cuts⟩ := exists_fixes small placed below method named
      exact .bind fixed (.bind made (isSafe_single cuts))
    next => exact isSafe_nothing
  next => exact isSafe_nothing

end

end

/-- **Each of the seven rules is safe on every node** that is placed in the text with its
children. -/
theorem check_isSafe {rule : Rule} (builtIn : IsBuiltIn rule) {context : CheckContext} {node : Node}
    (small : Text.size context.file.content < maxWord) (placed : node.IsPlaced context.file.content)
    (below : ∀ child ∈ node.children, child.IsPlaced context.file.content) :
    ∃ found, rule.check context node = .offenses found ∧
      ∀ offense ∈ found, ∀ correction ∈ offense.corrections,
        correction.span.CutsOut context.file.content := by
  have ends {look : Except Overflow (List Offense)} (safe : IsSafe context.file.content look) :
      ∃ found, Verdict.ofExcept look = .offenses found ∧
        ∀ offense ∈ found, ∀ correction ∈ offense.corrections,
          correction.span.CutsOut context.file.content := by
    obtain ⟨found, rfl, cuts⟩ := safe
    exact ⟨found, rfl, cuts⟩
  cases builtIn with
  | legacyRunner severity => exact ends (legacyRunner_isSafe small placed severity)
  | poiseDependency cookbooks => exact ends (poiseDependency_isSafe small placed cookbooks)
  | shellOut => exact ends (shellOut_isSafe small placed below)
  | vaultUse => exact ends (vaultUse_isSafe small placed)
  | providesMetadata => exact ends (providesMetadata_isSafe small placed)
  | copyright => exact ends (copyright_isSafe small placed)
  | registryUac => exact ends (registryUac_isSafe small placed below)

end Rules

/-! ### Evaluations -/

namespace Evaluator

/-- Steps without failures have an outcome without failures. -/
theorem failures_of_collect {α : Type} {step : α → Except Overflow Evaluation} {items : List α}
    {evaluation : Evaluation} (collected : collect step items = .ok evaluation)
    (each : ∀ item ∈ items, ∀ part, step item = .ok part → part.failures = []) :
    evaluation.failures = [] := by
  induction items generalizing evaluation with
  | nil =>
    cases collected
    rfl
  | cons item items ih =>
    obtain ⟨first, second, firstOk, secondOk, rfl⟩ := collect_cons_eq_ok collected
    have here := each item List.mem_cons_self first firstOk
    have later := ih secondOk fun other member => each other (List.mem_cons_of_mem _ member)
    rw [Evaluation.append, here, later]
    rfl

/-- An evaluation has no failures if every look of a rule ends with offenses. -/
theorem failures_of_evaluate {evaluator : Evaluator} {file : SourceFile} {root : Node}
    {evaluation : Evaluation} (evaluated : evaluator.evaluate file root = .ok evaluation)
    (ends : ∀ rule ∈ evaluator.registry.rules, ∀ visit ∈ Visit.all root, ∃ found,
      rule.check ⟨file, visit.ancestors⟩ visit.node = .offenses found) :
    evaluation.failures = [] := by
  rw [evaluate_eq_map_sweep] at evaluated
  cases swept : evaluator.sweep file root with
  | error cause =>
    rw [swept] at evaluated
    cases evaluated
  | ok all =>
    rw [swept] at evaluated
    cases evaluated
    show all.failures = []
    refine failures_of_collect swept fun visit member part partOk => ?_
    refine failures_of_collect partOk fun rule ruleMember piece looked => ?_
    have ruleKnown := Registry.mem_of_mem_rulesFor (List.mem_filter.mp ruleMember).1
    obtain ⟨found, checked⟩ := ends rule ruleKnown visit member
    rw [look, checked] at looked
    cases looked
    rfl

end Evaluator

namespace Patch

/-- Corrections that are parts of a text are made unless they overlap. -/
theorem apply_ofList_inside {text : List Char} {corrections : List Correction}
    (small : Text.size text < maxWord)
    (cuts : ∀ correction ∈ corrections, correction.span.CutsOut text) :
    ∃ outcome, apply (String.ofList text) corrections = .ok outcome ∧
      ∀ range size, outcome ≠ .error (.outOfBounds range size) := by
  have fits : ∀ correction ∈ corrections, correction.Fits := fun correction member =>
    Nat.le_trans (cuts correction member).stop_le (Nat.le_of_lt small)
  by_cases disjoint : corrections.Pairwise fun one other => one.span.overlaps other.span = false
  · obtain ⟨result, made⟩ := apply_ofList_isOk fits cuts disjoint
    exact ⟨.ok result, made, nofun⟩
  · obtain ⟨first, second, refused⟩ := apply_ofList_overlapping fits cuts disjoint
    exact ⟨.error (.overlapping first second), refused, nofun⟩

end Patch

namespace Rules

/-- **The seven rules are safe.** On every tree whose nodes are placed in the text of a file, an
evaluation by them has an outcome without failures, whatever the file and the settings are. Every
correction of an offense is a part of the text, and whichever corrections are made together, none
is refused as out of bounds. -/
theorem evaluate_isSafe (evaluator : Evaluator) (file : SourceFile) (root : Node)
    (builtIn : ∀ rule ∈ evaluator.registry.rules, IsBuiltIn rule)
    (small : Text.size file.content < maxWord)
    (placed : ∀ node ∈ root.walk, node.IsPlaced file.content) :
    ∃ evaluation, evaluator.evaluate file root = .ok evaluation ∧ evaluation.failures = [] ∧
      (∀ offense ∈ evaluation.offenses, ∀ correction ∈ offense.corrections,
        correction.span.CutsOut file.content) ∧
      ∀ chosen : List Correction, chosen ⊆ evaluation.offenses.flatMap (·.corrections) →
        ∃ outcome, Patch.apply (String.ofList file.content) chosen = .ok outcome ∧
          ∀ range size, outcome ≠ .error (.outOfBounds range size) := by
  have safe (rule : Rule) (ruleMember : rule ∈ evaluator.registry.rules) (visit : Visit)
      (member : visit ∈ Visit.all root) :
      ∃ found, rule.check ⟨file, visit.ancestors⟩ visit.node = .offenses found ∧
        ∀ offense ∈ found, ∀ correction ∈ offense.corrections,
          correction.span.CutsOut file.content :=
    have inWalk := Visit.node_mem_walk member
    check_isSafe (builtIn rule ruleMember) small (placed visit.node inWalk) fun child below =>
      placed child (Node.mem_walk_of_child inWalk below)
  have places : ∀ visit ∈ Visit.all root,
      visit.node.span.IsOrdered ∧ visit.node.span.start < maxWord := by
    intro visit member
    have cuts := (placed visit.node (Visit.node_mem_walk member)).cuts
    have ordered := cuts.isOrdered
    have bound := cuts.stop_le
    unfold Span.IsOrdered at ordered
    exact ⟨ordered, by omega⟩
  obtain ⟨evaluation, evaluated⟩ := evaluator.evaluate_isOk file places
  have quiet : evaluation.failures = [] := by
    refine Evaluator.failures_of_evaluate evaluated fun rule ruleMember visit member => ?_
    obtain ⟨found, checked, -⟩ := safe rule ruleMember visit member
    exact ⟨found, checked⟩
  have cuts : ∀ offense ∈ evaluation.offenses, ∀ correction ∈ offense.corrections,
      correction.span.CutsOut file.content := by
    intro offense member correction fixes
    obtain ⟨rule, ruleMember, visit, inTree, found, checked, reported, isReported, settled⟩ :=
      Evaluator.offense_origin evaluated member
    obtain ⟨others, same, cuts⟩ := safe rule ruleMember visit inTree
    rw [same] at checked
    cases checked
    rcases Evaluator.mem_settle settled with rfl | ⟨severity, rfl⟩
    · cases fixes
    · exact cuts reported isReported correction fixes
  refine ⟨evaluation, evaluated, quiet, cuts, fun chosen among => ?_⟩
  refine Patch.apply_ofList_inside small fun correction member => ?_
  obtain ⟨offense, isOffense, fixes⟩ := List.mem_flatMap.mp (among member)
  exact cuts offense isOffense correction fixes

end Rules

/-! ### A sample -/

namespace Sample

/-- Commands between letters of two bytes. -/
def accentedText : String := "é provides é shell_out_with_systems_locale (é)"

/-- A tree that no text has: the nodes lie across one another, and a name lies outside its call. -/
def tangledTree : Node :=
  ⟨.program, ⟨3, 11⟩,
    [⟨.call "provides" ⟨3, 11⟩ true 0, ⟨3, 46⟩,
      [⟨.call "shell_out_with_systems_locale!" ⟨15, 44⟩ false 0, ⟨2, 14⟩,
        [.leaf (.comment "# Copyright Acme") ⟨48, 48⟩]⟩]⟩,
     ⟨.call "shell_out_with_systems_locale" ⟨15, 44⟩ false 1, ⟨15, 49⟩,
      [.leaf (.other "block_argument") ⟨0, 2⟩]⟩]⟩

/-- The rules are safe on a tree whose nodes lie across one another. -/
theorem tangled_isSafe :
    (∀ node ∈ tangledTree.walk, node.IsPlaced (description accentedText).content) ∧
      ∃ evaluation, Evaluator.evaluate ⟨allRules, {}, none⟩ (description accentedText)
          tangledTree = .ok evaluation ∧
        evaluation.failures = [] ∧
        ∃ outcome, Patch.apply (String.ofList (description accentedText).content)
            (evaluation.offenses.flatMap (·.corrections)) = .ok outcome ∧
          ∀ range size, outcome ≠ .error (.outOfBounds range size) := by
  have placed : ∀ node ∈ tangledTree.walk, node.IsPlaced (description accentedText).content := by
    rw [Node.walk_eq_preorder]
    decide +kernel
  obtain ⟨evaluation, evaluated, quiet, -, accepts⟩ :=
    Rules.evaluate_isSafe ⟨allRules, {}, none⟩ (description accentedText) tangledTree
      allRules_builtIn (by decide +kernel) placed
  exact ⟨placed, evaluation, evaluated, quiet, accepts _ (List.Subset.refl _)⟩

end Sample

end RecipeLint
