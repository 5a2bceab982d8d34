/-
**The changes of specialised calls, one inside another.**

A specialised call is fixed by a new name and, if it is about the locale, by an option. Such a call
may stand in the receiver or in an argument of another one. The name of the outer call stands apart
from both. Its option is put in between its children or at the start or the end of one; so it meets
a change inside a child only if both are put in at the end of that child, and then the change is an
option too.

* `Span.Touches` — what changes below a node keep to.
* `ShellOut.corrections` — what the rule changes at a node.
* `ShellOut.optionPlace?`, `ShellOut.SharePlace` — where options go, and when two meet there.
* `ShellOut.HoldsApart` — where a call may hold other ones.
* `ShellOut.sharePlace_of_overlaps` — all that two nested calls can have in common.
-/

import RecipeLint.Proofs.Node.Walks
import RecipeLint.Proofs.Rules.Independence

namespace RecipeLint

/-! ### Ranges -/

namespace Span

/-- **A change touches a range**: it lies inside, and not at its start only. -/
def Touches (change range : Span) : Prop :=
  change.Inside range ∧ range.start < change.stop

theorem Touches.trans {change inner outer : Span} (touches : change.Touches inner)
    (inside : inner.Inside outer) : change.Touches outer :=
  ⟨touches.1.trans inside, Nat.lt_of_le_of_lt inside.1 touches.2⟩

/-- An insertion overlaps what it stands within, and other insertions at its place. -/
theorem overlaps_empty_iff {place : Nat} {other : Span} :
    (empty place).overlaps other = true ↔
      (place < other.stop ∧ other.start < place) ∨ (other.start = place ∧ other.stop = place) := by
  rw [overlaps_iff]
  show (place < other.stop ∧ other.start < place) ∨
    (place = place ∧ other.start = other.stop ∧ place = other.start) ↔ _
  omega

/-- Changes that touch ranges apart from one another do not overlap. -/
theorem Touches.apart {one other first second : Span} (here : one.Touches first)
    (there : other.Touches second) (apart : first.overlaps second = false) :
    one.overlaps other = false := by
  obtain ⟨⟨oneStart, oneStop⟩, oneBehind⟩ := here
  obtain ⟨⟨otherStart, otherStop⟩, otherBehind⟩ := there
  rw [← Bool.not_eq_true, overlaps_iff] at apart ⊢
  omega

end Span

/-! ### Nodes that are laid out -/

namespace Node

mutual

/-- The nodes of a tree that is laid out lie inside of its root. -/
theorem inside_of_mem_preorder {source : List Char} : ∀ root : Node,
    (∀ node ∈ root.preorder, node.IsLaidOut source) →
      ∀ node ∈ root.preorder, node.span.Inside root.span
  | ⟨kind, span, children⟩, laid, node, member => by
    rw [preorder] at laid member
    rw [List.forall_mem_cons] at laid
    rcases List.mem_cons.mp member with rfl | below
    · exact Span.Inside.refl _
    · obtain ⟨child, childMember, inside⟩ := inside_of_mem_preorderAll children laid.2 node below
      exact inside.trans (laid.1.children child childMember).2

theorem inside_of_mem_preorderAll {source : List Char} : ∀ nodes : List Node,
    (∀ node ∈ preorderAll nodes, node.IsLaidOut source) →
      ∀ node ∈ preorderAll nodes, ∃ tree ∈ nodes, node.span.Inside tree.span
  | [], _, node, member => by cases member
  | tree :: nodes, laid, node, member => by
    rw [preorderAll] at laid member
    rw [List.forall_mem_append] at laid
    rcases List.mem_append.mp member with here | later
    · exact ⟨tree, List.mem_cons_self, inside_of_mem_preorder tree laid.1 node here⟩
    · obtain ⟨other, otherMember, inside⟩ := inside_of_mem_preorderAll nodes laid.2 node later
      exact ⟨other, List.mem_cons_of_mem _ otherMember, inside⟩

end

end Node

namespace Rules.ShellOut

variable {file : SourceFile} {node outer inner child : Node} {correction one other : Correction}
  {method : String} {methodSpan : Span} {hasReceiver : Bool} {count place : Nat}

/-! ### The changes at a node -/

/-- **What the rule changes at a node.** -/
def corrections (file : SourceFile) (node : Node) : List Correction :=
  match rule.check ⟨file, []⟩ node with
  | .offenses found => found.flatMap (·.corrections)
  | _ => []

/-- Whether a node calls a specialised method. -/
def isSpecialised (node : Node) : Bool :=
  node.methodName?.any specialised.contains

/-- **Where the option goes** that a call about the locale gets. -/
def optionPlace? (file : SourceFile) (node : Node) : Option Nat :=
  match node.kind with
  | .call method methodSpan _ _ =>
    if specialised.contains method && localeMethod.toList.isPrefixOf method.toList then
      (optionFix file node methodSpan).toOption.map (·.location.offset)
    else none
  | _ => none

/-- The nodes around a node do not matter. -/
theorem corrections_of_check {context : CheckContext} {found : List Offense}
    (checked : rule.check context node = .offenses found) :
    found.flatMap (·.corrections) = corrections context.file node := by
  have same : rule.check ⟨context.file, []⟩ node = .offenses found := checked
  rw [corrections, same]

theorem corrections_of_ok {found : List Offense} (checked : offenses ⟨file, []⟩ node = .ok found) :
    found.flatMap (·.corrections) = corrections file node := by
  have looked : rule.check ⟨file, []⟩ node = .offenses found := congrArg Verdict.ofExcept checked
  rw [corrections, looked]

/-- What is changed is what fixes the call. -/
theorem corrections_of_fixes (kind : node.kind = .call method methodSpan hasReceiver count)
    (special : specialised.contains method = true) {changes : List Correction}
    (fixed : fixes file node method methodSpan = .ok changes) (placed : file.Places node.span) :
    corrections file node = changes := by
  have there := SourceFile.location_eq_place placed
  have checked : ∃ offense, offenses ⟨file, []⟩ node = .ok [offense] ∧
      offense.corrections = changes := by
    unfold offenses
    simp only [kind, special, if_true, fixed, RuleIdentity.offense, there]
    exact ⟨_, rfl, rfl⟩
  obtain ⟨offense, checked, same⟩ := checked
  rw [← corrections_of_ok checked, List.flatMap_singleton, same]

/-- The name of a specialised call takes up room. -/
theorem name_notEmpty (named : IsNamed node)
    (kind : node.kind = .call method methodSpan hasReceiver count)
    (special : specialised.contains method = true) : methodSpan.start < methodSpan.stop := by
  rw [IsNamed, kind] at named
  exact named special

/-- A node with changes calls a specialised method, and the changes fix the call. -/
theorem fixes_of_mem (member : correction ∈ corrections file node) :
    ∃ method methodSpan hasReceiver count, node.kind = .call method methodSpan hasReceiver count ∧
      specialised.contains method = true ∧
      fixes file node method methodSpan = .ok (corrections file node) := by
  cases checked : offenses ⟨file, []⟩ node with
  | error cause =>
    have nothing : corrections file node = [] := by
      show (match Verdict.ofExcept (offenses ⟨file, []⟩ node) with
        | .offenses found => found.flatMap (·.corrections)
        | _ => []) = []
      rw [checked]
      rfl
    rw [nothing] at member
    cases member
  | ok found =>
    have own : found.flatMap (·.corrections) = corrections file node := corrections_of_ok checked
    rw [← own] at member
    unfold offenses at checked
    split at checked
    next method methodSpan hasReceiver count kind =>
      split at checked
      next special =>
        obtain ⟨changes, fixed, rest⟩ := bind_eq_ok checked
        obtain ⟨plain, made, same⟩ := bind_eq_ok rest
        cases same
        refine ⟨method, methodSpan, hasReceiver, count, kind, special, ?_⟩
        rw [← own, List.flatMap_singleton]
        exact fixed
      next =>
        cases checked
        cases member
    next =>
      cases checked
      cases member

/-- **Each change is the name or the option.** -/
theorem name_or_option (laid : node.IsLaidOut file.content)
    (member : correction ∈ corrections file node) :
    ∃ method methodSpan hasReceiver count, node.kind = .call method methodSpan hasReceiver count ∧
      specialised.contains method = true ∧
      (correction.span = methodSpan ∨
        ∃ place, optionPlace? file node = some place ∧ correction.span = .empty place) := by
  obtain ⟨method, methodSpan, hasReceiver, count, kind, special, fixed⟩ := fixes_of_mem member
  refine ⟨method, methodSpan, hasReceiver, count, kind, special, ?_⟩
  obtain ⟨location, placed, rest⟩ := bind_eq_ok fixed
  have renames := SourceFile.span_of_location placed
  split at rest
  next locale =>
    obtain ⟨option, made, same⟩ := bind_eq_ok rest
    rw [← Except.ok.inj same] at member
    rcases List.mem_cons.mp member with rfl | isOption
    · exact Or.inl renames
    · obtain rfl := List.mem_singleton.mp isOption
      obtain ⟨position, puts, -⟩ := optionFix_span laid kind made
      have start : correction.location.offset = position := congrArg Span.start puts
      refine Or.inr ⟨position, ?_, puts⟩
      unfold optionPlace?
      simp only [kind, special, locale, Bool.and_self, if_true, made, Except.toOption,
        Option.map_some, start]
  next =>
    rw [← Except.ok.inj rest] at member
    obtain rfl := List.mem_singleton.mp member
    exact Or.inl renames

/-- A place for an option is that of a call, found when the call is fixed. -/
theorem exists_option (goes : optionPlace? file node = some place) :
    ∃ method methodSpan hasReceiver count, node.kind = .call method methodSpan hasReceiver count ∧
      specialised.contains method = true ∧
      localeMethod.toList.isPrefixOf method.toList = true ∧
      ∃ option, optionFix file node methodSpan = .ok option ∧ option.location.offset = place := by
  unfold optionPlace? at goes
  split at goes
  next method methodSpan hasReceiver count kind =>
    split at goes
    next both =>
      rw [Bool.and_eq_true] at both
      obtain ⟨option, made, offset⟩ := Option.map_eq_some_iff.mp goes
      refine ⟨method, methodSpan, hasReceiver, count, kind, both.1, both.2, option, ?_, offset⟩
      cases found : optionFix file node methodSpan with
      | error cause =>
        rw [found] at made
        cases made
      | ok value =>
        rw [found] at made
        cases made
        rfl
    next => cases goes
  next => cases goes

/-- The option goes behind the name and no further than the end of the call. -/
theorem place_bounds (laid : node.IsLaidOut file.content)
    (kind : node.kind = .call method methodSpan hasReceiver count)
    (goes : optionPlace? file node = some place) :
    methodSpan.stop ≤ place ∧ place ≤ node.span.stop ∧
      (Span.empty place).CutsOut file.content := by
  obtain ⟨method', methodSpan', hasReceiver', count', kind', -, -, option, made, offset⟩ :=
    exists_option goes
  rw [kind] at kind'
  cases kind'
  obtain ⟨position, puts, cuts, behind, bound⟩ := optionFix_span laid kind made
  obtain rfl : position = place := (congrArg Span.start puts).symm.trans offset
  exact ⟨behind, bound, cuts⟩

/-- If a call has arguments, the option goes to the start or the end of the last one. -/
theorem place_of_last (kind : node.kind = .call method methodSpan hasReceiver count)
    (goes : optionPlace? file node = some place) {arguments : List Node} {last : Node}
    (read : node.arguments = .ok arguments) (isLast : arguments.getLast? = some last) :
    place = last.span.start ∨ place = last.span.stop := by
  obtain ⟨method', methodSpan', hasReceiver', count', kind', -, -, option, made, offset⟩ :=
    exists_option goes
  rw [kind] at kind'
  cases kind'
  obtain ⟨arguments', read', rest⟩ := bind_eq_ok made
  rw [read] at read'
  cases read'
  rw [isLast] at rest
  simp only at rest
  split at rest
  next =>
    have start := congrArg Span.start (span_of_insertion rest)
    exact Or.inl (offset.symm.trans start)
  next =>
    have start := congrArg Span.start (span_of_insertion rest)
    exact Or.inr (offset.symm.trans start)

/-- A change of a node touches the node. -/
theorem touches_of_mem (laid : node.IsLaidOut file.content) (named : IsNamed node)
    (member : correction ∈ corrections file node) : correction.span.Touches node.span := by
  obtain ⟨method, methodSpan, hasReceiver, count, kind, special, change⟩ :=
    name_or_option laid member
  have spanned : node.methodSpan? = some methodSpan := by rw [Node.methodSpan?, kind]
  obtain ⟨-, ⟨afterStart, beforeStop⟩, -⟩ := laid.method methodSpan spanned
  have notEmpty := name_notEmpty named kind special
  rcases change with renames | ⟨place, goes, puts⟩
  · rw [renames]
    exact ⟨⟨afterStart, beforeStop⟩, by omega⟩
  · obtain ⟨behind, bound, -⟩ := place_bounds laid kind goes
    rw [puts]
    refine ⟨⟨?_, bound⟩, ?_⟩
    · show node.span.start ≤ place
      omega
    · show node.span.start < place
      omega

/-- A change of a node is a part of the text. -/
theorem cutsOut_of_mem (laid : node.IsLaidOut file.content)
    (member : correction ∈ corrections file node) : correction.span.CutsOut file.content := by
  obtain ⟨method, methodSpan, hasReceiver, count, kind, special, change⟩ :=
    name_or_option laid member
  have spanned : node.methodSpan? = some methodSpan := by rw [Node.methodSpan?, kind]
  rcases change with renames | ⟨place, goes, puts⟩
  · rw [renames]
    exact (laid.method methodSpan spanned).1
  · rw [puts]
    exact (place_bounds laid kind goes).2.2

/-- The changes of one node do not overlap. -/
theorem corrections_pairwise (laid : node.IsLaidOut file.content) (named : IsNamed node) :
    (corrections file node).Pairwise fun one other => one.span.overlaps other.span = false := by
  by_cases nothing : corrections file node = []
  · rw [nothing]
    exact List.Pairwise.nil
  · obtain ⟨correction, member⟩ := List.exists_mem_of_ne_nil _ nothing
    obtain ⟨method, methodSpan, hasReceiver, count, kind, special, fixed⟩ := fixes_of_mem member
    have notEmpty := name_notEmpty named kind special
    generalize corrections file node = changes at fixed
    have fixes := fixes_fixesCall laid kind fixed
    cases fixes with
    | name => exact List.pairwise_singleton _ _
    | @nameAndOption rename option position renames puts cuts behind bound =>
      rw [List.pairwise_pair, renames, puts, Span.overlaps_comm, ← Bool.not_eq_true,
        Span.overlaps_empty_iff]
      omega

/-- **A change without a range is the option.** -/
theorem optionPlace?_of_empty (laid : node.IsLaidOut file.content) (named : IsNamed node)
    (member : correction ∈ corrections file node) (starts : correction.span.start = place)
    (stops : correction.span.stop = place) : optionPlace? file node = some place := by
  obtain ⟨method, methodSpan, hasReceiver, count, kind, special, change⟩ :=
    name_or_option laid member
  have notEmpty := name_notEmpty named kind special
  rcases change with renames | ⟨position, goes, puts⟩
  · rw [renames] at starts stops
    omega
  · rw [puts] at starts
    obtain rfl : position = place := starts
    exact goes

/-! ### Calls in calls -/

/-- **A specialised call has others at the places of its receiver and its arguments only**: in front
of its name, or behind it if the call has arguments. -/
def HoldsApart (node : Node) : Prop :=
  isSpecialised node = true → ∀ methodSpan ∈ node.methodSpan?, ∀ child ∈ node.children,
    (∀ inner ∈ child.preorder, isSpecialised inner = false) ∨
      child.span.stop ≤ methodSpan.start ∨
      (methodSpan.stop ≤ child.span.start ∧ node.arguments.toOption.getD [] ≠ [])

instance (node : Node) : Decidable (HoldsApart node) := by
  unfold HoldsApart
  infer_instance

/-- **The options of two calls go to one place.** -/
def SharePlace (file : SourceFile) (outer inner : Node) : Prop :=
  ∃ place ∈ optionPlace? file outer, optionPlace? file inner = some place

instance (file : SourceFile) (outer inner : Node) : Decidable (SharePlace file outer inner) := by
  unfold SharePlace
  infer_instance

/-- The changes below a node that is laid out touch the node. -/
theorem touches_below (laid : ∀ node ∈ child.preorder, node.IsLaidOut file.content)
    (named : ∀ node ∈ child.preorder, IsNamed node) (below : inner ∈ child.preorder)
    (member : correction ∈ corrections file inner) : correction.span.Touches child.span :=
  (touches_of_mem (laid inner below) (named inner below) member).trans
    (Node.inside_of_mem_preorder child laid inner below)

/-- A node with changes is a specialised call. -/
theorem isSpecialised_of_mem (member : correction ∈ corrections file node) :
    isSpecialised node = true := by
  obtain ⟨method, methodSpan, hasReceiver, count, kind, special, -⟩ := fixes_of_mem member
  rw [isSpecialised, Node.methodName?, kind]
  exact special

/-- **The option of a call goes in between its children**, or to the start or the end of one. -/
theorem place_beside_child (laid : outer.IsLaidOut file.content)
    (kind : outer.kind = .call method methodSpan hasReceiver count)
    (goes : optionPlace? file outer = some place) (childMember : child ∈ outer.children)
    (notEmpty : child.span.start < child.span.stop)
    (given : outer.arguments.toOption.getD [] ≠ []) :
    place ≤ child.span.start ∨ child.span.stop ≤ place := by
  cases read : outer.arguments with
  | error cause =>
    rw [read] at given
    exact absurd rfl given
  | ok arguments =>
    rw [read] at given
    change arguments ≠ [] at given
    have isLast := List.getLast?_eq_some_getLast given
    have lastMember : arguments.getLast given ∈ outer.children :=
      Node.mem_children_of_mem_arguments read (List.getLast_mem given)
    have ends := place_of_last kind goes read isLast
    generalize arguments.getLast given = last at isLast lastMember ends
    have ordered := (laid.children last lastMember).1.isOrdered
    unfold Span.IsOrdered at ordered
    by_cases same : child = last
    · subst same
      omega
    · have symmetric : Std.Symm fun first second : Node =>
          first.span.overlaps second.span = false :=
        ⟨fun first second apart => (Span.overlaps_comm _ _).trans apart⟩
      have apart := laid.siblings.forall childMember lastMember same
      rw [← Bool.not_eq_true, Span.overlaps_iff] at apart
      omega

/-- **Two nested calls are in each other's way exactly if their options go to one place.** -/
theorem sharePlace_of_overlaps (laid : outer.IsLaidOut file.content) (named : IsNamed outer)
    (holds : HoldsApart outer) (childMember : child ∈ outer.children)
    (laidBelow : ∀ node ∈ child.preorder, node.IsLaidOut file.content)
    (namedBelow : ∀ node ∈ child.preorder, IsNamed node) (below : inner ∈ child.preorder)
    (oneMember : one ∈ corrections file outer) (otherMember : other ∈ corrections file inner)
    (overlap : one.span.overlaps other.span = true) : SharePlace file outer inner := by
  obtain ⟨method, methodSpan, hasReceiver, count, kind, special, change⟩ :=
    name_or_option laid oneMember
  have spanned : outer.methodSpan? = some methodSpan := by rw [Node.methodSpan?, kind]
  have notEmpty := name_notEmpty named kind special
  obtain ⟨⟨afterStart, beforeStop⟩, behind⟩ :=
    touches_below laidBelow namedBelow below otherMember
  have innerSpecial := isSpecialised_of_mem otherMember
  rcases holds (isSpecialised_of_mem oneMember) methodSpan spanned child childMember with
    none | front | ⟨back, given⟩
  · rw [none inner below] at innerSpecial
    cases innerSpecial
  · -- the receiver ends before all that is changed
    exfalso
    rcases change with renames | ⟨place, goes, puts⟩
    · rw [renames, Span.overlaps_iff] at overlap
      omega
    · obtain ⟨late, -⟩ := place_bounds laid kind goes
      rw [puts, Span.overlaps_empty_iff] at overlap
      omega
  · rcases change with renames | ⟨place, goes, puts⟩
    · exfalso
      rw [renames, Span.overlaps_iff] at overlap
      omega
    · -- the option is put in beside the argument, so it meets an insertion only
      have beside := place_beside_child laid kind goes childMember (by omega) given
      rw [puts, Span.overlaps_empty_iff] at overlap
      exact ⟨place, goes, optionPlace?_of_empty (laidBelow inner below) (namedBelow inner below)
        otherMember (by omega) (by omega)⟩

/-- **The option is put in at its place.** -/
theorem exists_mem_of_place (laid : node.IsLaidOut file.content)
    (small : Text.size file.content < maxWord) (goes : optionPlace? file node = some place) :
    ∃ correction ∈ corrections file node, correction.span = .empty place := by
  obtain ⟨method, methodSpan, hasReceiver, count, kind, special, locale, option, made, offset⟩ :=
    exists_option goes
  have spanned : node.methodSpan? = some methodSpan := by rw [Node.methodSpan?, kind]
  have placed {span : Span} (cuts : span.CutsOut file.content) : file.Places span :=
    SourceFile.places_of_cutsOut small cuts
  obtain ⟨position, puts, -⟩ := optionFix_span laid kind made
  have here := SourceFile.location_eq_place (placed (laid.method methodSpan spanned).1)
  have fixed : fixes file node method methodSpan =
      .ok [⟨file.place methodSpan, replacement method⟩, option] := by
    unfold fixes
    simp only [here, locale, if_true, made]
    rfl
  have own := corrections_of_fixes kind special fixed (placed laid.cuts)
  refine ⟨option, own ▸ List.mem_cons_of_mem _ List.mem_cons_self, ?_⟩
  have start : option.location.offset = position := congrArg Span.start puts
  rw [puts, ← offset, start]

end Rules.ShellOut

end RecipeLint
