/-
**Concrete trees and what lowering keeps of them.**

The reader's concrete tree is taken as given here, as long as it is well nested: ranges are parts of
the text and of the range around them, neighbours follow one another, and a call has its receiver,
its name, its arguments and its block in this order.

* `Ruby.Tree.WellNested` — what is asked of the concrete tree. It can be computed.
* `Ruby.Lowered.IsFaithful` — what a lowered tree keeps of it.
-/

import RecipeLint.Proofs.Node.Nesting
import RecipeLint.Ruby.Lowering

namespace RecipeLint.Ruby

/-! ### Concrete trees -/

/-- The place of a role among the parts of a call. -/
def Role.place? : Role → Option Nat
  | .receiver => some 0
  | .method => some 1
  | .arguments => some 2
  | .block => some 3
  | _ => none

/-- Whether a part of a call stands before another one by their roles. -/
def Role.precedes (first second : Option Role) : Bool :=
  match first.bind place?, second.bind place? with
  | some earlier, some later => earlier < later
  | _, _ => false

/-- **A concrete tree is well nested in a text.** -/
inductive Tree.WellNested (source : List Char) : Tree → Prop
  | node {role : Option Role} {kind : Kind} {span : Span} {parts : List Tree}
      (cuts : span.CutsOut source)
      (inside : ∀ part ∈ parts, part.span.Inside span)
      (inOrder : parts.Pairwise fun first second => first.span.stop ≤ second.span.start)
      (fields : kind = .call → ∀ first ∈ parts, ∀ second ∈ parts,
        Role.precedes first.role second.role = true → first.span.stop ≤ second.span.start)
      (few : parts.length < maxWord)
      (each : ∀ part ∈ parts, WellNested source part) :
      WellNested source (.node role kind span parts)

namespace Tree.WellNested

variable {source : List Char} {tree : Tree}

theorem cuts (nested : tree.WellNested source) : tree.span.CutsOut source := by
  cases nested with
  | node cuts => exact cuts

theorem inside (nested : tree.WellNested source) {part : Tree} (member : part ∈ tree.parts) :
    part.span.Inside tree.span := by
  cases nested with
  | node _ inside => exact inside part member

theorem inOrder (nested : tree.WellNested source) :
    tree.parts.Pairwise fun first second => first.span.stop ≤ second.span.start := by
  cases nested with
  | node _ _ inOrder => exact inOrder

/-- Two parts are the same, or one lies before the other. -/
theorem apart (nested : tree.WellNested source) {first second : Tree}
    (firstMember : first ∈ tree.parts) (secondMember : second ∈ tree.parts) :
    first = second ∨ first.span.stop ≤ second.span.start ∨
      second.span.stop ≤ first.span.start := by
  have pairs : ∀ ⦃first⦄, first ∈ tree.parts → ∀ ⦃second⦄, second ∈ tree.parts →
      first = second ∨ first.span.stop ≤ second.span.start ∨
        second.span.stop ≤ first.span.start :=
    List.Pairwise.forall_of_forall_of_flip (fun part _ => Or.inl rfl)
      (nested.inOrder.imp fun before => Or.inr (Or.inl before))
      (nested.inOrder.imp fun behind => Or.inr (Or.inr behind))
  exact pairs firstMember secondMember

theorem fields (nested : tree.WellNested source) (call : tree.kind = .call) {first second : Tree}
    (firstMember : first ∈ tree.parts) (secondMember : second ∈ tree.parts)
    (before : Role.precedes first.role second.role = true) :
    first.span.stop ≤ second.span.start := by
  cases nested with
  | node _ _ _ fields => exact fields call first firstMember second secondMember before

theorem few (nested : tree.WellNested source) : tree.parts.length < maxWord := by
  cases nested with
  | node _ _ _ _ few => exact few

theorem part (nested : tree.WellNested source) {part : Tree} (member : part ∈ tree.parts) :
    part.WellNested source := by
  cases nested with
  | node _ _ _ _ _ each => exact each part member

mutual

/-- Whether a tree is well nested can be computed. -/
def decide (source : List Char) : (tree : Tree) → Decidable (tree.WellNested source)
  | .node role kind span parts =>
    have := decideAll source parts
    decidable_of_iff
      (span.CutsOut source ∧ (∀ part ∈ parts, part.span.Inside span) ∧
        (parts.Pairwise fun first second => first.span.stop ≤ second.span.start) ∧
        (kind = .call → ∀ first ∈ parts, ∀ second ∈ parts,
          Role.precedes first.role second.role = true → first.span.stop ≤ second.span.start) ∧
        parts.length < maxWord ∧ ∀ part ∈ parts, part.WellNested source)
      ⟨fun ⟨cuts, inside, inOrder, fields, few, each⟩ => .node cuts inside inOrder fields few each,
        fun nested => by cases nested; exact ⟨‹_›, ‹_›, ‹_›, ‹_›, ‹_›, ‹_›⟩⟩

/-- Whether several trees are well nested can be computed. -/
def decideAll (source : List Char) :
    (trees : List Tree) → Decidable (∀ tree ∈ trees, tree.WellNested source)
  | [] => isTrue nofun
  | tree :: trees =>
    have := decide source tree
    have := decideAll source trees
    decidable_of_iff (tree.WellNested source ∧ ∀ tree ∈ trees, tree.WellNested source)
      List.forall_mem_cons.symm

end

instance (source : List Char) (tree : Tree) : Decidable (tree.WellNested source) :=
  decide source tree

end Tree.WellNested

/-! ### Lowered trees -/

/-- **What a lowered tree keeps of the concrete one**: its parts are lowered from the parts, its
node lies inside the range of the tree, comments are comments, and all nodes are sound. -/
inductive Lowered.IsFaithful (source : List Char) : Lowered → Prop
  | mk {tree : Tree} {node : Node} {parts : List Lowered}
      (nested : tree.WellNested source)
      (trees : parts.map (·.tree) = tree.parts)
      (inside : node.span.Inside tree.span)
      (comment : tree.is .comment = true → node.tag = .comment)
      (sound : node.AllSound source)
      (each : ∀ part ∈ parts, IsFaithful source part) :
      IsFaithful source (.mk tree node parts)

namespace Lowered.IsFaithful

variable {source : List Char} {lowered : Lowered}

theorem nested (faithful : lowered.IsFaithful source) : lowered.tree.WellNested source := by
  cases faithful with
  | mk nested => exact nested

theorem inside (faithful : lowered.IsFaithful source) :
    lowered.node.span.Inside lowered.tree.span := by
  cases faithful with
  | mk _ _ inside => exact inside

theorem tag_node (faithful : lowered.IsFaithful source) (comment : lowered.isComment = true) :
    lowered.node.tag = .comment := by
  cases faithful with
  | mk _ _ _ keeps => exact keeps comment

theorem sound (faithful : lowered.IsFaithful source) : lowered.node.AllSound source := by
  cases faithful with
  | mk _ _ _ _ sound => exact sound

theorem part (faithful : lowered.IsFaithful source) {part : Lowered}
    (member : part ∈ lowered.parts) : part.IsFaithful source := by
  cases faithful with
  | mk _ _ _ _ _ each => exact each part member

theorem length_parts (faithful : lowered.IsFaithful source) : lowered.parts.length < maxWord := by
  cases faithful with
  | @mk tree node parts nested trees =>
    have same := congrArg List.length trees
    rw [List.length_map] at same
    have few := nested.few
    rw [← same] at few
    exact few

theorem tree_inside (faithful : lowered.IsFaithful source) {part : Lowered}
    (member : part ∈ lowered.parts) : part.tree.span.Inside lowered.tree.span := by
  cases faithful with
  | mk nested trees =>
    refine nested.inside ?_
    rw [← trees]
    exact List.mem_map_of_mem member

/-- The node of a part lies inside the range of the tree. -/
theorem part_inside (faithful : lowered.IsFaithful source) {part : Lowered}
    (member : part ∈ lowered.parts) : part.node.span.Inside lowered.tree.span :=
  (faithful.part member).inside.trans (faithful.tree_inside member)

end Lowered.IsFaithful

/-! ### One step of lowering -/

section Step

variable {source : List Char} {role : Option Role} {kind : Kind} {span : Span}
  {parts : List Lowered}
  (nested : (Tree.node role kind span (parts.map (·.tree))).WellNested source)
  (each : ∀ part ∈ parts, part.IsFaithful source)

include nested in
theorem tree_inside {part : Lowered} (member : part ∈ parts) : part.tree.span.Inside span :=
  nested.inside (List.mem_map_of_mem member)

include nested each in
theorem node_inside {part : Lowered} (member : part ∈ parts) : part.node.span.Inside span :=
  (each part member).inside.trans (tree_inside nested member)

/-- A leaf that takes the range of its construct is sound unless it is a block or claims to be a
call with a receiver or arguments. -/
theorem leaf_allSound (cuts : span.CutsOut source) {kind : NodeKind} (block : kind ≠ .block)
    (call : ∀ method methodSpan hasReceiver count,
      kind = .call method methodSpan hasReceiver count →
        methodSpan = span ∧ hasReceiver = false ∧ count = 0)
    (comment : ∀ text, kind = .comment text →
      Text.slice? source span.start span.stop = some text.toList) :
    (Node.leaf kind span).AllSound source := by
  refine Node.AllSound.of_children ⟨cuts, by simp [Node.leaf], ?_,
    fun isBlock => absurd isBlock block, fun _ => Nat.zero_le _, fun _ => rfl, comment⟩
    (by simp [Node.leaf])
  intro method methodSpan hasReceiver count isCall
  obtain ⟨rfl, rfl, rfl⟩ := call method methodSpan hasReceiver count isCall
  obtain rfl : kind = _ := isCall
  exact ⟨rfl, ⟨[], [], rfl, rfl, rfl, by simp⟩, Span.Inside.refl _⟩

include nested each in
/-- A construct that keeps all its parts and its range. -/
theorem other_allSound (name : String) :
    (Node.mk (.other name) span (parts.map (·.node))).AllSound source := by
  refine Node.AllSound.of_children (Node.IsSound.of_plain nested.cuts ?_ (Or.inr rfl)) ?_
  · exact List.forall_mem_map.mpr fun part member => node_inside nested each member
  · exact List.forall_mem_map.mpr fun part member => (each part member).sound

end Step

end RecipeLint.Ruby
