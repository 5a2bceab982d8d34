/-
**Items of the nodes of a tree.**

A walk lists a tree as its root, the nodes below the first child, those below the second one and so
on. Two nodes of it are one below the other, or below different children of one node. So whatever
belongs to the nodes can be compared in pairs by comparing what belongs to a node with what belongs
below it, if what belongs below siblings is known to be in order.

* `Node.mem_preorder_trans` — what is below a node of a tree is in the tree.
* `Node.pairwise_preorder_iff` — the items of a walk, compared node by node.
-/

import RecipeLint.Proofs.Node.Nesting

namespace RecipeLint.Node

section Walks

variable {α : Type} (items : Node → List α) (related : α → α → Prop)

/-- All items below one tree are related to all items below another. -/
def Related (first second : Node) : Prop :=
  ∀ one ∈ first.preorder.flatMap items, ∀ other ∈ second.preorder.flatMap items, related one other

mutual

/-- **The items of a walk are related in pairs** if those of each node are to those of the nodes
below it, where items of one node and items below siblings are related anyway. -/
theorem pairwise_preorder_iff : ∀ root : Node,
    (∀ node ∈ root.preorder, (items node).Pairwise related) →
    (∀ node ∈ root.preorder, node.children.Pairwise (Related items related)) →
    ((root.preorder.flatMap items).Pairwise related ↔
      ∀ outer ∈ root.preorder, ∀ inner ∈ preorderAll outer.children,
        ∀ one ∈ items outer, ∀ other ∈ items inner, related one other)
  | ⟨kind, span, children⟩, own, siblings => by
    rw [preorder] at own siblings ⊢
    rw [List.forall_mem_cons] at own siblings
    have below := pairwise_preorderAll_iff children own.2 siblings.2 siblings.1
    rw [List.flatMap_cons, List.pairwise_append, below, List.forall_mem_cons]
    constructor
    · rintro ⟨-, inside, across⟩
      refine ⟨fun inner member one oneMember other otherMember => ?_, inside⟩
      exact across one oneMember other (List.mem_flatMap.mpr ⟨inner, member, otherMember⟩)
    · rintro ⟨across, inside⟩
      refine ⟨own.1, inside, fun one oneMember other otherMember => ?_⟩
      obtain ⟨inner, member, otherMember⟩ := List.mem_flatMap.mp otherMember
      exact across inner member one oneMember other otherMember

theorem pairwise_preorderAll_iff : ∀ nodes : List Node,
    (∀ node ∈ preorderAll nodes, (items node).Pairwise related) →
    (∀ node ∈ preorderAll nodes, node.children.Pairwise (Related items related)) →
    nodes.Pairwise (Related items related) →
    (((preorderAll nodes).flatMap items).Pairwise related ↔
      ∀ outer ∈ preorderAll nodes, ∀ inner ∈ preorderAll outer.children,
        ∀ one ∈ items outer, ∀ other ∈ items inner, related one other)
  | [], _, _, _ => by simp [preorderAll]
  | node :: nodes, own, siblings, across => by
    rw [preorderAll] at own siblings ⊢
    rw [List.forall_mem_append] at own siblings
    have first := pairwise_preorder_iff node own.1 siblings.1
    have later := pairwise_preorderAll_iff nodes own.2 siblings.2 across.tail
    rw [List.flatMap_append, List.pairwise_append, first, later, List.forall_mem_append]
    refine and_congr_right fun _ => and_iff_left fun one oneMember other otherMember => ?_
    obtain ⟨inner, member, otherMember⟩ := List.mem_flatMap.mp otherMember
    obtain ⟨tree, treeMember, below⟩ := mem_preorderAll.mp member
    exact List.rel_of_pairwise_cons across treeMember one oneMember other
      (List.mem_flatMap.mpr ⟨inner, below, otherMember⟩)

end

end Walks

mutual

/-- What is below a node of a tree is in the tree. -/
theorem mem_preorder_trans : ∀ root : Node,
    ∀ node ∈ root.preorder, ∀ inner ∈ node.preorder, inner ∈ root.preorder
  | ⟨kind, span, children⟩, node, member, inner, below => by
    rw [preorder] at member
    rcases List.mem_cons.mp member with rfl | later
    · exact below
    · rw [preorder]
      exact List.mem_cons_of_mem _ (mem_preorderAll_trans children node later inner below)

theorem mem_preorderAll_trans : ∀ nodes : List Node,
    ∀ node ∈ preorderAll nodes, ∀ inner ∈ node.preorder, inner ∈ preorderAll nodes
  | [], _, member, _, _ => by cases member
  | tree :: nodes, node, member, inner, below => by
    rw [preorderAll] at member ⊢
    rcases List.mem_append.mp member with here | later
    · exact List.mem_append_left _ (mem_preorder_trans tree node here inner below)
    · exact List.mem_append_right _ (mem_preorderAll_trans nodes node later inner below)

end

end RecipeLint.Node
