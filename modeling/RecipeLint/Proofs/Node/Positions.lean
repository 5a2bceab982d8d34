/-
**Where the nodes of a tree stand.**

Two nodes of a tree may be alike, so a node is told by its position: the way from the root down to
it, at each node on the way the place of the child to go on with. In the lexicographic order of
positions a node comes before all that stands below it, and what stands below a child before what
stands below a later one. The visits of a tree are taken in this order, and the nodes around a node
are those on the way to it.

* `Node.at?` — the node at a position.
* `Node.positions` — the positions of a tree; `Node.mem_positions` and `Node.positions_ascend` are
  all there is to know about them.
* `Visit.IsAt` — a visit of the node at a position, with the nodes on the way to it.
* `Visit.all_areAt` — the visits of a tree are those of its positions.
-/

import Mathlib.Data.List.Forall2
import RecipeLint.Proofs.Evaluation.Order

namespace RecipeLint

namespace Node

/-- The node at a position. -/
def at? (root : Node) : List Nat → Option Node
  | [] => some root
  | place :: way => root.children[place]?.bind fun child => child.at? way

mutual

/-- The positions of a tree, that of a node before those below it. -/
def positions : Node → List (List Nat)
  | ⟨_, _, children⟩ => [] :: positionsFrom 0 children

/-- The positions below the children of a node from a place on. -/
def positionsFrom (place : Nat) : List Node → List (List Nat)
  | [] => []
  | node :: nodes => node.positions.map (place :: ·) ++ positionsFrom (place + 1) nodes

end

theorem mem_positionsFrom {place : Nat} {nodes : List Node} {position : List Nat} :
    position ∈ positionsFrom place nodes ↔ ∃ further way child,
      position = (place + further) :: way ∧ nodes[further]? = some child ∧
        way ∈ child.positions := by
  induction nodes generalizing place with
  | nil => simp [positionsFrom]
  | cons node nodes ih =>
    rw [positionsFrom, List.mem_append, List.mem_map, ih]
    constructor
    · rintro (⟨way, member, rfl⟩ | ⟨further, way, child, rfl, found, member⟩)
      · exact ⟨0, way, node, rfl, rfl, member⟩
      · exact ⟨further + 1, way, child, by rw [Nat.add_assoc, Nat.add_comm 1], found, member⟩
    · rintro ⟨further, way, child, rfl, found, member⟩
      cases further with
      | zero =>
        obtain rfl : node = child := Option.some.inj found
        exact Or.inl ⟨way, member, rfl⟩
      | succ further =>
        exact Or.inr ⟨further, way, child, by rw [Nat.add_assoc, Nat.add_comm 1], found, member⟩

/-- **The positions of a tree are those at which there is a node.** -/
theorem mem_positions {root : Node} {position : List Nat} :
    position ∈ root.positions ↔ (root.at? position).isSome = true := by
  induction position generalizing root with
  | nil =>
    obtain ⟨kind, span, children⟩ := root
    exact iff_of_true List.mem_cons_self rfl
  | cons place way ih =>
    obtain ⟨kind, span, children⟩ := root
    rw [positions, List.mem_cons, mem_positionsFrom, at?]
    constructor
    · rintro (⟨⟨⟩⟩ | ⟨further, other, child, same, found, member⟩)
      obtain ⟨rfl, rfl⟩ := List.cons.inj same
      rw [Nat.zero_add, found]
      exact ih.mp member
    · intro some
      obtain ⟨child, found⟩ := Option.isSome_iff_exists.mp (Option.isSome_of_isSome_bind some)
      rw [found] at some
      exact Or.inr ⟨place, way, child, by rw [Nat.zero_add], found, ih.mpr some⟩

mutual

/-- **The positions of a tree ascend**, so each of them is listed once. -/
theorem positions_ascend : ∀ root : Node, root.positions.Pairwise (· < ·)
  | ⟨kind, span, children⟩ => by
    rw [positions]
    refine List.pairwise_cons.mpr ⟨fun position member => ?_, positionsFrom_ascend 0 children⟩
    obtain ⟨further, way, child, rfl, -, -⟩ := mem_positionsFrom.mp member
    exact List.nil_lt_cons _ _

theorem positionsFrom_ascend (place : Nat) :
    ∀ nodes : List Node, (positionsFrom place nodes).Pairwise (· < ·)
  | [] => List.Pairwise.nil
  | node :: nodes => by
    rw [positionsFrom]
    refine List.pairwise_append.mpr ⟨?_, positionsFrom_ascend (place + 1) nodes, ?_⟩
    · refine List.pairwise_map.mpr ((positions_ascend node).imp fun earlier => ?_)
      exact List.cons_lt_cons_iff.mpr (Or.inr ⟨rfl, earlier⟩)
    · intro first firstMember second secondMember
      obtain ⟨way, -, rfl⟩ := List.mem_map.mp firstMember
      obtain ⟨further, other, child, rfl, -, -⟩ := mem_positionsFrom.mp secondMember
      exact List.cons_lt_cons_iff.mpr (Or.inl (by omega))

end

example : positions ⟨.program, .empty 0, [.leaf .block (.empty 0),
      ⟨.block, .empty 0, [.leaf .block (.empty 0)]⟩]⟩ = [[], [0], [1], [1, 0]] := by decide

end Node

namespace Visit

/-! ### Visits and positions -/

/-- **A visit of the node at a position**, with the nodes on the way to it, from the root down to
its parent. -/
structure IsAt (root : Node) (position : List Nat) (visit : Visit) : Prop where
  node : root.at? position = some visit.node
  depth : visit.ancestors.length = position.length
  ancestors : ∀ depth < position.length,
    visit.ancestors[depth]? = root.at? (position.take depth)

/-- A visit with more nodes around it. -/
def within (around : List Node) (visit : Visit) : Visit :=
  ⟨visit.node, around ++ visit.ancestors⟩

mutual

/-- What is visited does not depend on the nodes around the tree. -/
theorem below_eq (around : List Node) :
    ∀ root : Node, below around root = (all root).map (within around)
  | ⟨kind, span, children⟩ => by
    have inner := belowAll_eq (around ++ [⟨kind, span, children⟩]) children
    have outer := belowAll_eq [⟨kind, span, children⟩] children
    rw [all, below, below, List.nil_append, inner, outer, List.map_cons, List.map_map]
    refine congr (congrArg List.cons ?_) (List.map_congr_left fun visit _ => ?_)
    · rw [within, List.append_nil]
    · exact congrArg (Visit.mk visit.node) (List.append_assoc ..)

theorem belowAll_eq (around : List Node) :
    ∀ nodes : List Node, belowAll around nodes = (belowAll [] nodes).map (within around)
  | [] => rfl
  | node :: nodes => by
    rw [belowAll, belowAll, below_eq around node, belowAll_eq around nodes, List.map_append, all]

end

/-- The step: a visit below a child of a node. -/
theorem IsAt.cons {root child : Node} {place : Nat} {way : List Nat} {visit : Visit}
    (found : root.children[place]? = some child) (below : IsAt child way visit) :
    IsAt root (place :: way) (visit.within [root]) where
  node := by rw [Node.at?, found, Option.bind_some, below.node]; rfl
  depth := congrArg (· + 1) below.depth
  ancestors := by
    rintro (_ | depth) shorter
    · rfl
    · rw [List.take_succ_cons, Node.at?, found, Option.bind_some]
      exact below.ancestors depth (Nat.lt_of_succ_lt_succ shorter)

mutual

/-- **The visits of a tree are those of its positions**, in their order. -/
theorem all_areAt : ∀ root : Node, List.Forall₂ (IsAt root) root.positions (all root)
  | ⟨kind, span, children⟩ => by
    rw [Node.positions, all, below]
    refine .cons ⟨rfl, rfl, nofun⟩ ?_
    exact belowAll_areAt ⟨kind, span, children⟩ 0 children fun further => by rw [Nat.zero_add]

theorem belowAll_areAt (root : Node) (place : Nat) : ∀ nodes : List Node,
    (∀ further, root.children[place + further]? = nodes[further]?) →
      List.Forall₂ (IsAt root) (Node.positionsFrom place nodes) (belowAll [root] nodes)
  | [], _ => .nil
  | node :: nodes, same => by
    have here : root.children[place]? = some node := same 0
    have others := belowAll_areAt root (place + 1) nodes fun further => by
      rw [Nat.add_assoc, Nat.add_comm 1]
      exact same (further + 1)
    rw [Node.positionsFrom, belowAll, below_eq]
    refine List.rel_append ?_ others
    rw [List.forall₂_map_left_iff, List.forall₂_map_right_iff]
    exact (all_areAt node).imp fun way visit below => below.cons here

end

end Visit

end RecipeLint
