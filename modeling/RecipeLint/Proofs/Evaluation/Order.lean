/-
**The two orders of an evaluation.**

An evaluation looks at the nodes of a tree one after the other and puts the offenses it finds in the
order of their places. The nodes come in the order in which a walk with a stack yields them, a node
before its children. The sort is stable: it can be done before or after offenses are left out, and
offenses at one place stay in the order in which they were found.

* `Node.walk_eq_preorder` — a walk with a stack lists a tree recursively.
* `Visit.map_node_all` — an evaluation visits the nodes in the order of the walk.
* `filter_mergeSort` — sorting commutes with leaving out.
* `Evaluator.stablySorted_mergeSort` — offenses at one place keep their order.
-/

import Mathlib.Data.List.Basic
import Mathlib.Data.List.Pairwise
import RecipeLint.Evaluation

namespace RecipeLint

/-! ### Nodes -/

namespace Node

theorem preorderAll_append (first second : List Node) :
    preorderAll (first ++ second) = preorderAll first ++ preorderAll second := by
  induction first with
  | nil => rfl
  | cons node nodes ih => rw [List.cons_append, preorderAll, preorderAll, ih, List.append_assoc]

/-- A stack yields the trees on it one after the other. -/
theorem drain_eq_preorderAll (stack : List Node) : drain stack = preorderAll stack := by
  fun_induction drain stack with
  | case1 => rfl
  | case2 kind span children stack ih =>
    rw [ih, preorderAll_append, preorderAll, preorder, List.cons_append]

/-- **A walk with a stack lists a node before its children and the children in their order.** -/
theorem walk_eq_preorder (root : Node) : root.walk = root.preorder := by
  rw [walk, drain_eq_preorderAll, preorderAll, preorderAll, List.append_nil]

end Node

namespace Visit

mutual

theorem map_node_below (ancestors : List Node) :
    ∀ root : Node, (below ancestors root).map (·.node) = root.preorder
  | ⟨kind, span, children⟩ => by
    rw [below, List.map_cons, map_node_belowAll _ children, Node.preorder]

theorem map_node_belowAll (ancestors : List Node) :
    ∀ nodes : List Node, (belowAll ancestors nodes).map (·.node) = Node.preorderAll nodes
  | [] => by rw [belowAll, List.map_nil, Node.preorderAll]
  | node :: nodes => by
    rw [belowAll, List.map_append, map_node_below _ node, map_node_belowAll _ nodes,
      Node.preorderAll]

end

/-- **An evaluation visits the nodes of a tree in the order of the walk.** -/
theorem map_node_all (root : Node) : (all root).map (·.node) = root.walk := by
  rw [all, map_node_below, Node.walk_eq_preorder]

theorem node_mem_walk {root : Node} {visit : Visit} (member : visit ∈ all root) :
    visit.node ∈ root.walk := by
  rw [← map_node_all]
  exact List.mem_map_of_mem member

end Visit

/-! ### Sorting -/

section Sorting

variable {α : Type} {le : α → α → Bool}
  (trans : ∀ first second third, le first second = true → le second third = true →
    le first third = true)
  (total : ∀ first second, (le first second || le second first) = true)

include trans total

/-- **Where the head of a list goes**: behind all that it must follow and before all else. Sorting
the tail has put these two parts in this order already. -/
theorem mergeSort_cons_eq (head : α) (tail : List α) :
    (head :: tail).mergeSort le =
        (tail.mergeSort le).filter (fun other => !le head other) ++
          head :: (tail.mergeSort le).filter (fun other => le head other) ∧
      tail.mergeSort le =
        (tail.mergeSort le).filter (fun other => !le head other) ++
          (tail.mergeSort le).filter (fun other => le head other) := by
  obtain ⟨before, after, whole, rest, apart⟩ := List.mergeSort_cons trans total head tail
  have follows : ∀ other ∈ after, le head other = true := by
    have inOrder := List.pairwise_mergeSort trans total (head :: tail)
    rw [whole, List.pairwise_append] at inOrder
    exact (List.pairwise_cons.mp inOrder.2.1).1
  have first : (before ++ after).filter (fun other => !le head other) = before := by
    have none : after.filter (fun other => !le head other) = [] :=
      List.filter_eq_nil_iff.mpr fun other member => by simp [follows other member]
    rw [List.filter_append, List.filter_eq_self.mpr apart, none, List.append_nil]
  have second : (before ++ after).filter (fun other => le head other) = after := by
    have none : before.filter (fun other => le head other) = [] :=
      List.filter_eq_nil_iff.mpr fun other member => by simpa using apart other member
    rw [List.filter_append, List.filter_eq_self.mpr follows, none, List.nil_append]
  rw [rest, first, second]
  exact ⟨whole, rfl⟩

/-- **Sorting commutes with leaving out**, since what is left keeps its order among equals. -/
theorem filter_mergeSort (kept : α → Bool) (items : List α) :
    (items.mergeSort le).filter kept = (items.filter kept).mergeSort le := by
  induction items with
  | nil => rw [List.mergeSort_nil, List.filter_nil, List.mergeSort_nil]
  | cons head tail ih =>
    obtain ⟨placed, parts⟩ := mergeSort_cons_eq trans total head tail
    have commutes : ∀ part : α → Bool, ((tail.mergeSort le).filter part).filter kept =
        ((tail.filter kept).mergeSort le).filter part := fun part => by
      rw [List.filter_comm, ih]
    rw [placed, List.filter_append]
    cases keep : kept head with
    | true =>
      rw [List.filter_cons_of_pos keep, List.filter_cons_of_pos keep, commutes, commutes]
      exact (mergeSort_cons_eq trans total head (tail.filter kept)).1.symm
    | false =>
      have drop : ¬ kept head = true := by rw [keep]; exact Bool.false_ne_true
      rw [List.filter_cons_of_neg drop, List.filter_cons_of_neg drop, ← List.filter_append,
        ← parts, ih]

end Sorting

namespace Evaluator

theorem startsNoLater_trans (first second third : Offense)
    (before : startsNoLater first second = true) (after : startsNoLater second third = true) :
    startsNoLater first third = true := by
  rw [startsNoLater, decide_eq_true_eq] at before after ⊢
  omega

theorem startsNoLater_total (first second : Offense) :
    (startsNoLater first second || startsNoLater second first) = true := by
  rw [startsNoLater, startsNoLater, Bool.or_eq_true, decide_eq_true_eq, decide_eq_true_eq]
  omega

/-- Offenses in the order of their places, those at one place in the order in which they were
found. -/
structure StablySorted (found sorted : List Offense) : Prop where
  /-- No offense starts before an earlier one. -/
  inOrder : sorted.Pairwise fun first second => first.location.offset ≤ second.location.offset
  /-- At each place there are the offenses that were found there, in their order. -/
  stable : ∀ offset, sorted.filter (fun offense => offense.location.offset == offset) =
    found.filter fun offense => offense.location.offset == offset

/-- **Offenses are sorted by their places, and stably.** -/
theorem stablySorted_mergeSort (found : List Offense) :
    StablySorted found (found.mergeSort startsNoLater) where
  inOrder := (List.pairwise_mergeSort startsNoLater_trans startsNoLater_total found).imp
    fun earlier => of_decide_eq_true earlier
  stable := by
    intro offset
    rw [filter_mergeSort startsNoLater_trans startsNoLater_total]
    -- what starts at one place is in order already
    refine List.mergeSort_of_pairwise (List.pairwise_of_forall_mem_list ?_)
    intro first firstMember second secondMember
    have firstAt := (List.mem_filter.mp firstMember).2
    have secondAt := (List.mem_filter.mp secondMember).2
    rw [beq_iff_eq] at firstAt secondAt
    rw [startsNoLater, decide_eq_true_eq]
    omega

end Evaluator

end RecipeLint
