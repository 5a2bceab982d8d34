/-
**The order of paths.**

Paths are compared component by component. This is a lexicographic order, so it is transitive and
any two paths are comparable, and lists can be sorted by it. Sorting is stable.

* `Path.compareComponents_eq` — the order of components is a lexicographic one.
* `Path.compare_eq_iff` — what the order does not tell apart is the same path.
* `StablySortedBy` — a list in order with nothing lost or added, and ties as they were.
* `stablySortedBy_mergeSort` — what a merge sort by an order gives.
-/

import RecipeLint.Path
import RecipeLint.Proofs.Evaluation.Order

namespace RecipeLint

/-- Comparing by something that can be compared is as good an order. -/
theorem transCmp_on {α β : Type} (order : β → β → Ordering) [Std.TransCmp order] (key : α → β) :
    Std.TransCmp fun first second => order (key first) (key second) where
  eq_swap {first second} := @Std.OrientedCmp.eq_swap _ order _ (key first) (key second)
  isLE_trans {first second third} :=
    @Std.TransCmp.isLE_trans _ order _ (key first) (key second) (key third)

/-! ### Paths -/

namespace Path

/-- The name of a component that is one. -/
def Component.text : Component → String
  | .normal name => name
  | _ => ""

theorem Component.compare_eq :
    Component.compare = compareLex (compareOn Component.rank) (compareOn Component.text) := by
  funext first second
  cases first <;> cases second <;> rfl

instance : Std.TransCmp Component.compare := by
  rw [Component.compare_eq]
  infer_instance

theorem compareComponents_eq : compareComponents = List.compareLex Component.compare := by
  funext first second
  induction first generalizing second with
  | nil => cases second <;> rfl
  | cons head tail ih =>
    cases second with
    | nil => rfl
    | cons other others =>
      rw [compareComponents, List.compareLex_cons_cons, ih]
      cases head.compare other <;> rfl

instance : Std.TransCmp compareComponents := by
  rw [compareComponents_eq]
  infer_instance

instance : Std.TransCmp compare := transCmp_on compareComponents components

instance : Std.LawfulEqCmp Component.compare where
  eq_of_compare {first second} tied := by
    cases first <;> cases second
    case normal.normal name other =>
      have names : Ord.compare name other = .eq := tied
      exact congrArg Component.normal (Std.LawfulEqCmp.eq_of_compare names)
    case root.root | current.current | parent.parent => rfl
    all_goals exact absurd tied (by simp [Component.compare, Component.rank])

instance : Std.LawfulEqCmp compareComponents := by
  rw [compareComponents_eq]
  infer_instance

/-- Two texts are tied in the order exactly if they are the same path. -/
theorem compare_eq_iff {first second : String} :
    compare first second = .eq ↔ same first second = true := by
  rw [compare, Std.LawfulEqCmp.compare_eq_iff_eq, same, beq_iff_eq]

theorem le_eq : le = fun first second => (compare first second).isLE := by
  funext first second
  rw [le]
  cases compare first second <;> rfl

end Path

/-! ### Sorting -/

/-- **A list is sorted by an order**: nothing is lost or added, earlier items come first, and items
that the order does not tell apart stay as they were. -/
structure StablySortedBy {α : Type} (order : α → α → Ordering) (items sorted : List α) : Prop where
  perm : sorted.Perm items
  inOrder : sorted.Pairwise fun first second => (order first second).isLE = true
  stable : ∀ item, sorted.filter (fun other => order item other == .eq) =
    items.filter fun other => order item other == .eq

theorem stablySortedBy_mergeSort {α : Type} (order : α → α → Ordering) [Std.TransCmp order]
    (items : List α) :
    StablySortedBy order items (items.mergeSort fun first second => (order first second).isLE) := by
  have trans : ∀ first second third, (order first second).isLE = true →
      (order second third).isLE = true → (order first third).isLE = true :=
    fun _ _ _ before after => Std.TransCmp.isLE_trans before after
  have total : ∀ first second,
      ((order first second).isLE || (order second first).isLE) = true := by
    intro first second
    rw [@Std.OrientedCmp.eq_swap _ order _ second first]
    cases order first second <;> rfl
  refine ⟨List.mergeSort_perm _ _, List.pairwise_mergeSort trans total items, fun item => ?_⟩
  rw [filter_mergeSort trans total]
  -- Items that are tied with one item are tied with one another.
  refine List.mergeSort_of_pairwise (List.pairwise_of_forall_mem_list ?_)
  intro first firstMember second secondMember
  have firstTied := (List.mem_filter.mp firstMember).2
  have secondTied := (List.mem_filter.mp secondMember).2
  rw [beq_iff_eq] at firstTied secondTied
  refine trans first item second ?_ (by rw [secondTied]; rfl)
  rw [@Std.OrientedCmp.eq_swap _ order _ first item, firstTied]
  rfl

end RecipeLint
