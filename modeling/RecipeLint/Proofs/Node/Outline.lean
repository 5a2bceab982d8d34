/-
**What a tree says.**

Two texts may say the same although it stands elsewhere in them, with other comments in between. The
outline of a tree leaves out where its nodes stand, and its comments. What is called in a tree can
be read off its outline.

* `Node.outline` — the outline of a tree.
* `Node.calledNames` — the methods that are called in a tree, in the order of a walk.
* `Node.calledOutside` — the same, without the calls of one method and all that stands below them.
* `Node.filterMap_outlines`, `Node.calledOutsideAll_outlines` — they are those of the outline.
-/

import RecipeLint.Proofs.Evaluation.Order

namespace RecipeLint

/-- What a node is and carries, wherever it stands. -/
def NodeKind.unplaced : NodeKind → NodeKind
  | .call method _ hasReceiver count => .call method (.empty 0) hasReceiver count
  | kind => kind

namespace Node

mutual

/-- **What a tree says**, without its comments and wherever it stands. -/
def outline : Node → Node
  | ⟨kind, _, children⟩ => ⟨kind.unplaced, .empty 0, outlines children⟩

/-- What several trees say. Of a comment there is only what stands below it. -/
def outlines : List Node → List Node
  | [] => []
  | node :: nodes =>
    (if node.tag = .comment then node.outline.children else [node.outline]) ++ outlines nodes

end

/-- The methods that are called in a tree, in the order of a walk. -/
def calledNames (root : Node) : List String :=
  root.walk.filterMap methodName?

mutual

/-- The methods that are called in a tree, without the calls of one of them and all that stands
below these. -/
def calledOutside (method : String) : Node → List String
  | ⟨kind, span, children⟩ =>
    if methodName? ⟨kind, span, children⟩ = some method then []
    else (methodName? ⟨kind, span, children⟩).toList ++ calledOutsideAll method children

/-- The same for several trees, one after the other. -/
def calledOutsideAll (method : String) : List Node → List String
  | [] => []
  | node :: nodes => calledOutside method node ++ calledOutsideAll method nodes

end

/-! ### Outlines -/

@[simp] theorem tag_outline (node : Node) : node.outline.tag = node.tag := by
  obtain ⟨kind, span, children⟩ := node
  cases kind <;> rfl

@[simp] theorem methodName?_outline (node : Node) :
    node.outline.methodName? = node.methodName? := by
  obtain ⟨kind, span, children⟩ := node
  cases kind <;> rfl

theorem tag_of_methodName? {node : Node} {name : String} (called : node.methodName? = some name) :
    node.tag = .call := by
  obtain ⟨kind, span, children⟩ := node
  cases kind <;> first | rfl | cases called

theorem methodName?_of_comment {node : Node} (comment : node.tag = .comment) :
    node.methodName? = none :=
  Option.eq_none_iff_forall_ne_some.mpr fun _ called => by
    rw [tag_of_methodName? called] at comment
    cases comment

theorem outlines_append (first second : List Node) :
    outlines (first ++ second) = outlines first ++ outlines second := by
  induction first with
  | nil => rfl
  | cons node nodes ih => rw [List.cons_append, outlines, outlines, ih, List.append_assoc]

/-! ### Calls -/

theorem calledNames_eq (root : Node) : root.calledNames = root.preorder.filterMap methodName? := by
  rw [calledNames, walk_eq_preorder]

theorem preorder_eq_cons (node : Node) : node.preorder = node :: preorderAll node.children := by
  cases node
  rfl

mutual

theorem filterMap_outline : ∀ node : Node,
    node.outline.preorder.filterMap methodName? = node.preorder.filterMap methodName?
  | ⟨kind, span, children⟩ => by
    have below := filterMap_outlines children
    have here : methodName? ⟨kind.unplaced, .empty 0, outlines children⟩ =
        methodName? ⟨kind, span, children⟩ := methodName?_outline ⟨kind, span, children⟩
    rw [outline, preorder, preorder, List.filterMap_cons, List.filterMap_cons, below, here]

theorem filterMap_outlines : ∀ nodes : List Node,
    (preorderAll (outlines nodes)).filterMap methodName? =
      (preorderAll nodes).filterMap methodName?
  | [] => rfl
  | node :: nodes => by
    have here := filterMap_outline node
    have others := filterMap_outlines nodes
    rw [outlines, preorderAll_append, preorderAll, List.filterMap_append, List.filterMap_append,
      others]
    congr 1
    split
    next isComment =>
      -- a comment calls nothing itself
      have quiet : node.outline.methodName? = none := by
        rw [methodName?_outline]
        exact methodName?_of_comment isComment
      rw [← here, preorder_eq_cons node.outline, List.filterMap_cons, quiet]
    next => rw [preorderAll, preorderAll, List.append_nil, here]

end

/-! ### Calls outside of others -/

theorem calledOutside_eq (method : String) (node : Node) :
    node.calledOutside method =
      if node.methodName? = some method then []
      else node.methodName?.toList ++ calledOutsideAll method node.children := by
  cases node
  rfl

mutual

/-- No call of the method is left. -/
theorem not_mem_calledOutside (method : String) : ∀ node : Node,
    method ∉ node.calledOutside method
  | ⟨kind, span, children⟩ => by
    have below := not_mem_calledOutsideAll method children
    rw [calledOutside]
    split
    next => exact List.not_mem_nil
    next other =>
      refine fun member => (List.mem_append.mp member).elim (fun named => other ?_) below
      exact Option.mem_toList.mp named

theorem not_mem_calledOutsideAll (method : String) : ∀ nodes : List Node,
    method ∉ calledOutsideAll method nodes
  | [] => List.not_mem_nil
  | node :: nodes => by
    rw [calledOutsideAll]
    exact fun member => (List.mem_append.mp member).elim (not_mem_calledOutside method node)
      (not_mem_calledOutsideAll method nodes)

end

theorem calledOutsideAll_append (method : String) (first second : List Node) :
    calledOutsideAll method (first ++ second) =
      calledOutsideAll method first ++ calledOutsideAll method second := by
  induction first with
  | nil => rfl
  | cons node nodes ih =>
    rw [List.cons_append, calledOutsideAll, calledOutsideAll, ih, List.append_assoc]

mutual

theorem calledOutside_outline (method : String) : ∀ node : Node,
    node.outline.calledOutside method = node.calledOutside method
  | ⟨kind, span, children⟩ => by
    have below := calledOutsideAll_outlines method children
    have here := methodName?_outline ⟨kind, span, children⟩
    rw [calledOutside_eq, calledOutside_eq, here]
    simp only [outline, below]

theorem calledOutsideAll_outlines (method : String) : ∀ nodes : List Node,
    calledOutsideAll method (outlines nodes) = calledOutsideAll method nodes
  | [] => rfl
  | node :: nodes => by
    have here := calledOutside_outline method node
    have others := calledOutsideAll_outlines method nodes
    rw [outlines, calledOutsideAll_append, calledOutsideAll, others]
    congr 1
    split
    next isComment =>
      have quiet : node.outline.methodName? = none := by
        rw [methodName?_outline]
        exact methodName?_of_comment isComment
      rw [← here, calledOutside_eq, quiet, if_neg nofun]
      rfl
    next => rw [calledOutsideAll, calledOutsideAll, List.append_nil, here]

end

mutual

/-- Where a method is not called, all calls are outside of its calls. -/
theorem calledOutside_of_not_mem (method : String) : ∀ node : Node,
    method ∉ node.preorder.filterMap methodName? →
      node.calledOutside method = node.preorder.filterMap methodName?
  | ⟨kind, span, children⟩, absent => by
    have below := calledOutsideAll_of_not_mem method children
    rw [preorder, List.filterMap_cons] at absent ⊢
    rw [calledOutside]
    cases named : methodName? ⟨kind, span, children⟩ with
    | none =>
      rw [named] at absent
      rw [if_neg nofun, below absent]
      rfl
    | some name =>
      rw [named] at absent
      simp only [List.mem_cons, not_or] at absent
      rw [if_neg fun same => absent.1 (Option.some.inj same).symm, below absent.2]
      rfl

theorem calledOutsideAll_of_not_mem (method : String) : ∀ nodes : List Node,
    method ∉ (preorderAll nodes).filterMap methodName? →
      calledOutsideAll method nodes = (preorderAll nodes).filterMap methodName?
  | [], _ => rfl
  | node :: nodes, absent => by
    rw [preorderAll, List.filterMap_append, List.mem_append, not_or] at absent
    rw [calledOutsideAll, preorderAll, List.filterMap_append,
      calledOutside_of_not_mem method node absent.1,
      calledOutsideAll_of_not_mem method nodes absent.2]

end

end Node

end RecipeLint
