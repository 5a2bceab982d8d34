/-
**The loops behind a walk and a visit.**

A walk keeps the nodes that it has still to yield on a stack, puts the children of each node that it
yields there from the last to the first, and ends when the stack is empty. A visit goes down the
tree with one list of the nodes around, which is lengthened by a node before its children are
visited and cut back behind them; what the looks at the nodes come to is gathered in one outcome.
Both are shown here to be what the rest of the library says they are: the recursive listing of the
tree, and the evaluation of its visits.

* `Node.Walk.next?`, `Node.Walk.Yields` — the steps of a walk, and a walk that ends.
* `Visit.inPlace` — the visit with one list of the nodes around.
* `Visit.run_inPlace` — it shows the visits of a tree in their order and leaves the list as it was.
* `Evaluator.evaluateInPlace_eq` — an evaluation that gathers while it visits.
* `Evaluator.traversal_isPreorder` — the order of a walk and of a visit, position by position.
-/

import RecipeLint.Proofs.Node.Positions

namespace RecipeLint

/-! ### Walks -/

namespace Node

/-- A walk that goes on: the nodes still to be taken, the next one last. -/
structure Walk where
  /-- The stack. -/
  pending : List Node

namespace Walk

/-- A walk through a tree before its first step. -/
def start (root : Node) : Walk := ⟨[root]⟩

/-- A step: takes the last node off the stack and puts its children there, the first one last. -/
def next? (walk : Walk) : Option (Node × Walk) :=
  walk.pending.getLast?.map fun node =>
    (node, ⟨walk.pending.dropLast ++ node.children.reverse⟩)

/-- **A walk yields these nodes, one in each step, and ends.** -/
inductive Yields : Walk → List Node → Prop
  | ended {walk : Walk} (none : walk.next? = none) : Yields walk []
  | step {walk after : Walk} {node : Node} {nodes : List Node}
      (next : walk.next? = some (node, after)) (later : Yields after nodes) :
      Yields walk (node :: nodes)

theorem Yields.unique {walk : Walk} {first second : List Node} (one : walk.Yields first)
    (other : walk.Yields second) : first = second := by
  induction one generalizing second with
  | ended none =>
    cases other with
    | ended => rfl
    | step next => rw [none] at next; cases next
  | step next later ih =>
    cases other with
    | ended none => rw [none] at next; cases next
    | step next' later' =>
      rw [next] at next'
      cases next'
      rw [ih later']

/-- The step of a walk with a node on top of its stack. -/
theorem next?_cons (node : Node) (stack : List Node) :
    next? ⟨(node :: stack).reverse⟩ = some (node, ⟨(node.children ++ stack).reverse⟩) := by
  rw [next?, List.reverse_cons, List.getLast?_concat, List.dropLast_concat, List.reverse_append]
  rfl

/-- **A walk ends whatever is on its stack**: each step takes a node off the trees on it. -/
theorem yields_drain (stack : List Node) : Yields ⟨stack.reverse⟩ (drain stack) := by
  fun_induction drain stack with
  | case1 => exact .ended rfl
  | case2 kind span children stack ih => exact .step (next?_cons _ _) ih

theorem yields_start_iff {root : Node} {nodes : List Node} :
    (start root).Yields nodes ↔ nodes = root.walk := by
  have ends : (start root).Yields root.walk := yields_drain [root]
  exact ⟨fun yields => yields.unique ends, fun same => same ▸ ends⟩

end Walk

end Node

/-! ### Visits -/

namespace Visit

section InPlace

variable {m : Type → Type} [Monad m] (act : Visit → m Unit)

mutual

/-- Visits a tree with one list of the nodes around, which holds a node while its children are
visited. -/
def inPlace : Node → StateT (List Node) m Unit
  | ⟨kind, span, children⟩ => do
    act ⟨⟨kind, span, children⟩, ← get⟩
    modify fun around => around ++ [⟨kind, span, children⟩]
    inPlaceAll children
    modify List.dropLast

/-- Visits several trees, one after the other. -/
def inPlaceAll : List Node → StateT (List Node) m Unit
  | [] => pure ()
  | node :: nodes => do
    inPlace node
    inPlaceAll nodes

end

variable [LawfulMonad m]

mutual

/-- **A visit in place shows the visits of a tree in their order**, whatever is done with them, and
leaves the list of the nodes around as it was. -/
theorem run_inPlace (around : List Node) : ∀ root : Node,
    (inPlace act root).run around = do
      (below around root).forM act
      pure ((), around)
  | ⟨kind, span, children⟩ => by
    have inner := run_inPlaceAll (around ++ [⟨kind, span, children⟩]) children
    simp only [inPlace, below, StateT.run_bind, StateT.run_get, StateT.run_modify, pure_bind,
      StateT.run_monadLift, monadLift_self, List.forM_eq_forM, List.forM_cons, bind_assoc, inner,
      List.dropLast_concat]

theorem run_inPlaceAll (around : List Node) : ∀ nodes : List Node,
    (inPlaceAll act nodes).run around = do
      (belowAll around nodes).forM act
      pure ((), around)
  | [] => by
    simp only [inPlaceAll, belowAll, StateT.run_pure, List.forM_eq_forM, List.forM_nil, pure_bind]
  | node :: nodes => by
    have first := run_inPlace around node
    have others := run_inPlaceAll around nodes
    simp only [inPlaceAll, belowAll, StateT.run_bind, first, others, List.forM_eq_forM,
      List.forM_append, bind_assoc, pure_bind]

end

end InPlace

/-- Writes a visit down. -/
def record (visit : Visit) : StateM (List Visit) Unit :=
  modify fun shown => shown ++ [visit]

theorem run_forM_record (visits shown : List Visit) :
    (visits.forM record).run shown = ((), shown ++ visits) := by
  induction visits generalizing shown with
  | nil => exact congrArg (Prod.mk ()) (List.append_nil shown).symm
  | cons visit visits ih =>
    rw [List.append_cons]
    exact ih (shown ++ [visit])

theorem run_inPlace_record (root : Node) :
    ((inPlace record root).run []).run [] = (((), []), all root) := by
  rw [run_inPlace, StateT.run_bind, run_forM_record, List.nil_append, ← all]
  rfl

theorem map_at?_positions (root : Node) :
    root.positions.map root.at? = root.preorder.map some := by
  rw [← Node.walk_eq_preorder, ← map_node_all, List.map_map, ← List.forall₂_eq_eq_eq,
    List.forall₂_map_left_iff, List.forall₂_map_right_iff]
  exact (all_areAt root).imp fun position visit isAt => isAt.node

end Visit

/-! ### Evaluations -/

namespace Evaluation

theorem append_assoc (first second third : Evaluation) :
    (first.append second).append third = first.append (second.append third) := by
  simp only [append, List.append_assoc]

theorem append_nothing (evaluation : Evaluation) : evaluation.append {} = evaluation := by
  simp only [append, List.append_nil]

theorem nothing_append (evaluation : Evaluation) : append {} evaluation = evaluation := rfl

end Evaluation

namespace Evaluator

/-- Shows a node to a rule and adds what comes of it to what has been gathered. -/
def lookInPlace (evaluator : Evaluator) (file : SourceFile) (directives : Directives)
    (visit : Visit) (rule : Rule) : StateT Evaluation (Except Overflow) Unit := do
  let found ← evaluator.look file directives visit rule
  modify fun gathered => gathered.append found

/-- An evaluation that gathers what it finds while it visits the tree in place. -/
def evaluateInPlace (evaluator : Evaluator) (file : SourceFile) (root : Node) :
    Except Overflow Evaluation := do
  let active := (evaluator.activeRules file).map (·.name)
  if active.isEmpty then return {}
  let directives := Directives.scan file.content
  let visiting := Visit.inPlace (fun visit =>
    (evaluator.rulesAt active visit.node).forM (evaluator.lookInPlace file directives visit)) root
  let (_, found) ← (visiting.run []).run {}
  return { found with offenses := found.offenses.mergeSort startsNoLater }

/-- Steps that add what they come to gather what the steps come to one after the other. -/
theorem run_forM_eq_collect {α : Type} {act : α → StateT Evaluation (Except Overflow) Unit}
    {step : α → Except Overflow Evaluation}
    (adds : ∀ item gathered,
      (act item).run gathered = step item >>= fun found => pure ((), gathered.append found))
    (items : List α) (gathered : Evaluation) :
    (items.forM act).run gathered =
      collect step items >>= fun found => pure ((), gathered.append found) := by
  induction items generalizing gathered with
  | nil =>
    show Except.ok ((), gathered) = Except.ok ((), gathered.append {})
    rw [gathered.append_nothing]
  | cons item items ih =>
    rw [List.forM_eq_forM] at ih ⊢
    rw [List.forM_cons, StateT.run_bind, adds, collect]
    simp only [ih, bind_assoc, pure_bind, Evaluation.append_assoc]

theorem run_lookInPlace (evaluator : Evaluator) (file : SourceFile) (directives : Directives)
    (visit : Visit) (rule : Rule) (gathered : Evaluation) :
    (evaluator.lookInPlace file directives visit rule).run gathered =
      evaluator.look file directives visit rule >>=
        fun found => pure ((), gathered.append found) := by
  simp only [lookInPlace, StateT.run_bind, StateT.run_monadLift, StateT.run_modify, bind_assoc,
    pure_bind]
  rfl

/-- **An evaluation that gathers while it visits in place comes to the same.** -/
theorem evaluateInPlace_eq (evaluator : Evaluator) (file : SourceFile) (root : Node) :
    evaluator.evaluateInPlace file root = evaluator.evaluate file root := by
  unfold evaluateInPlace evaluate
  simp only
  split
  next => rfl
  next =>
    have rules := fun visit : Visit => run_forM_eq_collect
      (evaluator.run_lookInPlace file (Directives.scan file.content) visit)
      (evaluator.rulesAt ((evaluator.activeRules file).map (·.name)) visit.node)
    have visits := run_forM_eq_collect rules (Visit.all root) {}
    rw [Visit.run_inPlace, StateT.run_bind, ← Visit.all, visits]
    simp only [Evaluation.nothing_append, bind_assoc, pure_bind, StateT.run_pure]

/-- **A walk ends and lists a tree in preorder, and an evaluation visits the nodes in this order
with the nodes on the way to them.** The listing has the node at each position of the tree once, in
the order of positions: a node before all below it, and what is below a child before what is below a
later one. The visit in place shows the same nodes, each with those from the root down to its
parent, and has nothing left around at its end; gathering while it goes on is what an evaluation
does. -/
theorem traversal_isPreorder (root : Node) :
    (∀ nodes, (Node.Walk.start root).Yields nodes ↔ nodes = root.preorder) ∧
      root.walk = root.preorder ∧
      root.preorder.map some = root.positions.map root.at? ∧
      (∀ position, position ∈ root.positions ↔ (root.at? position).isSome = true) ∧
      root.positions.Pairwise (· < ·) ∧
      ((Visit.inPlace Visit.record root).run []).run [] = (((), []), Visit.all root) ∧
      (Visit.all root).map (·.node) = root.preorder ∧
      List.Forall₂ (Visit.IsAt root) root.positions (Visit.all root) ∧
      ∀ (evaluator : Evaluator) (file : SourceFile),
        evaluator.evaluateInPlace file root = evaluator.evaluate file root := by
  have listing := root.walk_eq_preorder
  refine ⟨fun nodes => ?_, listing, (Visit.map_at?_positions root).symm,
    fun position => Node.mem_positions, root.positions_ascend, Visit.run_inPlace_record root,
    listing ▸ Visit.map_node_all root, Visit.all_areAt root,
    fun evaluator file => evaluator.evaluateInPlace_eq file root⟩
  rw [Node.Walk.yields_start_iff, listing]

end Evaluator

end RecipeLint
