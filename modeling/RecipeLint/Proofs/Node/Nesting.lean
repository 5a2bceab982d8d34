/-
**Ranges and nodes inside one another.**

Rules compute the places of their edits from the ranges of nodes and from the counts that a call
carries, and check neither. This is what they rely on.

* `Span.Inside` — a range lies inside another.
* `Node.mem_preorder` — the nodes of a tree are its root and the nodes below it.
* `Node.IsSound` — what rules can rely on in a node of the tree of a text.
* `Node.AllSound.of_children` — a tree is sound if its root and the trees below are.
-/

import RecipeLint.Node
import RecipeLint.Proofs.Patch.Acceptance

namespace RecipeLint

/-! ### Ranges inside one another -/

namespace Span

/-- A range lies inside another. -/
def Inside (inner outer : Span) : Prop :=
  outer.start ≤ inner.start ∧ inner.stop ≤ outer.stop

instance (inner outer : Span) : Decidable (inner.Inside outer) :=
  inferInstanceAs (Decidable (_ ∧ _))

theorem Inside.refl (span : Span) : span.Inside span :=
  ⟨Nat.le_refl _, Nat.le_refl _⟩

theorem Inside.trans {first second third : Span} (inner : first.Inside second)
    (outer : second.Inside third) : first.Inside third :=
  ⟨Nat.le_trans outer.1 inner.1, Nat.le_trans inner.2 outer.2⟩

theorem CutsOut.isOrdered {text : List Char} {span : Span} (cuts : span.CutsOut text) :
    span.IsOrdered := by
  obtain ⟨before, inside, after, -, startAt, stopAt⟩ := cuts
  unfold IsOrdered
  omega

theorem CutsOut.at_start {text : List Char} {span : Span} (cuts : span.CutsOut text) :
    (empty span.start).CutsOut text := by
  obtain ⟨before, inside, after, whole, startAt, -⟩ := cuts
  exact ⟨before, [], inside ++ after, whole, startAt, startAt⟩

theorem CutsOut.at_stop {text : List Char} {span : Span} (cuts : span.CutsOut text) :
    (empty span.stop).CutsOut text := by
  obtain ⟨before, inside, after, rfl, -, stopAt⟩ := cuts
  rw [← Text.size_append] at stopAt
  exact ⟨before ++ inside, [], after, by simp, stopAt, stopAt⟩

/-- A text can be cut between any two places where it can be cut. -/
theorem CutsOut.between {text : List Char} {start stop : Nat} (first : (empty start).CutsOut text)
    (second : (empty stop).CutsOut text) (ordered : start ≤ stop) :
    CutsOut text ⟨start, stop⟩ := by
  obtain ⟨before, nothing, rest, whole, startAt, -⟩ := first
  obtain ⟨upTo, nothing', after, rfl, stopAt, -⟩ := second
  change Text.size before = start at startAt
  change Text.size upTo = stop at stopAt
  obtain ⟨inside, rfl, -⟩ := Text.exists_between whole.symm (by rw [startAt, stopAt]; exact ordered)
  rw [Text.size_append] at stopAt
  exact ⟨before, inside, nothing' ++ after, by simp, startAt, stopAt⟩

/-- Whether a range is cut out of a text can be computed. -/
instance (text : List Char) (span : Span) : Decidable (span.CutsOut text) :=
  decidable_of_iff (span.start ≤ span.stop ∧ span.isWithin text = true)
    ⟨fun ⟨ordered, within⟩ => (isWithin_iff ordered).mp within,
      fun cuts => ⟨cuts.isOrdered, (isWithin_iff cuts.isOrdered).mpr cuts⟩⟩

end Span

/-! ### Nodes -/

namespace Node

/-- **What holds of a call**: its receiver and its arguments are where it says, comments follow, and
its name lies inside of it. -/
structure IsSoundCall (node : Node) (methodSpan : Span) (hasReceiver : Bool) (count : Nat) :
    Prop where
  receiver : node.receiver?.isSome = hasReceiver
  arguments : ∃ arguments comments, node.arguments = .ok arguments ∧ arguments.length = count ∧
    node.children = node.receiver?.toList ++ (arguments ++ comments) ∧
    ∀ comment ∈ comments, comment.tag = .comment
  method : methodSpan.Inside node.span

/-- **What rules can rely on in a node** of the tree of a text. -/
structure IsSound (source : List Char) (node : Node) : Prop where
  /-- Its range is a part of the text. -/
  cuts : node.span.CutsOut source
  /-- A child lies inside of it, or is a comment behind the end of a call. -/
  inside : ∀ child ∈ node.children, child.span.Inside node.span ∨
    (node.tag = .call ∧ child.tag = .comment ∧ node.span.stop ≤ child.span.start)
  call : ∀ method methodSpan hasReceiver count,
    node.kind = .call method methodSpan hasReceiver count →
      node.IsSoundCall methodSpan hasReceiver count
  /-- The first child of a block is its call, which starts with it; what belongs to the call lies
  inside the block. -/
  block : node.kind = .block → ∃ call, node.blockCall? = some call ∧
    call.span.start = node.span.start ∧ ∀ child ∈ call.children, child.span.Inside node.span
  const : node.tag = .const → node.children.length ≤ 1
  leaf : node.tag = .str ∨ node.tag = .comment → node.children = []
  comment : ∀ text, node.kind = .comment text →
    Text.slice? source node.span.start node.span.stop = some text.toList

theorem receiver?_mk (method : String) (methodSpan span : Span) (receiver : Option Node)
    (count : Nat) (others : List Node) :
    receiver? ⟨.call method methodSpan receiver.isSome count, span, receiver.toList ++ others⟩ =
      receiver := by
  cases receiver <;> rfl

theorem arguments_mk (method : String) (methodSpan span : Span) (receiver : Option Node)
    {values : List Node} (comments : List Node) (few : values.length < maxWord) :
    arguments ⟨.call method methodSpan receiver.isSome values.length, span,
      receiver.toList ++ (values ++ comments)⟩ = .ok values := by
  cases receiver with
  | none =>
    have fits : addWords 0 values.length = .ok (0 + values.length) := if_pos (by omega)
    simp [arguments, fits, bind, Except.bind, pure, Except.pure]
  | some receiver =>
    have fits : addWords 1 values.length = .ok (values.length + 1) :=
      (if_pos (by omega)).trans (by rw [Nat.add_comm])
    simp [arguments, fits, bind, Except.bind, pure, Except.pure]

theorem mem_preorderAll {node : Node} {nodes : List Node} :
    node ∈ preorderAll nodes ↔ ∃ tree ∈ nodes, node ∈ tree.preorder := by
  induction nodes with
  | nil => simp [preorderAll]
  | cons tree nodes ih => simp [preorderAll, ih]

theorem mem_preorder {node root : Node} :
    node ∈ root.preorder ↔ node = root ∨ ∃ child ∈ root.children, node ∈ child.preorder := by
  obtain ⟨kind, span, children⟩ := root
  rw [preorder, List.mem_cons, mem_preorderAll]

/-- All nodes of a tree are sound. -/
def AllSound (source : List Char) (root : Node) : Prop :=
  ∀ node ∈ root.preorder, node.IsSound source

theorem AllSound.of_children {source : List Char} {root : Node} (own : root.IsSound source)
    (each : ∀ child ∈ root.children, child.AllSound source) : root.AllSound source := by
  intro node member
  rcases mem_preorder.mp member with rfl | ⟨child, childMember, below⟩
  · exact own
  · exact each child childMember node below

/-- A node of no special kind is sound if its children lie inside of it. -/
theorem IsSound.of_plain {source : List Char} {node : Node} (cuts : node.span.CutsOut source)
    (inside : ∀ child ∈ node.children, child.span.Inside node.span)
    (plain : node.tag = .program ∨ node.tag = .other) : node.IsSound source := by
  obtain ⟨kind, span, children⟩ := node
  refine ⟨cuts, fun child member => Or.inl (inside child member), ?_, ?_, ?_, ?_, ?_⟩
  all_goals cases kind <;> simp_all [tag]

end Node

end RecipeLint
