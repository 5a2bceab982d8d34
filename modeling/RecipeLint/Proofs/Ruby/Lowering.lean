/-
**Lowering keeps what rules rely on.**

Lowering cuts calls off before their blocks, moves comments behind arguments, takes statements out
of their wrappers and drops parameters. What comes out of a well nested concrete tree is sound.

* `Ruby.combine_isFaithful` — one step of lowering, by the kind of the construct.
* `Ruby.lower_isFaithful` — all steps.
* `Ruby.parse_isSound` — the tree made of a text is sound, whatever well nested concrete tree the
  text has. Nodes lie inside the node around them, but for a comment between the end of a call and
  its block.
* `Sample.comment_behind_call` — such a comment is a child of the call and lies outside of it.
-/

import RecipeLint.Proofs.Evaluation.Order
import RecipeLint.Proofs.Ruby.Call
import RecipeLint.Ruby.Parse

namespace RecipeLint

namespace Ruby

/-! ### All constructs -/

/-- The text of a range that is a part of the text. -/
theorem slice?_eq_textOf {source : List Char} {span : Span} (cuts : span.CutsOut source) :
    Text.slice? source span.start span.stop = some (textOf source span) := by
  obtain ⟨before, inside, after, rfl, startAt, stopAt⟩ := cuts
  have slice := Text.slice?_append before inside after
  rw [stopAt, startAt] at slice
  rw [textOf, slice, Option.getD_some]

section Combine

variable {source : List Char} {role : Option Role} {kind : Kind} {span : Span}
  {parts : List Lowered}
  (nested : (Tree.node role kind span (parts.map (·.tree))).WellNested source)
  (each : ∀ part ∈ parts, part.IsFaithful source)

include nested each

/-- A constant with its scope, if it has one. -/
theorem const_allSound (name : String) (rooted : Bool) {scope : Option Lowered}
    (found : ∀ part ∈ scope, part ∈ parts) :
    (Node.mk (.const name rooted) span (scope.toList.map (·.node))).AllSound source := by
  refine Node.AllSound.of_children ⟨nested.cuts, ?_, nofun, nofun, fun _ => ?_, nofun, nofun⟩ ?_
  · refine List.forall_mem_map.mpr fun part member => Or.inl ?_
    exact node_inside nested each (found part (Option.mem_toList.mp member))
  · cases scope <;> simp
  · refine List.forall_mem_map.mpr fun part member => ?_
    exact (each part (found part (Option.mem_toList.mp member))).sound

/-- All nodes that one step makes are sound. -/
theorem combine_allSound (locals : List String) (parent : Kind) :
    (combine source locals parent role kind span parts).AllSound source := by
  unfold combine
  split
  case h_1 =>
    refine leaf_allSound nested.cuts nofun nofun ?_
    rintro text ⟨⟩
    rw [String.toList_ofList]
    exact slice?_eq_textOf nested.cuts
  case h_2 => exact lowerCall_allSound nested each
  case h_3 =>
    dsimp only
    split
    · exact leaf_allSound nested.cuts nofun nofun nofun
    · refine leaf_allSound nested.cuts nofun ?_ nofun
      rintro method methodSpan hasReceiver count ⟨⟩
      exact ⟨rfl, rfl, rfl⟩
  case h_4 => exact leaf_allSound nested.cuts nofun nofun nofun
  case h_5 =>
    dsimp only
    split
    · exact other_allSound nested each _
    · exact const_allSound nested each _ _ fun part member => inRole?_mem member
  case h_6 =>
    dsimp only
    split
    · exact other_allSound nested each _
    · exact leaf_allSound nested.cuts nofun nofun nofun
  case h_7 => exact other_allSound nested each _

omit each in
/-- A node covers the range of its construct; only a call ends before its block. -/
theorem combine_inside (locals : List String) (parent : Kind) :
    (combine source locals parent role kind span parts).span.Inside span := by
  unfold combine
  split
  case h_2 => exact lowerCall_inside nested
  all_goals
    dsimp only
    repeat' split
    all_goals exact Span.Inside.refl span

/-- **One step of lowering**: if the parts of a construct are lowered faithfully, so is the
construct. -/
theorem combine_isFaithful (locals : List String) (parent : Kind) :
    (Lowered.mk (.node role kind span (parts.map (·.tree)))
      (combine source locals parent role kind span parts) parts).IsFaithful source := by
  refine .mk nested rfl (combine_inside nested locals parent) ?_
    (combine_allSound nested each locals parent) each
  intro comment
  have isComment : kind = .comment := by simpa [Tree.is, Tree.kind] using comment
  subst isComment
  rfl

end Combine

theorem map_tree_lowerAll (source : List Char) (locals : List String) (parent : Kind)
    (trees : List Tree) : (Tree.lowerAll source locals parent trees).map (·.tree) = trees := by
  induction trees with
  | nil => rfl
  | cons tree trees ih =>
    obtain ⟨role, kind, span, parts⟩ := tree
    rw [Tree.lowerAll, List.map_cons, ih, Tree.lower, Lowered.tree]

mutual

/-- **A well nested tree is lowered faithfully.** -/
theorem lower_isFaithful {source : List Char} (locals : List String) (parent : Kind) :
    ∀ tree : Tree, tree.WellNested source → (tree.lower source locals parent).IsFaithful source
  | .node role kind span parts, nested => by
    have each := lowerAll_isFaithful locals kind parts fun part member => nested.part member
    have same := map_tree_lowerAll source locals kind parts
    rw [← same] at nested
    have step := combine_isFaithful nested each locals parent
    rw [same] at step
    exact step

theorem lowerAll_isFaithful {source : List Char} (locals : List String) (parent : Kind) :
    ∀ trees : List Tree, (∀ tree ∈ trees, tree.WellNested source) →
      ∀ lowered ∈ Tree.lowerAll source locals parent trees, lowered.IsFaithful source
  | [], _ => nofun
  | tree :: trees, nested => by
    obtain ⟨here, others⟩ := List.forall_mem_cons.mp nested
    exact List.forall_mem_cons.mpr
      ⟨lower_isFaithful locals parent tree here, lowerAll_isFaithful locals parent trees others⟩

end

/-- The tree of a text covers all of it, and its nodes are sound. -/
theorem lowerProgram_allSound {source : List Char} {tree : Tree} (nested : tree.WellNested source) :
    (lowerProgram source tree).AllSound source := by
  have each := lowerAll_isFaithful (Tree.localsAll source tree.kind tree.parts) tree.kind tree.parts
    fun part member => nested.part member
  refine Node.AllSound.of_children (Node.IsSound.of_plain ?_ ?_ (Or.inl rfl)) ?_
  · exact ⟨[], source, [], by simp, rfl, Nat.zero_add _⟩
  · refine List.forall_mem_map.mpr fun part member => ?_
    have cuts := (each part member).sound _ (Node.mem_preorder.mpr (Or.inl rfl)) |>.cuts
    exact ⟨Nat.zero_le _, cuts.stop_le⟩
  · exact List.forall_mem_map.mpr fun part member => (each part member).sound

/-- **Lowering makes a sound tree** of every well nested concrete tree over a text, whoever read it,
and its root is the whole text. It is the answer for the text where the concrete tree is the one
that the text is read to. -/
theorem parse_isSound (text : String) (tree : Tree) (nested : tree.WellNested text.toList) :
    (lowerProgram text.toList tree).kind = .program ∧
      (lowerProgram text.toList tree).span = ⟨0, Text.size text.toList⟩ ∧
      (∀ node ∈ (lowerProgram text.toList tree).walk, node.IsSound text.toList) ∧
      (readProgram text.toList = .ok tree → parse text = .ok (lowerProgram text.toList tree)) := by
  refine ⟨rfl, rfl, ?_, fun read => ?_⟩
  · rw [Node.walk_eq_preorder]
    exact lowerProgram_allSound nested
  · rw [parse, read]

end Ruby

namespace Sample

/-- A text with a block, two calls, a constant, a string and a comment. -/
def blockText : String := "a.b 'x' do # c\n  D::E.f(1)\nend\n"

/-- A comment between the arguments of a call and its block. -/
def commentText : String := "[f(1) # c\n {}]"

/-- A value that passes a test. -/
theorem exists_ok {ε α : Type} {answer : Except ε α} {holds : α → Bool}
    (passes : answer.toOption.any holds = true) :
    ∃ value, answer = .ok value ∧ holds value = true := by
  cases answer with
  | error cause => cases passes
  | ok value => exact ⟨value, rfl, passes⟩

theorem blockText_isSound : ∃ tree root, Ruby.readProgram blockText.toList = .ok tree ∧
    tree.WellNested blockText.toList ∧ Ruby.parse blockText = .ok root ∧
      ∀ node ∈ root.walk, node.IsSound blockText.toList := by
  obtain ⟨tree, read, nested⟩ : ∃ tree, Ruby.readProgram blockText.toList = .ok tree ∧
      decide (tree.WellNested blockText.toList) = true := exists_ok (by decide +kernel)
  rw [decide_eq_true_eq] at nested
  obtain ⟨-, -, sound, parsed⟩ := Ruby.parse_isSound blockText tree nested
  exact ⟨tree, _, read, nested, parsed read, sound⟩

/-- **A child may lie outside of its parent**: the comment is a child of the call, which ends before
it. -/
theorem comment_behind_call : ∃ tree root, Ruby.readProgram commentText.toList = .ok tree ∧
    tree.WellNested commentText.toList ∧ Ruby.parse commentText = .ok root ∧
      ∃ node ∈ root.walk, ∃ child ∈ node.children, ¬ child.span.Inside node.span := by
  obtain ⟨tree, read, nested⟩ : ∃ tree, Ruby.readProgram commentText.toList = .ok tree ∧
      decide (tree.WellNested commentText.toList) = true := exists_ok (by decide +kernel)
  obtain ⟨root, parsed, outside⟩ : ∃ root, Ruby.parse commentText = .ok root ∧
      decide (∃ node ∈ root.preorder, ∃ child ∈ node.children, ¬ child.span.Inside node.span) =
        true := exists_ok (by decide +kernel)
  rw [decide_eq_true_eq] at nested outside
  rw [← Node.walk_eq_preorder] at outside
  exact ⟨tree, root, read, nested, parsed, outside⟩

end Sample

end RecipeLint
