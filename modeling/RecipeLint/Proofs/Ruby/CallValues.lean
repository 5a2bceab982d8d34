/-
**Calls as values.**

A call is a value that is read the same wherever it stands. If its arguments stand without
parentheses it is none: then it takes what follows a comma as well.

* `Call.span_lower` — the node of a call covers all of it.
* `Value.call` — the call as a value.
* `Call.opens` — it can stand behind a key.
-/

import RecipeLint.Proofs.Ruby.CallNodes
import RecipeLint.Proofs.Ruby.Values

namespace RecipeLint.Ruby

namespace Call

variable (call : Call)

/-- A call ends with its arguments, or with its name. -/
theorem size_text : Text.size call.text = (call.passed.tree?.map (·.span.stop)).getD 0 +
    (Text.size call.receiver.text + Text.size call.name.text) := by
  rw [call.passed.stop_tree]
  simp only [text, Text.size_append]
  omega

theorem span_tree : call.tree.span = ⟨0, Text.size call.text⟩ := by
  refine span_callTree (fun none => ?_) fun none => ?_
  · rw [Receiver.text_of_tree? none]
    rfl
  · rw [call.size_text, none]
    exact Nat.zero_add _

/-- **The node of a call covers all of it**, whatever the call is a part of. -/
theorem span_lower (source : List Char) (names : List String) (parent : Kind) :
    (call.tree.lower source names parent).node.span = ⟨0, Text.size call.text⟩ := by
  have alone : Tree.node none call.tree.kind call.tree.span call.tree.parts = call.tree := by
    unfold tree callTree calleeTree
    split
    · split <;> rfl
    · rfl
  have covers : ((Tree.node none call.tree.kind call.tree.span call.tree.parts).lower source names
      parent).node.span = call.tree.span :=
    span_lower_callTree call.size_text none source names parent
  rw [← call.span_tree, ← covers, alone]

theorem noComment_tree : call.tree.is .comment = false := by
  unfold tree callTree calleeTree
  split
  · split <;> rfl
  · rfl

end Call

/-- **A call as a value**, unless its arguments stand without parentheses. -/
def Value.call (call : Call) (closed : call.passed.isCommand = false) : Value where
  text := call.text
  tree := call.tree
  starts := by
    obtain ⟨c, more, same, small⟩ := call.text_eq_cons
    have noSign : Reader.pairSigns.contains c = false := not_contains_of_lower small (by decide)
    rw [same]
    show (startsListed c && !Reader.pairSigns.contains c) = true
    rw [startsListed_of_lower small, noSign]
    rfl
  within := call.within_tree
  noComment := call.noComment_tree
  covers := call.span_lower call.text
  noKey ends := by
    obtain ⟨more, same, behind, noColon⟩ := call.exists_rest ends
    rw [same]
    exact MethodName.argumentKeyOf_append behind noColon
  reads context bound depth cursor rest here free quiet enough deep := by
    obtain ⟨more, same, behind, -⟩ := call.exists_rest quiet.head
    have fits (command : call.passed.isCommand = true) : context = statementContext := by
      rw [closed] at command
      cases command
    have room : depth + 2 ≤ depth + nestingPerCharacter := Nat.add_le_add_left (by decide) _
    obtain ⟨after, read, takes⟩ :=
      Reader.call_ok fits here free quiet enough (Nat.le_trans deep room)
    rw [closed] at read
    exact ⟨after, (Reader.operandHead_name (here.trans same) behind).trans read, takes⟩

/-- A call can stand behind a key, if it starts with no word that goes on with what stands
before. -/
theorem Call.opens (call : Call) {context : Context} {rest : List Char}
    (alone : context.plain.hasFollower (String.ofList call.firstName.text) = false)
    (ends : ∀ c ∈ rest.head?, endsExpression c = true) :
    startsOperand context.plain (call.text ++ rest) = true := by
  obtain ⟨more, same, behind, -⟩ := call.exists_rest ends
  rw [same]
  exact Reader.startsOperand_name behind alone

end RecipeLint.Ruby
