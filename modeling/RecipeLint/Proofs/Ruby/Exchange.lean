/-
**One statement for another.**

Where a statement of a program stands, another one may stand as well: what is before and behind it
stays laid out. In the tree of the program each statement has a node of its own, which for a call
says what the call says.

* `IsLaidOut.exchange` — a program with another statement in it.
* `AllFollow.exists_statement` — what has become of a statement in the tree of a program.
* `Call.exists_isSeen` — the node of a call that is a statement of a program.
-/

import RecipeLint.Proofs.Ruby.Bindings

namespace RecipeLint.Ruby

/-! ### Statements of a program -/

section Program

variable {front back : List Item} {given : Statement}

theorem layoutText_statement (front back : List Item) (given : Statement) :
    layoutText (front ++ .statement given :: back) =
      layoutText front ++ (given.text ++ layoutText back) := by
  rw [layoutText_append, layoutText_cons]
  rfl

theorem localsOf_statement (front back : List Item) (given : Statement) :
    localsOf (front ++ .statement given :: back) =
      localsOf front ++ (given.locals ++ localsOf back) := by
  rw [localsOf, List.flatMap_append, List.flatMap_cons]
  rfl

/-- **Another statement may stand where one stands.** -/
theorem IsLaidOut.exchange {place : Place}
    (laid : IsLaidOut place (front ++ .statement given :: back)) (other : Statement) :
    IsLaidOut place (front ++ .statement other :: back) := by
  induction front generalizing place with
  | nil =>
    obtain ⟨rfl, behind⟩ := laid
    exact ⟨rfl, behind⟩
  | cons item front ih => exact ⟨laid.1, ih laid.2⟩

/-- Each of several trees is followed by one. -/
theorem Tree.AllFollow.exists_follows {distance : Nat} {trees others : List Tree}
    (each : Tree.AllFollow distance trees others) {tree : Tree} (member : tree ∈ trees) :
    ∃ other ∈ others, tree.Follows distance other := by
  induction others generalizing trees with
  | nil =>
    cases each
    cases member
  | cons other others ih =>
    cases each with
    | cons first more =>
      rcases List.mem_cons.mp member with rfl | later
      · exact ⟨other, List.mem_cons_self, first⟩
      · obtain ⟨found, among, follows⟩ := ih more later
        exact ⟨found, List.mem_cons_of_mem _ among, follows⟩
    | remark isRemark more =>
      obtain ⟨found, among, follows⟩ := ih more member
      exact ⟨found, List.mem_cons_of_mem _ among, follows⟩

/-- **What has become of a statement** in the tree of a program. -/
theorem Tree.AllFollow.exists_statement {lead : List Char} {place : Place} {others : List Tree}
    (follow : Tree.AllFollow 0 (treesOf (Text.size (lead ++ layoutText
      (front ++ .statement given :: back))) place (front ++ .statement given :: back)) others) :
    ∃ other ∈ others, given.tree.Follows (Text.size (lead ++ layoutText front)) other := by
  induction front generalizing lead place others with
  | nil =>
    obtain ⟨here, later, rfl, first, -⟩ := follow.of_treesOf_cons
    have trees : place.trees (.statement given) = [given.tree] := by cases place <;> rfl
    rw [trees] at first
    obtain ⟨other, among, follows⟩ := first.exists_follows (List.mem_singleton_self _)
    have none : lead ++ layoutText [] = lead := List.append_nil lead
    rw [none]
    exact ⟨other, List.mem_append_left _ among, follows⟩
  | cons item front ih =>
    obtain ⟨here, later, rfl, -, more⟩ := follow.of_treesOf_cons
    obtain ⟨other, among, follows⟩ := ih more
    rw [List.append_assoc, ← layoutText_cons] at follows
    exact ⟨other, List.mem_append_right _ among, follows⟩

end Program

theorem mem_lowerAll {source : List Char} {names : List String} {parent : Kind} {tree : Tree}
    {trees : List Tree} (member : tree ∈ trees) :
    tree.lower source names parent ∈ Tree.lowerAll source names parent trees := by
  induction trees with
  | nil => cases member
  | cons first trees ih =>
    rw [Tree.lowerAll]
    rcases List.mem_cons.mp member with rfl | later
    · exact List.mem_cons_self
    · exact List.mem_cons_of_mem _ (ih later)

/-! ### Calls as statements of a program -/

/-- Each argument takes up room. -/
theorem Arguments.length_all_le {context : Context} {read : Reader Tree}
    (arguments : Arguments context read) : arguments.all.length ≤ Text.size arguments.text := by
  have room (argument : Argument context read) : 0 < Text.size argument.text := by
    obtain ⟨c, chars, same, -⟩ := argument.text_eq_cons
    have long := Text.length_le_size argument.text
    rw [same, List.length_cons] at long
    rw [same]
    omega
  obtain ⟨first, more⟩ := arguments
  induction more generalizing first with
  | nil =>
    have text : (Arguments.mk first []).text = first.text := List.append_nil _
    rw [text]
    exact room first
  | cons further more ih =>
    have others : more.length + 1 ≤ Text.size (Arguments.mk further.argument more).text := by
      have each := ih further.argument
      rwa [all, List.length_cons, List.length_map] at each
    have here := room first
    rw [all, List.length_cons, List.length_map, List.length_cons, text_cons, Text.size_append,
      Text.size_append]
    omega

theorem Passed.length_said_le (names : List String) (passed : Passed) :
    (passed.said names).length ≤ Text.size passed.text := by
  cases passed with
  | nothing => exact Nat.zero_le _
  | enclosed list =>
    cases list with
    | empty => exact Nat.zero_le _
    | some opening arguments closing trailing =>
      have bound := arguments.length_all_le
      have text : (Passed.enclosed (.some opening arguments closing trailing)).text =
          ('(' :: fillerText opening) ++ (arguments.text ++ closingText closing trailing) := rfl
      rw [said, List.length_map, text, Text.size_append, Text.size_append]
      omega
  | command gap spaced stay arguments =>
    have bound := arguments.length_all_le
    rw [said, List.length_map, Passed.text, Text.size_append]
    omega

/-- **The node of a call that is a statement of a program** says what the call says. -/
theorem Call.exists_isSeen {front back : List Item} {call : Call} {names : List String}
    (laid : IsLaidOut .fresh (front ++ .statement call.statement :: back))
    (bound : localsOf (front ++ .statement call.statement :: back) = names)
    (calls : call.IsBare → String.ofList call.name.text ∉ names)
    (few : (call.passed.said names).length < maxWord) :
    ∃ root node, parse (String.ofList (layoutText (front ++ .statement call.statement :: back))) =
        .ok root ∧
      node ∈ root.children ∧ call.IsSeen names (layoutText front) (layoutText back) node := by
  obtain ⟨others, follow, children, rfl, -, parsed⟩ := parse_layout laid
  obtain ⟨other, among, follows⟩ := @Tree.AllFollow.exists_statement _ _ _ [] _ _ follow
  have seen := @Call.isSeen_of_follows call names (layoutText front) (layoutText back) _ follows
    calls few
  have text : layoutText front ++ (call.text ++ layoutText back) =
      layoutText (front ++ .statement call.statement :: back) :=
    (layoutText_statement front back call.statement).symm
  rw [text] at seen
  rw [bound] at parsed
  exact ⟨_, _, parsed, List.mem_map_of_mem (mem_lowerAll among), seen⟩

end RecipeLint.Ruby
