/-
**What a call in a program says.**

The node of a call is read off its text: the name and where it stands, what the receiver and the
arguments say and how they are written. Comments among the arguments do not matter, and neither does
what stands before and behind the call.

* `Node.said` — how a node is written, and what it says.
* `Call.IsSeen` — what the node of a call says.
* `Call.isSeen_of_follows` — the node of a call in a program says that.
-/

import RecipeLint.Proofs.Ruby.Additions
import RecipeLint.Proofs.Ruby.CallStatements
import RecipeLint.Proofs.Ruby.Outlines
import RecipeLint.Proofs.Ruby.Programs

namespace RecipeLint

/-- **How a node is written, and what it says.** -/
def Node.said (source : List Char) (node : Node) : List Char × Node :=
  (Ruby.textOf source node.span, node.outline)

/-- Whether a node is a block that is passed on. -/
def Node.passesBlock (node : Node) : Bool :=
  node.kind == .other Ruby.Kind.blockArgument.name

namespace Ruby

/-! ### Parts of trees that follow others -/

section Several

variable {distance : Nat} {trees others : List Tree}
  (each : Tree.AllFollow distance trees others)

include each

/-- The parts in a role follow each other. -/
theorem Tree.AllFollow.find? (role : Role) :
    (trees.find? (·.role == some role) = none ∧ others.find? (·.role == some role) = none) ∨
      ∃ tree other, trees.find? (·.role == some role) = some tree ∧
        others.find? (·.role == some role) = some other ∧ tree.Follows distance other := by
  induction others generalizing trees with
  | nil =>
    cases each
    exact Or.inl ⟨rfl, rfl⟩
  | cons other others ih =>
    cases each with
    | @cons tree _ trees _ first more =>
      have same : other.role = tree.role := by
        cases first
        rfl
      rw [List.find?_cons, List.find?_cons, same]
      split
      · exact Or.inr ⟨tree, other, rfl, rfl, first⟩
      · exact ih more
    | remark isRemark more =>
      cases isRemark with
      | comment => exact ih more

/-- What is no comment follows one by one. -/
theorem Tree.AllFollow.values (plain : ∀ tree ∈ trees, tree.is .comment = false) :
    List.Forall₂ (Tree.Follows distance) trees (others.filter (!·.is .comment)) := by
  induction others generalizing trees with
  | nil =>
    cases each
    exact .nil
  | cons other others ih =>
    cases each with
    | @cons tree _ trees _ first more =>
      obtain ⟨here, rest⟩ := List.forall_mem_cons.mp plain
      have noComment : other.is .comment = false := by
        cases first
        exact here
      rw [List.filter_cons_of_pos (by rw [noComment]; rfl)]
      exact .cons first (ih more rest)
    | remark isRemark more =>
      have isComment : other.is .comment = true := by
        cases isRemark
        rfl
      rw [List.filter_cons_of_neg (by rw [isComment]; decide)]
      exact ih more plain

end Several

section Lists

variable (source : List Char) (names : List String) (parent : Kind) (trees : List Tree)

theorem tree_lower (tree : Tree) : (tree.lower source names parent).tree = tree := by
  cases tree
  rfl

theorem inRole?_lowerAll (role : Role) :
    Lowered.inRole? (Tree.lowerAll source names parent trees) role =
      (trees.find? (·.role == some role)).map (·.lower source names parent) := by
  unfold Lowered.inRole?
  induction trees with
  | nil => rfl
  | cons tree trees ih =>
    rw [Tree.lowerAll, List.find?_cons, List.find?_cons, tree_lower, ih]
    split <;> rfl

theorem filter_lowerAll :
    (Tree.lowerAll source names parent trees).filter (!·.isComment) =
      Tree.lowerAll source names parent (trees.filter (!·.is .comment)) := by
  induction trees with
  | nil => rfl
  | cons tree trees ih =>
    rw [Tree.lowerAll, List.filter_cons, List.filter_cons, Lowered.isComment, tree_lower, ih]
    split <;> rfl

end Lists

theorem Tree.AllFollow.inRole? {distance : Nat} {trees others : List Tree}
    (each : Tree.AllFollow distance trees others) (source : List Char) (names : List String)
    (parent : Kind) (role : Role) :
    (trees.find? (·.role == some role) = none ∧
        Lowered.inRole? (Tree.lowerAll source names parent others) role = none) ∨
      ∃ tree other, trees.find? (·.role == some role) = some tree ∧ tree.Follows distance other ∧
        Lowered.inRole? (Tree.lowerAll source names parent others) role =
          some (other.lower source names parent) := by
  rw [inRole?_lowerAll]
  rcases each.find? role with ⟨none, none'⟩ | ⟨tree, other, found, there, follows⟩
  · exact Or.inl ⟨none, congrArg _ none'⟩
  · exact Or.inr ⟨tree, other, found, follows, congrArg _ there⟩

/-! ### Arguments -/

section Arguments

variable {context : Context} {read : Reader Tree} (names : List String)

/-- How an argument is written, and what it says. -/
def Argument.said (argument : Argument context read) : List Char × Node :=
  (argument.text, (argument.tree.lower argument.text names .argumentList).node.outline)

/-- What is no block that is passed on does not become one. -/
theorem combine_passesBlock (source : List Char) (names : List String) (parent : Kind)
    (role : Option Role) (kind : Kind) (span : Span) (parts : List Lowered) :
    (combine source names parent role kind span parts).passesBlock = (kind == .blockArgument) := by
  have named : (NodeKind.other kind.name == .other Kind.blockArgument.name) =
      (kind == .blockArgument) := by
    cases kind <;> rfl
  unfold combine
  split
  case h_2 =>
    rw [lowerCall_eq]
    split <;> rfl
  case h_3 | h_5 | h_6 =>
    simp only
    split <;> rfl
  case h_7 => exact named
  all_goals rfl

/-- A node says that it passes a block on. -/
theorem Node.passesBlock_outline (node : Node) : node.outline.passesBlock = node.passesBlock := by
  obtain ⟨kind, span, children⟩ := node
  cases kind <;> rfl

theorem Argument.passesBlock_said (argument : Argument context read) :
    (argument.said names).2.passesBlock = argument.passesBlock := by
  obtain ⟨text, tree⟩ := argument
  rw [Argument.said, Node.passesBlock_outline]
  obtain ⟨role, kind, span, parts⟩ := tree
  exact combine_passesBlock text names .argumentList role kind span _

/-- An argument that stands in a text says there what it says alone. -/
theorem Argument.lowered (argument : Argument context read) (before after : List Char)
    {other : Tree} (follows : argument.tree.Follows (Text.size before) other) :
    (other.lower (before ++ (argument.text ++ after)) names .argumentList).node.span =
        ⟨Text.size before, Text.size before + Text.size argument.text⟩ ∧
      (other.lower (before ++ (argument.text ++ after)) names .argumentList).node.said
        (before ++ (argument.text ++ after)) = argument.said names := by
  have lowered := @Tree.Follows.lower before argument.text after names .argumentList _ _ follows
    argument.within
  have place := lowered.place
  rw [argument.covers names] at place
  have whole : Span.CutsOut argument.text ⟨0, Text.size argument.text⟩ :=
    ⟨[], argument.text, [], (List.append_nil _).symm, rfl, Nat.zero_add _⟩
  refine ⟨?_, ?_⟩
  · rw [place, Span.shift, Nat.zero_add, Nat.add_comm]
  · rw [Node.said, Argument.said, place, textOf_shift whole, lowered.outline,
      textOf_self]

/-- **The arguments of a list say in a text what they say alone**, and the last one stands behind
the others. -/
theorem lowered_arguments {first : Argument context read} {more : List (Further context read)}
    {before after : List Char} {position distance : Nat} {values : List Tree}
    (same : position + distance = Text.size before)
    (each : List.Forall₂ (Tree.Follows distance) (Arguments.trees position ⟨first, more⟩) values) :
    ∃ others last, (Tree.lowerAll (before ++ ((Arguments.mk first more).text ++ after)) names
          .argumentList values).map (·.node) = others ++ [last] ∧
      (others ++ [last]).map (Node.said (before ++ ((Arguments.mk first more).text ++ after))) =
        (Arguments.mk first more).all.map (Argument.said names) ∧
      last.span = ⟨Text.size before + Text.size (textBeforeLast first more),
        Text.size before + Text.size (Arguments.mk first more).text⟩ ∧
      last.outline = ((lastOf first more).said names).2 := by
  induction more generalizing first before position values with
  | nil =>
    cases each with
    | @cons _ value _ values here none =>
      cases none
      have follows := Tree.Follows.of_shift here
      rw [same] at follows
      obtain ⟨span, said⟩ := first.lowered names before after follows
      have text : (Arguments.mk first []).text = first.text := List.append_nil _
      rw [text]
      exact ⟨[], _, rfl, congrArg (fun own => [own]) said, span, congrArg Prod.snd said⟩
  | cons further more ih =>
    rw [Arguments.trees_cons] at each
    cases each with
    | @cons _ value _ values here others =>
      have follows := Tree.Follows.of_shift here
      rw [same] at follows
      obtain ⟨span, said⟩ := first.lowered names before
        (further.lead ++ ((Arguments.mk further.argument more).text ++ after)) follows
      have start : position + Text.size (first.text ++ further.lead) + distance =
          Text.size (before ++ (first.text ++ further.lead)) := by
        rw [Text.size_append before]
        omega
      have text : (Arguments.mk first (further :: more)).text ++ after =
          first.text ++ (further.lead ++ ((Arguments.mk further.argument more).text ++ after)) := by
        simp only [Arguments.text_cons, List.append_assoc]
      have whole : before ++ (first.text ++ (further.lead ++
          ((Arguments.mk further.argument more).text ++ after))) =
            (before ++ (first.text ++ further.lead)) ++
              ((Arguments.mk further.argument more).text ++ after) := by
        simp only [List.append_assoc]
      obtain ⟨front, last, nodes, written, place, told⟩ := ih start others
      rw [← whole] at nodes written
      rw [text]
      refine ⟨_ :: front, last, congrArg (_ :: ·) nodes, ?_, ?_, told⟩
      · rw [List.cons_append, List.map_cons, said, written]
        rfl
      · rw [place, textBeforeLast, Arguments.text_cons]
        simp only [Text.size_append, Nat.add_assoc]

end Arguments

/-! ### Parts of calls -/

/-- The parts of the concrete tree of a call, where the name starts at a position. -/
def callParts (receiver : Option Tree) (start : Nat) (name : MethodName)
    (arguments : Option Tree) : List Tree :=
  calleeParts receiver start name ++
    (arguments.map fun list => (list.shift (start + Text.size name.text)).as .arguments).toList

section Parts

variable {receiver : Option Tree} {start : Nat} {name : MethodName} {arguments : Option Tree}

/-- A mere name without a mark is no call in the concrete tree. -/
theorem calleeTree_bare (unmarked : name.mark = none) :
    calleeTree none start name = .leaf .identifier ⟨start, start + Text.size name.text⟩ := by
  rw [calleeTree, unmarked]
  rfl

/-- A call that is more than a name without a mark is a call already in the concrete tree. -/
theorem callTree_eq {stop : Nat}
    (more : receiver.isSome = true ∨ name.mark.isSome = true ∨ arguments.isSome = true)
    (bare : arguments = none → stop = start + Text.size name.text) :
    callTree receiver start name arguments stop =
      .of .call ⟨0, stop⟩ (callParts receiver start name arguments) := by
  cases arguments with
  | some list => rfl
  | none =>
    have notPlain : ¬ (receiver.isNone && name.mark.isNone) = true := by
      cases receiver <;> cases given : name.mark <;> simp_all
    rw [callTree, calleeTree, if_neg notPlain, bare rfl, callParts]
    exact congrArg (Tree.of .call _) (List.append_nil _).symm

variable (receiver start name arguments) in
theorem find?_block :
    (callParts receiver start name arguments).find? (·.role == some .block) = none := by
  cases receiver <;> cases arguments <;> rfl

theorem find?_method : (callParts receiver start name arguments).find? (·.role == some .method) =
    some ((Tree.leaf .identifier ⟨start, start + Text.size name.text⟩).as .method) := by
  cases receiver <;> cases arguments <;> rfl

theorem find?_receiver : (callParts receiver start name arguments).find?
    (·.role == some .receiver) = receiver.map (·.as .receiver) := by
  cases receiver <;> cases arguments <;> rfl

theorem find?_arguments : (callParts receiver start name arguments).find?
    (·.role == some .arguments) =
      arguments.map fun list => (list.shift (start + Text.size name.text)).as .arguments := by
  cases receiver <;> cases arguments <;> rfl

variable {distance : Nat} {others : List Tree} (source : List Char) (names : List String)
  (each : Tree.AllFollow distance (callParts receiver start name arguments) others)

include each

/-- A call in a program has no block. -/
theorem lowerCall_eq_callNode (span : Span) :
    lowerCall source span (Tree.lowerAll source names .call others) =
      callNode source span (Tree.lowerAll source names .call others) := by
  rw [lowerCall_eq]
  rcases each.inRole? source names .call .block with ⟨-, none⟩ | ⟨tree, -, found, -⟩
  · rw [none]
  · rw [find?_block] at found
    cases found

/-- The name is found among the parts, moved on. There may be remarks inside of it. -/
theorem exists_inRole?_method : ∃ remarks,
    Lowered.inRole? (Tree.lowerAll source names .call others) .method =
      some ((Tree.node (some .method) .identifier
        ⟨start + distance, start + Text.size name.text + distance⟩ remarks).lower
          source names .call) := by
  rcases each.inRole? source names .call .method with
    ⟨none, -⟩ | ⟨tree, other, found, follows, there⟩
  · rw [find?_method] at none
    cases none
  · rw [find?_method] at found
    cases found
    cases follows
    exact ⟨_, there⟩

theorem callMethod_eq (span : Span) :
    callMethod source span (Tree.lowerAll source names .call others) =
      (String.ofList (textOf source
        ⟨start + distance, start + Text.size name.text + distance⟩),
        ⟨start + distance, start + Text.size name.text + distance⟩) := by
  obtain ⟨remarks, there⟩ := exists_inRole?_method source names each
  rw [callMethod, there]
  rfl

/-- A call ends with its arguments, or with its name. -/
theorem callStop_eq (span : Span) :
    callStop span (Tree.lowerAll source names .call others) =
      (arguments.map (·.span.stop)).getD 0 + (start + Text.size name.text) + distance := by
  unfold callStop callEnd?
  rcases each.inRole? source names .call .arguments with
    ⟨none, none'⟩ | ⟨tree, other, found, follows, there⟩
  · rw [find?_arguments, Option.map_eq_none_iff] at none
    obtain ⟨remarks, there⟩ := exists_inRole?_method source names each
    rw [none', none, there]
    exact (congrArg (· + distance) (Nat.zero_add _)).symm
  · rw [find?_arguments, Option.map_eq_some_iff] at found
    obtain ⟨list, rfl, rfl⟩ := found
    obtain ⟨role, kind, span, parts⟩ := list
    cases follows
    rw [there]
    rfl

/-- The values that are given to a call follow its arguments one by one. -/
theorem callValues_eq
    (plain : ∀ list ∈ arguments, ∀ tree ∈ Tree.shiftAll (start + Text.size name.text) list.parts,
      tree.is .comment = false)
    (isList : ∀ list ∈ arguments, list.kind = .argumentList) :
    (arguments = none ∧ callValues (Tree.lowerAll source names .call others) = []) ∨
      ∃ list values, arguments = some list ∧ List.Forall₂ (Tree.Follows distance)
          (Tree.shiftAll (start + Text.size name.text) list.parts) values ∧
        callValues (Tree.lowerAll source names .call others) =
          (Tree.lowerAll source names .argumentList values).map (·.node) := by
  unfold callValues givenParts
  rcases each.inRole? source names .call .arguments with
    ⟨none, none'⟩ | ⟨tree, other, found, follows, there⟩
  · rw [find?_arguments, Option.map_eq_none_iff] at none
    rw [none']
    exact Or.inl ⟨none, rfl⟩
  · rw [find?_arguments, Option.map_eq_some_iff] at found
    obtain ⟨list, rfl, rfl⟩ := found
    obtain ⟨role, kind, span, parts⟩ := list
    obtain rfl : kind = .argumentList := isList _ rfl
    cases follows with
    | @node _ _ _ _ inner each =>
      refine Or.inr ⟨_, _, rfl, each.values (plain _ rfl), ?_⟩
      rw [there, Option.toList_some, List.flatMap_singleton]
      exact congrArg (List.map _) (filter_lowerAll source names .argumentList inner)

end Parts

/-! ### What is passed -/

/-- What the arguments that are passed say. -/
def Passed.said (names : List String) : Passed → List (List Char × Node)
  | .nothing => []
  | .enclosed (.empty _) => []
  | .enclosed (.some _ arguments _ _) => arguments.all.map (Argument.said names)
  | .command _ _ _ arguments _ _ => arguments.all.map (Argument.said names)

/-- **What the last argument tells about one more**: where it goes, and what is put in there. -/
structure Passed.HasLast (passed : Passed) (position : Nat) (last : Node) : Prop where
  place : position + passed.place = if last.passesBlock then last.span.start else last.span.stop
  inserted (added : List Char) : passed.inserted added =
    if last.passesBlock then added ++ ", ".toList else ", ".toList ++ added

section Values

variable {names : List String} {before after : List Char} {position distance : Nat}
  {values : List Tree}

theorem Arguments.areSeen {context : Context} {read : Reader Tree}
    (arguments : Arguments context read) (lead trail : List Char)
    (same : position + distance = Text.size before)
    (each : List.Forall₂ (Tree.Follows distance)
      (arguments.trees (Text.size lead + position)) values) {nodes : List Node}
    (lowered : nodes = (Tree.lowerAll (before ++ ((lead ++ (arguments.text ++ trail)) ++ after))
      names .argumentList values).map (·.node)) :
    nodes.map (Node.said (before ++ ((lead ++ (arguments.text ++ trail)) ++ after))) =
        arguments.all.map (Argument.said names) ∧
      ∀ last ∈ nodes.getLast?, last.passesBlock = arguments.last.passesBlock ∧
        Text.size before + (Text.size lead + arguments.place) =
          if last.passesBlock then last.span.start else last.span.stop := by
  obtain ⟨first, more⟩ := arguments
  have whole : before ++ ((lead ++ ((Arguments.mk first more).text ++ trail)) ++ after) =
      (before ++ lead) ++ ((Arguments.mk first more).text ++ (trail ++ after)) := by
    simp only [List.append_assoc]
  have moved : Text.size lead + position + distance = Text.size (before ++ lead) := by
    rw [Text.size_append]
    omega
  obtain ⟨others, last, found, said, place, told⟩ :=
    @lowered_arguments _ _ names first more (before ++ lead) (trail ++ after) _ _ _ moved each
  rw [whole] at lowered ⊢
  rw [lowered, found]
  refine ⟨said, ?_⟩
  rw [List.getLast?_concat]
  rintro node ⟨⟩
  have block : last.passesBlock = (Arguments.mk first more).last.passesBlock := by
    rw [← Node.passesBlock_outline, told, Argument.passesBlock_said]
    rfl
  have text : Text.size (Arguments.mk first more).text = Text.size (Arguments.mk first more).front +
      Text.size (Arguments.mk first more).last.text := by
    rw [text_eq_textBeforeLast first more, Text.size_append]
    rfl
  refine ⟨block, ?_⟩
  rw [block, place, Arguments.place, text, Text.size_append]
  by_cases isBlock : (Arguments.mk first more).last.passesBlock = true
  · rw [if_pos isBlock, if_pos isBlock]
    show _ = Text.size before + Text.size lead + Text.size (Arguments.mk first more).front
    omega
  · rw [if_neg isBlock, if_neg isBlock]
    show _ = Text.size before + Text.size lead + _
    omega

/-- **What is passed says in a text what it says alone.** -/
theorem Passed.areSeen (passed : Passed) (same : position + distance = Text.size before)
    {nodes : List Node}
    (given : (passed.tree? = none ∧ nodes = []) ∨
      ∃ list values, passed.tree? = some list ∧
        List.Forall₂ (Tree.Follows distance) (Tree.shiftAll position list.parts) values ∧
          nodes = (Tree.lowerAll (before ++ (passed.text ++ after)) names .argumentList values).map
            (·.node)) :
    nodes.map (Node.said (before ++ (passed.text ++ after))) = passed.said names ∧
      ∀ last ∈ nodes.getLast?, passed.HasLast (Text.size before) last := by
  cases passed with
  | nothing =>
    rcases given with ⟨-, rfl⟩ | ⟨list, -, ⟨⟩, -⟩
    exact ⟨rfl, nofun⟩
  | enclosed list =>
    cases list with
    | empty inside =>
      rcases given with ⟨⟨⟩, -⟩ | ⟨list, values, ⟨⟩, each, rfl⟩
      cases each
      exact ⟨rfl, nofun⟩
    | some opening arguments closing trailing =>
      rcases given with ⟨⟨⟩, -⟩ | ⟨list, values, ⟨⟩, each, lowered⟩
      rw [Enclosed.shiftAll_parts] at each
      obtain ⟨said, ends⟩ := arguments.areSeen ('(' :: fillerText opening)
        (closingText closing trailing) same each lowered
      exact ⟨said, fun last isLast => ⟨(ends last isLast).2, fun added => by
        rw [(ends last isLast).1]
        rfl⟩⟩
  | command gap spaced stay arguments tight starts =>
    rcases given with ⟨⟨⟩, -⟩ | ⟨list, values, ⟨⟩, each, lowered⟩
    rw [arguments.shiftAll_parts] at each
    have text : (Passed.command gap spaced stay arguments tight starts).text =
        fillerText gap ++ (arguments.text ++ []) :=
      congrArg (fillerText gap ++ ·) (List.append_nil _).symm
    rw [text] at lowered ⊢
    obtain ⟨said, ends⟩ := arguments.areSeen (fillerText gap) [] same each lowered
    exact ⟨said, fun last isLast => ⟨(ends last isLast).2, fun added => by
      rw [(ends last isLast).1]
      rfl⟩⟩

end Values

theorem Arguments.trees_plain {context : Context} {read : Reader Tree}
    (arguments : Arguments context read) (position : Nat) :
    ∀ tree ∈ arguments.trees position, tree.is .comment = false := by
  have moved (argument : Argument context read) (distance : Nat) :
      (argument.tree.shift distance).is .comment = false := by
    have plain := argument.noComment
    generalize argument.tree = tree at plain ⊢
    cases tree
    exact plain
  obtain ⟨first, more⟩ := arguments
  refine List.forall_mem_cons.mpr ⟨moved first position, ?_⟩
  show ∀ tree ∈ moreTrees (position + Text.size first.text) more, tree.is .comment = false
  generalize position + Text.size first.text = position
  induction more generalizing position with
  | nil => exact List.forall_mem_nil _
  | cons further more ih => exact List.forall_mem_cons.mpr ⟨moved _ _, ih _⟩

section Lists

variable (passed : Passed)

/-- What is passed is a list of arguments. -/
theorem Passed.kind_tree : ∀ list ∈ passed.tree?, list.kind = .argumentList := by
  cases passed with
  | nothing => exact nofun
  | enclosed | command =>
    rintro list ⟨⟩
    rfl

theorem Passed.stop_tree : (passed.tree?.map (·.span.stop)).getD 0 = Text.size passed.text := by
  cases passed with
  | nothing | enclosed => rfl
  | command gap spaced stay arguments =>
    show Text.size arguments.text + _ = Text.size (_ ++ _)
    rw [Text.size_append, Nat.add_comm]

theorem Passed.plain_tree (position : Nat) : ∀ list ∈ passed.tree?,
    ∀ tree ∈ Tree.shiftAll position list.parts, tree.is .comment = false := by
  cases passed with
  | nothing => exact nofun
  | enclosed list =>
    rintro list ⟨⟩
    cases list with
    | empty => exact nofun
    | some opening arguments closing trailing =>
      rw [Enclosed.shiftAll_parts]
      exact arguments.trees_plain _
  | command gap spaced stay arguments =>
    rintro list ⟨⟩
    rw [arguments.shiftAll_parts]
    exact arguments.trees_plain _

end Lists

/-! ### Receivers -/

/-- What a receiver says, and how it is written without the dot behind it. -/
def Receiver.said (names : List String) (receiver : Receiver) : Option (List Char × Node) :=
  receiver.tree?.map fun tree => (textOf receiver.text tree.span,
    ((tree.as .receiver).lower receiver.text names .call).node.outline)

theorem span_combine_identifier (source : List Char) (names : List String) (parent : Kind)
    (role : Option Role) (span : Span) (parts : List Lowered) :
    (combine source names parent role .identifier span parts).span = span := by
  unfold combine
  simp only
  split <;> rfl

/-- The node of a call covers all of it, whatever the call is a part of. -/
theorem span_lower_callTree {receiver arguments : Option Tree} {start stop : Nat}
    {name : MethodName}
    (reaches : stop = (arguments.map (·.span.stop)).getD 0 + (start + Text.size name.text))
    (role : Option Role) (source : List Char) (names : List String) (parent : Kind) :
    ((Tree.node role (callTree receiver start name arguments stop).kind
      (callTree receiver start name arguments stop).span
        (callTree receiver start name arguments stop).parts).lower source names parent).node.span =
      (callTree receiver start name arguments stop).span := by
  by_cases more : receiver.isSome = true ∨ name.mark.isSome = true ∨ arguments.isSome = true
  · have bare (none : arguments = none) : stop = start + Text.size name.text := by
      rw [reaches, none]
      exact Nat.zero_add _
    rw [callTree_eq more bare]
    have each := Tree.allFollow_refl (callParts receiver start name arguments)
    refine (congrArg Node.span (lowerCall_eq_callNode source names each ⟨0, stop⟩)).trans ?_
    show Span.mk 0 (callStop _ _) = ⟨0, stop⟩
    rw [callStop_eq source names each, reaches]
    rfl
  · simp only [not_or, Bool.not_eq_true, Option.isSome_eq_false_iff, Option.isNone_iff_eq_none]
      at more
    obtain ⟨noReceiver, noMark, nothing⟩ := more
    rw [nothing, noReceiver, callTree, calleeTree_bare noMark]
    exact span_combine_identifier source names parent role _ []

/-- The node of a receiver covers all of it. -/
theorem Receiver.span_lower (receiver : Receiver) (source : List Char) (names : List String) :
    ∀ tree ∈ receiver.tree?,
      ((tree.as .receiver).lower source names .call).node.span = tree.span := by
  cases receiver with
  | nothing => exact nofun
  | call receiver name list =>
    rintro tree ⟨⟩
    refine span_lower_callTree ?_ (some .receiver) source names .call
    cases list with
    | none => exact (Nat.zero_add _).symm
    | some list => exact Nat.add_comm _ _

/-- **A receiver says in a text what it says alone.** -/
theorem Receiver.areSeen {receiver : Receiver} {names : List String} {before after : List Char}
    {tree other : Tree} (given : receiver.tree? = some tree)
    (follows : (tree.as .receiver).Follows (Text.size before) other) :
    some ((other.lower (before ++ (receiver.text ++ after)) names .call).node.said
      (before ++ (receiver.text ++ after))) = receiver.said names := by
  have within := receiver.within_tree tree given
  have lowered := @Tree.Follows.lower before receiver.text after names .call _ _ follows
    (within.as .receiver)
  rw [Receiver.said, given, Option.map_some, Node.said, lowered.outline, lowered.place,
    receiver.span_lower receiver.text names tree given]
  cases within with
  | node cuts => exact congrArg (fun text => some (text, _)) (textOf_shift cuts)

/-! ### Calls -/

/-- Where the name of a call stands that is behind a text. -/
abbrev Call.nameSpan (call : Call) (before : List Char) : Span :=
  ⟨Text.size (before ++ call.receiver.text),
    Text.size (before ++ call.receiver.text) + Text.size call.name.text⟩

/-- **What the node of a call says** where the call stands in a text. -/
structure Call.IsSeen (call : Call) (names : List String) (before after : List Char) (node : Node) :
    Prop where
  span : node.span = ⟨Text.size before, Text.size before + Text.size call.text⟩
  method : ∃ hasReceiver count, node.kind = .call (String.ofList call.name.text)
    (call.nameSpan before) hasReceiver count
  receiver : node.receiver?.map (Node.said (before ++ (call.text ++ after))) =
    call.receiver.said names
  arguments : ∃ values, node.arguments = .ok values ∧
    values.map (Node.said (before ++ (call.text ++ after))) = call.passed.said names ∧
      ∀ last ∈ values.getLast?, call.passed.HasLast (call.nameSpan before).stop last

theorem Call.IsSeen.methodName?_eq {call : Call} {names : List String} {before after : List Char}
    {node : Node} (seen : call.IsSeen names before after node) :
    node.methodName? = some (String.ofList call.name.text) := by
  obtain ⟨hasReceiver, count, kind⟩ := seen.method
  rw [Node.methodName?, kind]

/-- Whether a call is a mere name, which may be that of a variable. -/
def Call.IsBare (call : Call) : Prop :=
  call.receiver.tree? = none ∧ call.name.mark = none ∧ call.passed.tree? = none

section Calls

variable {call : Call} {names : List String} {before after : List Char}

/-- The name of a call in a text. -/
theorem Call.textOf_name (call : Call) (before after : List Char) :
    textOf (before ++ (call.text ++ after)) (call.nameSpan before) = call.name.text := by
  have whole : before ++ (call.text ++ after) = (before ++ call.receiver.text) ++
      (call.name.text ++ (call.passed.text ++ after)) := by
    simp only [Call.text, List.append_assoc]
  rw [whole, textOf, Text.slice?_append]
  rfl

theorem exists_kind_callNode {source : List Char} {span nameSpan : Span} {parts : List Lowered}
    {name : String} (named : callMethod source span parts = (name, nameSpan)) :
    ∃ hasReceiver count, (callNode source span parts).kind =
      .call name nameSpan hasReceiver count := by
  unfold callNode
  rw [named]
  exact ⟨_, _, rfl⟩

/-- The concrete tree of a call that is more than a name without a mark. -/
theorem Call.tree_eq (call : Call) (more : call.receiver.tree?.isSome = true ∨
      call.name.mark.isSome = true ∨ call.passed.tree?.isSome = true) :
    call.tree = .of .call ⟨0, Text.size call.text⟩ (callParts call.receiver.tree?
      (Text.size call.receiver.text) call.name call.passed.tree?) := by
  refine callTree_eq more fun none => ?_
  have nothing := call.passed.stop_tree
  rw [none] at nothing
  simp only [Call.text, Text.size_append, ← nothing]
  rfl

theorem Call.isSeen_of_parts {others : List Tree}
    (each : Tree.AllFollow (Text.size before) (callParts call.receiver.tree?
      (Text.size call.receiver.text) call.name call.passed.tree?) others)
    (few : (call.passed.said names).length < maxWord) :
    call.IsSeen names before after (lowerCall (before ++ (call.text ++ after))
      (Span.shift (Text.size before) ⟨0, Text.size call.text⟩)
      (Tree.lowerAll (before ++ (call.text ++ after)) names .call others)) := by
  rw [lowerCall_eq_callNode _ names each]
  have start : Text.size call.receiver.text + Text.size before =
      Text.size (before ++ call.receiver.text) := by
    rw [Text.size_append, Nat.add_comm]
  have named := callMethod_eq (before ++ (call.text ++ after)) names each
    (Span.shift (Text.size before) ⟨0, Text.size call.text⟩)
  have stop : Text.size call.receiver.text + Text.size call.name.text + Text.size before =
      Text.size (before ++ call.receiver.text) + Text.size call.name.text := by omega
  rw [start, stop, call.textOf_name] at named
  have whole : before ++ (call.text ++ after) =
      (before ++ (call.receiver.text ++ call.name.text)) ++ (call.passed.text ++ after) := by
    simp only [Call.text, List.append_assoc]
  have position : Text.size call.receiver.text + Text.size call.name.text + Text.size before =
      Text.size (before ++ (call.receiver.text ++ call.name.text)) := by
    simp only [Text.size_append]
    omega
  have values := callValues_eq (before ++ (call.text ++ after)) names each
    (call.passed.plain_tree _) call.passed.kind_tree
  rw [whole] at values
  obtain ⟨said, ends⟩ := call.passed.areSeen position values
  rw [← whole] at said ends
  rw [← position, stop] at ends
  have length := congrArg List.length said
  rw [List.length_map] at length
  refine ⟨?_, exists_kind_callNode named, ?_,
    ⟨_, Node.arguments_mk _ _ _ _ _ (length ▸ few), said, ends⟩⟩
  · show Span.mk (0 + Text.size before) (callStop _ _) = _
    rw [callStop_eq _ names each, call.passed.stop_tree]
    simp only [Call.text, Text.size_append]
    refine congr (congrArg Span.mk ?_) ?_ <;> omega
  · refine (congrArg (Option.map _) (Node.receiver?_mk ..)).trans ?_
    rcases each.inRole? (before ++ (call.text ++ after)) names .call .receiver with
      ⟨none, none'⟩ | ⟨tree, other, found, follows, there⟩
    · rw [find?_receiver, Option.map_eq_none_iff] at none
      rw [none', Receiver.said, none]
      rfl
    · rw [find?_receiver, Option.map_eq_some_iff] at found
      obtain ⟨tree, given, rfl⟩ := found
      have text : call.text ++ after = call.receiver.text ++
          (call.name.text ++ (call.passed.text ++ after)) := by
        simp only [Call.text, List.append_assoc]
      rw [there, text]
      exact Receiver.areSeen given follows

/-- A mere name calls a method if it is not that of a variable. -/
theorem combine_identifier {source name : List Char} {span : Span}
    (named : textOf source span = name) (free : String.ofList name ∉ names)
    (parts : List Lowered) : combine source names .program none .identifier span parts =
      .leaf (.call (String.ofList name) span false 0) span := by
  have unbound : ¬ (namesMethod .program none || names.contains (String.ofList name)) = true := by
    rw [Bool.or_eq_true, not_or, List.contains_iff_mem]
    exact ⟨nofun, free⟩
  unfold combine
  rw [named]
  exact if_neg unbound

theorem Call.isSeen_of_bare (bare : call.IsBare) {other : Tree}
    (follows : call.tree.Follows (Text.size before) other)
    (free : String.ofList call.name.text ∉ names) :
    call.IsSeen names before after
      (other.lower (before ++ (call.text ++ after)) names .program).node := by
  obtain ⟨noReceiver, noMark, noList⟩ := bare
  have noText := Receiver.text_of_tree? noReceiver
  have nothing : call.passed = .nothing := by
    cases same : call.passed with
    | nothing => rfl
    | enclosed | command =>
      rw [same] at noList
      cases noList
  have tree : call.tree = .leaf .identifier ⟨Text.size call.receiver.text,
      Text.size call.receiver.text + Text.size call.name.text⟩ := by
    rw [Call.tree, noReceiver, noList, callTree, calleeTree_bare noMark]
  rw [tree] at follows
  cases follows with
  | @node _ _ _ _ others each =>
    have place : Span.shift (Text.size before) ⟨Text.size call.receiver.text,
        Text.size call.receiver.text + Text.size call.name.text⟩ = call.nameSpan before := by
      rw [Call.nameSpan, Text.size_append, Nat.add_comm (Text.size before), Nat.add_right_comm]
      rfl
    have node := combine_identifier (call.textOf_name before after) free
      (Tree.lowerAll (before ++ (call.text ++ after)) names .identifier others)
    rw [← place] at node
    refine (congrArg (call.IsSeen names before after) node).mpr ?_
    rw [place]
    refine ⟨?_, ⟨false, 0, rfl⟩, ?_, ⟨[], rfl, ?_, ?_⟩⟩
    · have text : call.text = call.name.text := by
        rw [Call.text, noText, nothing]
        exact List.append_nil _
      show call.nameSpan before = _
      rw [text, Call.nameSpan, noText, List.append_nil]
    · rw [Receiver.said, noReceiver]
      rfl
    · rw [nothing]
      rfl
    · intro last isLast
      exact absurd isLast (Option.not_mem_none last)

/-- **The node of a call in a program says what the call says.** -/
theorem Call.isSeen_of_follows {other : Tree} (follows : call.tree.Follows (Text.size before) other)
    (calls : call.IsBare → String.ofList call.name.text ∉ names)
    (few : (call.passed.said names).length < maxWord) :
    call.IsSeen names before after
      (other.lower (before ++ (call.text ++ after)) names .program).node := by
  by_cases more : call.receiver.tree?.isSome = true ∨ call.name.mark.isSome = true ∨
      call.passed.tree?.isSome = true
  · rw [call.tree_eq more] at follows
    cases follows with
    | node each => exact call.isSeen_of_parts each few
  · simp only [not_or, Bool.not_eq_true, Option.isSome_eq_false_iff, Option.isNone_iff_eq_none]
      at more
    exact Call.isSeen_of_bare more follows (calls more)

end Calls

end Ruby

end RecipeLint
