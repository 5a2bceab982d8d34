/-
**What a call binds.**

A call binds no name itself: what it binds is what its receiver and its arguments bind, each alone.
So a change of its name, or an option that is off as one more argument, binds nothing.

* `Call.locals_statement` — the names that a call binds.
* `Passed.locals_turningOff` — an option that is off binds none.
-/

import RecipeLint.Proofs.Ruby.CallNodes

namespace RecipeLint.Ruby

section Lists

variable {context : Context} {read : Reader Tree}

/-- The names that an argument binds. -/
def Argument.locals (argument : Argument context read) : List String :=
  argument.tree.locals argument.text .argumentList

/-- The names that the arguments of a list bind. -/
def Arguments.locals (arguments : Arguments context read) : List String :=
  arguments.all.flatMap Argument.locals

theorem Argument.locals_shift (argument : Argument context read) (before after : List Char) :
    (argument.tree.shift (Text.size before)).locals (before ++ (argument.text ++ after))
      .argumentList = argument.locals :=
  Tree.Follows.locals .argumentList (Tree.follows_shift _ _) argument.within

theorem Arguments.localsAll_trees (arguments : Arguments context read)
    (before after : List Char) :
    Tree.localsAll (before ++ (arguments.text ++ after)) .argumentList
      (arguments.trees (Text.size before)) = arguments.locals := by
  obtain ⟨first, more⟩ := arguments
  induction more generalizing first before with
  | nil =>
    have text : (Arguments.mk first []).text = first.text := List.append_nil _
    rw [text, trees, Tree.localsAll, first.locals_shift]
    rfl
  | cons further more ih =>
    have others := ih (before ++ (first.text ++ further.lead)) further.argument
    have text : before ++ ((Arguments.mk first (further :: more)).text ++ after) =
        (before ++ (first.text ++ further.lead)) ++
          ((Arguments.mk further.argument more).text ++ after) := by
      simp only [text_cons, List.append_assoc]
    have here : before ++ ((Arguments.mk first (further :: more)).text ++ after) =
        before ++ (first.text ++
          (further.lead ++ ((Arguments.mk further.argument more).text ++ after))) := by
      simp only [text_cons, List.append_assoc]
    rw [← text, Text.size_append before] at others
    rw [trees_cons, Tree.localsAll, others, here, first.locals_shift]
    rfl

/-- One more argument binds what it binds alone. -/
theorem Arguments.locals_adding (arguments : Arguments context read)
    {added : Argument context read} (free : added.locals = []) :
    (arguments.adding added).locals = arguments.locals := by
  obtain ⟨others, whole, wider⟩ := arguments.exists_all added
  rw [locals, locals, whole, wider, List.flatMap_append, List.flatMap_append]
  split <;> simp only [List.flatMap_cons, List.flatMap_nil, free, List.nil_append]

end Lists

/-- The names that is bound in what is passed. -/
def Passed.locals : Passed → List String
  | .nothing => []
  | .enclosed (.empty _) => []
  | .enclosed (.some _ arguments _ _) => arguments.locals
  | .command _ _ _ arguments _ _ => arguments.locals

/-- The names that are bound in a receiver. -/
def Receiver.locals (receiver : Receiver) : List String :=
  (receiver.tree?.map (·.locals receiver.text .call)).getD []

/-- **An option that is off binds no name.** -/
theorem Passed.locals_turningOff (passed : Passed) (option : MethodName)
    (unmarked : option.mark = none) :
    (passed.turningOff option unmarked).locals = passed.locals := by
  cases passed with
  | nothing => rfl
  | enclosed list =>
    cases list with
    | empty => rfl
    | some opening arguments => exact arguments.locals_adding rfl
  | command gap spaced stay arguments => exact arguments.locals_adding rfl

theorem Passed.locals_of_tree? {passed : Passed} (nothing : passed.tree? = none) :
    passed.locals = [] := by
  cases passed with
  | nothing => rfl
  | enclosed | command => cases nothing

/-- What is bound in the concrete tree of what is passed. -/
theorem Passed.localsAll_tree (passed : Passed) (before after : List Char) :
    ∀ list ∈ passed.tree?, Tree.localsAll (before ++ (passed.text ++ after)) .argumentList
      (Tree.shiftAll (Text.size before) list.parts) = passed.locals := by
  cases passed with
  | nothing => exact nofun
  | enclosed list =>
    rintro tree ⟨⟩
    cases list with
    | empty => rfl
    | some opening arguments closing trailing =>
      have text : before ++ ((Passed.enclosed (.some opening arguments closing trailing)).text ++
          after) = (before ++ '(' :: fillerText opening) ++
            (arguments.text ++ (closingText closing trailing ++ after)) := by
        simp only [Passed.text, Enclosed.text, Enclosed.inner, List.append_assoc, List.cons_append]
      rw [Enclosed.shiftAll_parts, Nat.add_comm, ← Text.size_append, text]
      exact arguments.localsAll_trees _ _
  | command gap spaced stay arguments =>
    rintro tree ⟨⟩
    have text : before ++ ((fillerText gap ++ arguments.text) ++ after) =
        (before ++ fillerText gap) ++ (arguments.text ++ after) := by
      simp only [List.append_assoc]
    rw [Passed.text, arguments.shiftAll_parts, Nat.add_comm, ← Text.size_append, text]
    exact arguments.localsAll_trees _ _

/-- Where a construct binds no identifier, only what stands below one is bound. -/
theorem Tree.locals_eq {source : List Char} {parent : Kind} {tree : Tree}
    (free : isBinding parent tree.role = false) :
    tree.locals source parent = Tree.localsAll source tree.kind tree.parts := by
  obtain ⟨role, kind, span, parts⟩ := tree
  change isBinding parent role = false at free
  exact if_neg fun binds => by
    rw [free] at binds
    cases binds.2

theorem localsAll_calleeParts (call : Call) :
    Tree.localsAll call.text .call (calleeParts call.receiver.tree?
      (Text.size call.receiver.text) call.name) = call.receiver.locals := by
  have name (start stop : Nat) :
      Tree.localsAll call.text .call [(Tree.leaf .identifier ⟨start, stop⟩).as .method] = [] := by
    rw [Tree.localsAll, Tree.locals_eq rfl]
    rfl
  rw [calleeParts, localsAll_append, name, List.append_nil, Receiver.locals]
  cases given : call.receiver.tree? with
  | none => rfl
  | some tree =>
    have within := call.receiver.within_tree tree given
    have here := @Tree.Follows.locals [] call.receiver.text
      (call.name.text ++ call.passed.text) .call _ _ (Tree.follows_refl tree) within
    show Tree.locals call.text .call (tree.as .receiver) ++ [] =
      tree.locals call.receiver.text .call
    rw [List.append_nil, Tree.locals_eq rfl, ← here, Tree.locals_eq]
    · rfl
    · cases tree.role <;> rfl

/-- **A call binds what its receiver and its arguments bind.** -/
theorem Call.locals_statement (call : Call) :
    call.statement.locals = call.receiver.locals ++ call.passed.locals := by
  show call.tree.locals call.text .program = _
  by_cases more : call.receiver.tree?.isSome = true ∨ call.name.mark.isSome = true ∨
      call.passed.tree?.isSome = true
  · rw [call.tree_eq more, Tree.locals_eq rfl]
    show Tree.localsAll call.text .call (callParts _ _ _ _) = _
    rw [callParts, localsAll_append, localsAll_calleeParts]
    refine congrArg (call.receiver.locals ++ ·) ?_
    cases given : call.passed.tree? with
    | none => exact (Passed.locals_of_tree? given).symm
    | some list =>
      have inside := call.passed.localsAll_tree (call.receiver.text ++ call.name.text) [] list given
      rw [List.append_nil, List.append_assoc, Text.size_append] at inside
      obtain ⟨role, kind, span, parts⟩ := list
      obtain rfl : kind = .argumentList := call.passed.kind_tree _ given
      show Tree.locals call.text .call (.node (some .arguments) .argumentList _ _) ++ [] = _
      rw [List.append_nil, Tree.locals_eq rfl]
      exact inside
  · simp only [not_or, Bool.not_eq_true, Option.isSome_eq_false_iff, Option.isNone_iff_eq_none]
      at more
    obtain ⟨noReceiver, noMark, noList⟩ := more
    rw [Call.tree, noReceiver, noList, callTree, calleeTree_bare noMark, Tree.locals_eq rfl,
      Receiver.locals, noReceiver, Passed.locals_of_tree? noList]
    rfl

end RecipeLint.Ruby
