/-
**One more argument.**

An argument is added to what is passed to a method: behind the last argument, or before it if that
passes a block on; between empty parentheses, or between new ones. The text of what is passed gains
the argument and a comma at one place, and stays as it is before and behind it.

* `Gains` — a text gains another one at a place.
* `Arguments.adding` — a list of arguments with one more.
* `Passed.turningOff` — what is passed, with an option that is off.
* `Passed.gains` — what the text of what is passed gains, and where.
-/

import RecipeLint.Proofs.Ruby.Calls
import RecipeLint.Proofs.Ruby.Options

namespace RecipeLint.Ruby

/-! ### Texts -/

/-- **A text gains another one at a place.** -/
def Gains (place : Nat) (inserted text wider : List Char) : Prop :=
  ∃ before after, Text.size before = place ∧ text = before ++ after ∧
    wider = before ++ (inserted ++ after)

theorem Gains.prepend {place : Nat} {inserted text wider : List Char}
    (gains : Gains place inserted text wider) (front : List Char) :
    Gains (Text.size front + place) inserted (front ++ text) (front ++ wider) := by
  obtain ⟨before, after, rfl, rfl, rfl⟩ := gains
  exact ⟨front ++ before, after, Text.size_append _ _, (List.append_assoc ..).symm,
    (List.append_assoc ..).symm⟩

theorem Gains.append {place : Nat} {inserted text wider : List Char}
    (gains : Gains place inserted text wider) (behind : List Char) :
    Gains place inserted (text ++ behind) (wider ++ behind) := by
  obtain ⟨before, after, rfl, rfl, rfl⟩ := gains
  exact ⟨before, after ++ behind, rfl, List.append_assoc .., by simp only [List.append_assoc]⟩

/-! ### Lists of arguments -/

section Lists

variable {context : Context} {read : Reader Tree}

/-- Whether an argument passes a block on. -/
def Argument.passesBlock (argument : Argument context read) : Bool :=
  argument.tree.is .blockArgument

/-- An argument behind another one on its line. -/
def Argument.next (argument : Argument context read) : Further context read :=
  ⟨[], [.blank ' ' isGap_space], argument⟩

/-- What stands between an argument behind a comma and the argument before it. -/
def Further.lead (further : Further context read) : List Char :=
  fillerText further.before ++ ',' :: fillerText further.behind

/-- The last argument of a list. -/
def lastOf (first : Argument context read) : List (Further context read) → Argument context read
  | [] => first
  | further :: more => lastOf further.argument more

/-- How all arguments but the last are written, with the commas behind them. -/
def textBeforeLast (first : Argument context read) : List (Further context read) → List Char
  | [] => []
  | further :: more =>
    first.text ++ (further.lead ++ textBeforeLast further.argument more)

/-- **A list with one more argument**, behind the last one or before a block that is passed on. -/
def addingTo (added first : Argument context read) :
    List (Further context read) → Arguments context read
  | [] => if first.passesBlock then ⟨added, [first.next]⟩ else ⟨first, [added.next]⟩
  | further :: more =>
    let others := addingTo added further.argument more
    ⟨first, { further with argument := others.first } :: others.more⟩

namespace Arguments

/-- A list of arguments with one more. -/
def adding (arguments : Arguments context read) (added : Argument context read) :
    Arguments context read :=
  addingTo added arguments.first arguments.more

/-- The last argument. -/
def last (arguments : Arguments context read) : Argument context read :=
  lastOf arguments.first arguments.more

/-- How all arguments but the last are written. -/
def front (arguments : Arguments context read) : List Char :=
  textBeforeLast arguments.first arguments.more

/-- Where one more argument goes: before a block that is passed on, or behind the last argument. -/
def place (arguments : Arguments context read) : Nat :=
  Text.size arguments.front +
    if arguments.last.passesBlock then 0 else Text.size arguments.last.text

/-- What is put in there. -/
def inserted (arguments : Arguments context read) (added : List Char) : List Char :=
  if arguments.last.passesBlock then added ++ ", ".toList else ", ".toList ++ added

end Arguments

theorem Arguments.text_cons (first : Argument context read) (further : Further context read)
    (more : List (Further context read)) :
    (Arguments.mk first (further :: more)).text =
      first.text ++ (further.lead ++ (Arguments.mk further.argument more).text) := by
  rw [text, moreText_cons, Further.lead, List.append_assoc]
  rfl

/-- The trees behind the first one are those of a list that starts behind the comma. -/
theorem Arguments.trees_cons (first : Argument context read) (further : Further context read)
    (more : List (Further context read)) (position : Nat) :
    Arguments.trees position ⟨first, further :: more⟩ =
      first.tree.shift position ::
        Arguments.trees (position + Text.size (first.text ++ further.lead))
          ⟨further.argument, more⟩ := by
  have start : further.start (position + Text.size first.text) =
      position + Text.size (first.text ++ further.lead) := by
    rw [further.start_eq, Further.lead, Nat.add_assoc, ← Text.size_append]
  have next : position + Text.size first.text + Text.size further.text =
      position + Text.size (first.text ++ further.lead) + Text.size further.argument.text := by
    rw [← further.start_add_size, start]
  rw [trees, moreTrees, start, next]
  rfl

/-- The trees of a list without parentheses behind a gap. -/
theorem Arguments.shiftAll_parts (arguments : Arguments context read) (gap position : Nat) :
    Tree.shiftAll position (arguments.tree.shift gap).parts = arguments.trees (gap + position) := by
  show Tree.shiftAll position (Tree.shiftAll gap (arguments.trees 0)) = _
  rw [Tree.shiftAll_shiftAll, arguments.shiftAll_trees, Nat.zero_add]

theorem text_eq_textBeforeLast (first : Argument context read)
    (more : List (Further context read)) :
    (Arguments.mk first more).text = textBeforeLast first more ++ (lastOf first more).text := by
  induction more generalizing first with
  | nil => exact List.append_nil _
  | cons further more ih =>
    rw [Arguments.text_cons, ih, textBeforeLast, lastOf]
    simp only [List.append_assoc]

theorem text_addingTo (added first : Argument context read) (more : List (Further context read)) :
    (addingTo added first more).text = textBeforeLast first more ++
      if (lastOf first more).passesBlock then
        added.text ++ (", ".toList ++ (lastOf first more).text)
      else (lastOf first more).text ++ (", ".toList ++ added.text) := by
  induction more generalizing first with
  | nil =>
    have behind (argument : Argument context read) :
        moreText [argument.next] = ", ".toList ++ argument.text := List.append_nil _
    rw [addingTo, lastOf, textBeforeLast, List.nil_append]
    split <;> rw [Arguments.text, behind]
  | cons further more ih =>
    have same : (addingTo added first (further :: more)).text =
        first.text ++ (further.lead ++ (addingTo added further.argument more).text) :=
      Arguments.text_cons first _ _
    rw [same, ih, lastOf, textBeforeLast]
    simp only [List.append_assoc]

/-- **The text of a list gains one more argument** and a comma. -/
theorem Arguments.gains (arguments : Arguments context read) (added : Argument context read) :
    Gains arguments.place (arguments.inserted added.text) arguments.text
      (arguments.adding added).text := by
  have whole : arguments.text = arguments.front ++ arguments.last.text :=
    text_eq_textBeforeLast arguments.first arguments.more
  have wider := text_addingTo added arguments.first arguments.more
  change (arguments.adding added).text = arguments.front ++
    (if arguments.last.passesBlock then added.text ++ (", ".toList ++ arguments.last.text)
      else arguments.last.text ++ (", ".toList ++ added.text)) at wider
  rw [place, inserted, whole, wider]
  split
  · exact ⟨arguments.front, arguments.last.text, rfl, rfl, by rw [List.append_assoc]⟩
  · exact ⟨arguments.front ++ arguments.last.text, [], Text.size_append _ _,
      (List.append_nil _).symm, by rw [List.append_nil, List.append_assoc]⟩

/-- All commas stay on their lines. -/
theorem Arguments.IsTight.adding {arguments : Arguments context read} (tight : arguments.IsTight)
    (added : Argument context read) : (arguments.adding added).IsTight := by
  obtain ⟨first, more⟩ := arguments
  show ∀ further ∈ (addingTo added first more).more, _
  change ∀ further ∈ more, _ at tight
  induction more generalizing first with
  | nil =>
    rw [addingTo]
    split <;> exact List.forall_mem_singleton.mpr rfl
  | cons further more ih =>
    obtain ⟨here, others⟩ := List.forall_mem_cons.mp tight
    exact List.forall_mem_cons.mpr ⟨here, ih further.argument others⟩

/-- The list starts as before, or with the argument that is added. -/
theorem Arguments.first_adding (arguments : Arguments context read)
    (added : Argument context read) :
    (arguments.adding added).first = arguments.first ∨ (arguments.adding added).first = added := by
  obtain ⟨first, more⟩ := arguments
  cases more with
  | nil =>
    show (addingTo added first []).first = first ∨ (addingTo added first []).first = added
    rw [addingTo]
    split
    · exact Or.inr rfl
    · exact Or.inl rfl
  | cons => exact Or.inl rfl

/-- All arguments of a list. -/
def Arguments.all (arguments : Arguments context read) : List (Argument context read) :=
  arguments.first :: arguments.more.map (·.argument)

/-- **The added argument comes last**, or directly before a block that is passed on. -/
theorem Arguments.exists_all (arguments : Arguments context read) (added : Argument context read) :
    ∃ others, arguments.all = others ++ [arguments.last] ∧
      (arguments.adding added).all = others ++
        if arguments.last.passesBlock then [added, arguments.last]
        else [arguments.last, added] := by
  obtain ⟨first, more⟩ := arguments
  show ∃ others, all ⟨first, more⟩ = others ++ [lastOf first more] ∧
    (addingTo added first more).all = others ++
      if (lastOf first more).passesBlock then [added, lastOf first more]
      else [lastOf first more, added]
  induction more generalizing first with
  | nil =>
    refine ⟨[], rfl, ?_⟩
    rw [addingTo, lastOf]
    split <;> rfl
  | cons further more ih =>
    obtain ⟨others, whole, wider⟩ := ih further.argument
    exact ⟨first :: others, congrArg (first :: ·) whole, congrArg (first :: ·) wider⟩

end Lists

/-- The trees of a list in parentheses. -/
theorem Enclosed.shiftAll_parts (opening : List Filler)
    (arguments : Arguments .bracketed Reader.argument) (closing : List Filler)
    (trailing : Option (List Filler)) (position : Nat) :
    Tree.shiftAll position (Enclosed.some opening arguments closing trailing).tree.parts =
      arguments.trees (Text.size ('(' :: fillerText opening) + position) :=
  arguments.shiftAll_trees (1 + Text.size (fillerText opening)) position

/-! ### What is passed -/

section Passed

variable (option : MethodName) (unmarked : option.mark = none)

include unmarked

/-- An option that is off can start the arguments of a command. -/
theorem startsArgument_off (rest : List Char) :
    startsArgument statementContext true (offText option ++ rest) = true := by
  obtain ⟨c, more, same, -, small⟩ := option.text_eq_cons
  have key : argumentKeyOf (offText option ++ rest) = some option.text :=
    argumentKeyOf_keyed unmarked "false".toList rest
  have first : offText option ++ rest = c :: (more ++ ": false".toList ++ rest) := by
    rw [offText, keyedText, same]
    rfl
  have other {sign : Char} (large : sign.isLower = false) : sign ≠ c :=
    (ne_of_lower small large).symm
  unfold startsArgument
  rw [first] at key ⊢
  split
  case h_7 => rw [key]; rfl
  all_goals exact absurd (List.cons.inj ‹_›).1.symm (other rfl)

/-- **What is passed, with an option that is off.** -/
def Passed.turningOff : Passed → Passed
  | .nothing => .enclosed (.some [] ⟨.off _ .enclosed option unmarked, []⟩ [] none)
  | .enclosed (.empty inside) =>
    .enclosed (.some [] ⟨.off _ .enclosed option unmarked, []⟩ inside none)
  | .enclosed (.some opening arguments closing trailing) =>
    .enclosed (.some opening (arguments.adding (.off _ .enclosed option unmarked)) closing trailing)
  | .command gap spaced stay arguments tight starts =>
    .command gap spaced stay (arguments.adding (.off _ .command option unmarked))
      (tight.adding _) fun rest quiet => by
        rcases arguments.first_adding (.off _ .command option unmarked) with same | same
        · rw [same]
          exact starts rest quiet
        · rw [same]
          exact startsArgument_off option unmarked rest

end Passed

/-- Where one more argument goes in what is passed. -/
def Passed.place : Passed → Nat
  | .nothing => 0
  | .enclosed (.empty _) => 1
  | .enclosed (.some opening arguments _ _) => 1 + Text.size (fillerText opening) + arguments.place
  | .command gap _ _ arguments _ _ => Text.size (fillerText gap) + arguments.place

/-- What is put in there. -/
def Passed.inserted (added : List Char) : Passed → List Char
  | .nothing => '(' :: (added ++ [')'])
  | .enclosed (.empty _) => added
  | .enclosed (.some _ arguments _ _) => arguments.inserted added
  | .command _ _ _ arguments _ _ => arguments.inserted added

/-- A list with a single argument behind the parenthesis. -/
theorem Enclosed.text_single (argument : Argument .bracketed Reader.argument)
    (closing : List Filler) :
    (Enclosed.some [] ⟨argument, []⟩ closing none).text =
      ['('] ++ (argument.text ++ (fillerText closing ++ [')'])) := by
  show '(' :: ([] ++ ((argument.text ++ []) ++ closingText closing none)) = _
  rw [List.append_nil, closingText]
  rfl

/-- **The text of what is passed gains the option.** -/
theorem Passed.gains (passed : Passed) (option : MethodName) (unmarked : option.mark = none) :
    Gains passed.place (passed.inserted (offText option)) passed.text
      (passed.turningOff option unmarked).text := by
  cases passed with
  | nothing =>
    have single := Enclosed.text_single (.off .bracketed .enclosed option unmarked) []
    exact ⟨[], [], rfl, rfl, single.trans (List.append_nil _).symm⟩
  | enclosed list =>
    cases list with
    | empty inside =>
      exact ⟨['('], fillerText inside ++ [')'], rfl, rfl, Enclosed.text_single _ inside⟩
    | some opening arguments closing trailing =>
      have inner := (arguments.gains (.off .bracketed .enclosed option unmarked)).append
        (closingText closing trailing)
      exact inner.prepend ('(' :: fillerText opening)
  | command gap spaced stay arguments =>
    exact (arguments.gains (.off _ .command option unmarked)).prepend (fillerText gap)

end RecipeLint.Ruby
