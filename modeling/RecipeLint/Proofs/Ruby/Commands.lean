/-
**Arguments without parentheses.**

The arguments of a command start on its line and end where the line has nothing more for them. A
comma between them stands on the line of the argument before it; behind it the list may go on below.

* `Arguments.IsTight` — all commas stand where the reader looks for them.
* `Reader.furtherArgument` — the reader of an argument behind a comma.
* `Reader.commandArguments_ok` — the reader finds the whole list.
-/

import RecipeLint.Proofs.Ruby.Arguments

namespace RecipeLint.Ruby

/-! ### Lists without parentheses -/

/-- The words that may follow the arguments of a command. -/
def commandWords : List String := ["do", "\x7b"]

/-- What holds for the arguments of a command. -/
def Context.commanded (context : Context) : Context :=
  { context.before ("and" :: "or" :: commandWords) with
    commands := true, listed := true, keyed := true, unnamed := false }

/-- Whether all commas of a list stand on the lines of the arguments before them. -/
def Arguments.IsTight {context : Context} {read : Reader Tree}
    (arguments : Arguments context read) : Prop :=
  ∀ further ∈ arguments.more, further.before.all Filler.staysOnLine = true

/-- The concrete tree of a list without parentheses alone. -/
def Arguments.tree {context : Context} {read : Reader Tree} (arguments : Arguments context read) :
    Tree :=
  .of .argumentList ⟨0, Text.size arguments.text⟩ (arguments.trees 0)

theorem Arguments.within_tree {context : Context} {read : Reader Tree}
    (arguments : Arguments context read) : arguments.tree.Within arguments.text := by
  refine .node ⟨[], arguments.text, [], (List.append_nil _).symm, rfl, Nat.zero_add _⟩ ?_
  have inside := arguments.within_trees [] []
  rwa [List.append_nil, List.nil_append] at inside

/-! ### Reading lists -/

namespace Reader

/-- Reads an argument of a command behind a comma, if there is one. -/
def furtherArgument : Reader (Option Tree) :=
  attempt do
    skipSpace
    let comma ← get
    unless ← accept "," do return none
    skipLines
    if ← sees "," then throw (.unexpected comma.tokenSpan comma.tokenSpan [])
    some <$> ending (Ending.settle comma.offset) commandArgument

theorem commandArguments_eq (setting : Setting) (cursor : Cursor) :
    commandArguments commandWords setting cursor =
      (do
        let start ← position
        let first ← ending (Ending.settle start) commandArgument
        let more ← many furtherArgument
        return Tree.of .argumentList (← spanFrom start) (first :: more))
      { setting with context := setting.context.commanded } cursor :=
  rfl

variable {context : Context} {bound depth : Nat}

/-- Behind an argument of a command stands another one on the line, or the end of the list. -/
theorem quiet_of_further (lines : context.lines = true)
    {more : List (Further context.commanded commandArgument)}
    (tight : ∀ further ∈ more, further.before.all Filler.staysOnLine = true) {rest : List Char}
    (quiet : Quiet context rest) : Quiet context.commanded (moreText more ++ rest) := by
  cases more with
  | nil =>
    have commanded : Quiet context.commanded rest := quiet.mono rfl fun _ => rfl
    exact commanded
  | cons further more =>
    have comma (text : List Char) : Halts context.commanded.listed (',' :: text) := .comma rfl text
    rw [moreText_cons, List.append_assoc, List.cons_append]
    exact .line lines (blanks_of_fillers (comma _).stands (tight further List.mem_cons_self)) nofun
      (comma _)

/-- Behind the last argument there is no other. -/
theorem furtherArgument_none {cursor : Cursor} (single : context.listed = false)
    (quiet : Quiet context cursor.rest) (free : cursor.heredocs = [])
    (enough : cursor.rest.length < bound) :
    furtherArgument (settingAt context.commanded bound depth) cursor = .ok (none, cursor) := by
  obtain ⟨next, stop, moved, reaches, halts⟩ :=
    skipSpace_ok (settingAt context.commanded bound depth) quiet rfl rfl free enough
  have noComma : stop.sees "," = false := by
    rw [Cursor.sees, reaches.1]
    cases halts with
    | comma separates =>
      rw [single] at separates
      cases separates
    | _ => rfl
  unfold furtherArgument
  simp only [attempt_apply, bind_apply, moved, get_apply, accept_apply, noComma, ite_apply,
    pure_apply, Bool.false_eq_true, if_false]

/-- An argument behind a comma is read. -/
theorem furtherArgument_some (bound depth : Nat)
    {further : Further context.commanded commandArgument} {cursor : Cursor} {rest : List Char}
    (lines : context.lines = true)
    (tight : further.before.all Filler.staysOnLine = true)
    (here : cursor.rest = further.text ++ rest) (free : cursor.heredocs = [])
    (quiet : Quiet context.commanded rest) (enough : cursor.rest.length < bound)
    (deep : nestingPerCharacter * further.argument.text.length ≤ depth) :
    ∃ after, furtherArgument (settingAt context.commanded bound depth) cursor =
        .ok (some (further.argument.tree.shift (further.start cursor.offset)), after) ∧
      cursor.Takes further.text after := by
  rw [Further.text, List.append_assoc, List.cons_append, List.append_assoc] at here
  obtain ⟨stop, moved, reaches⟩ :=
    skipSpace_of_line (settingAt context.commanded bound depth) lines
      (blanks_of_fillers (Halts.comma rfl _ : Halts true _).stands tight)
      (fun same => absurd (Option.some.inj same) (by decide)) here free (here ▸ enough)
  have skips := reaches.skips here
  have comma : stop.rest = [','] ++ _ := reaches.1
  obtain ⟨takes, left⟩ := Cursor.eat_takes comma skips.stillFree
  have shorter : (stop.eat 1).rest.length < bound :=
    Nat.lt_of_le_of_lt (Nat.le_trans takes.toPasses.length_le skips.toPasses.length_le) enough
  obtain ⟨c, chars, same, starts⟩ := further.argument.text_eq_cons
  have there := left
  rw [same, List.cons_append] at there
  obtain ⟨start, skipped, found, skipsOn⟩ :=
    skipLines_fillers (settingAt context.commanded bound depth) there
      (stands_of_listed starts) (ne_of_listed starts rfl) (ne_of_listed starts rfl)
      takes.stillFree shorter
  have whole : start.rest = further.argument.text ++ rest := by
    rw [found, same]
    rfl
  obtain ⟨after, read, ends⟩ := further.argument.reads bound depth whole skipsOn.stillFree quiet
    (Nat.lt_of_le_of_lt skipsOn.toPasses.length_le shorter) deep
  have single : start.sees "," = false := by
    rw [sees_of_cons found ',' rfl]
    exact decide_eq_false (ne_of_listed starts rfl).symm
  have isComma : stop.sees "," = true := stop.sees_of_append comma "," rfl
  have width : ",".length = [','].length := rfl
  have one : Text.size [','] = 1 := rfl
  have position : start.offset = further.start cursor.offset := by
    rw [skipsOn.offset, takes.offset, skips.offset, one, Further.start]
  have settled : ending (Ending.settle stop.offset) commandArgument
      (settingAt context.commanded bound depth) start = .ok (_, after) := ending_of_ok read
  refine ⟨after, ?_, ?_⟩
  · unfold furtherArgument
    simp only [attempt_apply, bind_apply, moved, get_apply, accept_apply, isComma, ite_apply,
      pure_apply, width, skipped, sees_apply, single, map_apply, settled, position,
      Bool.false_eq_true, if_false, if_true]
  · exact .trans skips.toPasses (.trans takes.toPasses (.trans skipsOn.toPasses ends))

/-- The arguments behind commas are read up to the end of the list. -/
theorem manyUpTo_further (bound depth count : Nat)
    {more : List (Further context.commanded commandArgument)}
    {cursor : Cursor} {rest : List Char} (lines : context.lines = true)
    (single : context.listed = false)
    (tight : ∀ further ∈ more, further.before.all Filler.staysOnLine = true)
    (here : cursor.rest = moreText more ++ rest) (free : cursor.heredocs = [])
    (atLast : cursor.last = cursor.offset)
    (quiet : Quiet context rest) (enough : cursor.rest.length < bound)
    (often : cursor.rest.length < count)
    (deep : nestingPerCharacter * (moreText more).length ≤ depth) :
    ∃ after, manyUpTo furtherArgument count (settingAt context.commanded bound depth) cursor =
        .ok (moreTrees cursor.offset more, after) ∧
      cursor.Takes (moreText more) after := by
  induction more generalizing cursor count with
  | nil =>
    obtain ⟨count, rfl⟩ := Nat.exists_eq_succ_of_ne_zero (Nat.ne_zero_of_lt often)
    have left : cursor.rest = rest := here
    refine ⟨cursor, ?_, (Cursor.Skips.refl free).toPasses, atLast⟩
    simp only [manyUpTo, bind_apply, furtherArgument_none single (left ▸ quiet) free enough,
      pure_apply, moreTrees]
  | cons further more ih =>
    obtain ⟨count, rfl⟩ := Nat.exists_eq_succ_of_ne_zero (Nat.ne_zero_of_lt often)
    obtain ⟨first, others⟩ := List.forall_mem_cons.mp tight
    have whole : moreText (further :: more) = further.text ++ moreText more := List.flatMap_cons
    rw [whole, List.append_assoc] at here
    rw [whole, List.length_append, Nat.mul_add] at deep
    have part : further.argument.text.length ≤ further.text.length := by
      simp only [Further.text, List.length_append, List.length_cons]
      omega
    have some := further.argument.length_pos
    obtain ⟨middle, read, takes⟩ := furtherArgument_some bound depth lines first here free
      (quiet_of_further lines others quiet) enough
      (Nat.le_trans (Nat.mul_le_mul_left _ part) (Nat.le_trans (Nat.le_add_right _ _) deep))
    have left := takes.rest_eq here
    have shorter : middle.rest.length < cursor.rest.length := by
      simp only [left, here, List.length_append]
      omega
    obtain ⟨after, later, onward⟩ := ih count others left takes.stillFree takes.last
      (Nat.lt_trans shorter enough) (by omega) (Nat.le_trans (Nat.le_add_left _ _) deep)
    refine ⟨after, ?_, whole ▸ .trans takes.toPasses onward⟩
    simp only [manyUpTo, bind_apply, read, later, pure_apply, moreTrees, takes.offset]

/-- **The arguments of a command are read.** -/
theorem commandArguments_ok {arguments : Arguments context.commanded commandArgument}
    {cursor : Cursor} {rest : List Char} (lines : context.lines = true)
    (single : context.listed = false) (tight : arguments.IsTight)
    (here : cursor.rest = arguments.text ++ rest) (free : cursor.heredocs = [])
    (quiet : Quiet context rest) (enough : cursor.rest.length < bound)
    (deep : nestingPerCharacter * arguments.text.length ≤ depth) :
    ∃ after, commandArguments commandWords (settingAt context bound depth) cursor =
        .ok (arguments.tree.shift cursor.offset, after) ∧
      cursor.Takes arguments.text after := by
  rw [Arguments.text, List.append_assoc] at here
  rw [Arguments.text, List.length_append, Nat.mul_add] at deep
  obtain ⟨middle, read, takes⟩ := arguments.first.reads bound depth here free
    (quiet_of_further lines tight quiet) enough (Nat.le_trans (Nat.le_add_right _ _) deep)
  have left := takes.rest_eq here
  have shorter := Nat.lt_of_le_of_lt takes.toPasses.length_le enough
  obtain ⟨after, more, onward⟩ := manyUpTo_further bound depth bound lines single tight left
    takes.stillFree takes.last quiet shorter shorter
    (Nat.le_trans (Nat.le_add_left _ _) deep)
  have whole : cursor.Takes arguments.text after := .trans takes.toPasses onward
  refine ⟨after, ?_, whole⟩
  have settled : ending (Ending.settle cursor.offset) commandArgument
      (settingAt context.commanded bound depth) cursor = .ok (_, middle) := ending_of_ok read
  have repeated : many furtherArgument (settingAt context.commanded bound depth) middle =
      .ok (moreTrees middle.offset arguments.more, after) := by
    simp only [many, bind_apply, bound_apply]
    exact more
  have tree : arguments.tree.shift cursor.offset =
      .of .argumentList ⟨cursor.offset, after.last⟩ (arguments.trees cursor.offset) := by
    have moved := arguments.shiftAll_trees 0 cursor.offset
    rw [Nat.zero_add] at moved
    rw [← moved, ← whole.span_shift]
    rfl
  have reset : { settingAt context bound depth with
      context := (settingAt context bound depth).context.commanded } =
      settingAt context.commanded bound depth := rfl
  rw [commandArguments_eq, reset]
  simp only [bind_apply, position_apply, settled, repeated, spanFrom_apply, pure_apply, tree,
    Arguments.trees, takes.offset]

end Reader

end RecipeLint.Ruby
