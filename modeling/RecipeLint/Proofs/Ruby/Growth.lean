/-
**Primaries that grow.**

A primary is read from its first name on, in steps: a step adds arguments between parentheses, a
dot with the name of a method, or arguments without parentheses. After the last of these nothing
else is added.

* `Reader.Grown` — a primary has grown to an operand in a number of steps.
* `Reader.Grown.primary` — what can grow no more is the primary.
* `Reader.extension_enclosed`, `Reader.extension_dot`, `Reader.extension_command` — the steps.
-/

import RecipeLint.Proofs.Ruby.Commands
import RecipeLint.Proofs.Ruby.Names

namespace RecipeLint.Ruby

/-- What holds for the statements of a program, where a modifier may follow. -/
def statementContext : Context :=
  programContext.before (Reader.modifiers.map (·.1))

namespace Reader

/-! ### Steps -/

/-- **A primary has grown to an operand** in a number of steps from where it starts. -/
inductive Grown (setting : Setting) (cursor : Cursor) : Nat → Operand → Cursor → Prop
  | atom {first : Operand} {after : Cursor} (read : atom setting cursor = .ok (first, after)) :
      Grown setting cursor 0 first after
  | extension {steps : Nat} {operand longer : Operand} {middle after : Cursor}
      (before : Grown setting cursor steps operand middle)
      (read : extension operand setting middle = .ok (some longer, after)) :
      Grown setting cursor (steps + 1) longer after

section Growing

variable {setting : Setting} {cursor after : Cursor} {steps : Nat} {operand : Operand}

theorem Grown.extendUpTo (grown : Grown setting cursor steps operand after) (count : Nat) :
    (Reader.atom >>= Reader.extendUpTo Reader.extension (count + steps)) setting cursor =
      Reader.extendUpTo Reader.extension count operand setting after := by
  induction grown generalizing count with
  | atom read => rw [bind_apply, read, Nat.add_zero]
  | @extension steps operand longer middle after before read ih =>
    have sum : count + (steps + 1) = count + 1 + steps := by omega
    rw [sum, ih (count + 1)]
    simp only [Reader.extendUpTo, bind_apply, read]

/-- **What can grow no more is the primary.** -/
theorem Grown.primary (grown : Grown setting cursor steps operand after)
    (few : steps ≤ setting.bound)
    (whole : ∀ count, Reader.extendUpTo Reader.extension count operand setting after =
      .ok (operand, after)) :
    Reader.primary setting cursor = .ok (operand, after) := by
  obtain ⟨count, same⟩ := Nat.exists_eq_add_of_le' few
  have run := grown.extendUpTo count
  rw [whole, bind_apply] at run
  unfold Reader.primary
  rw [bind_apply]
  cases start : Reader.atom setting cursor with
  | error failure =>
    rw [start] at run
    cases run
  | ok result =>
    rw [start] at run
    obtain ⟨first, middle⟩ := result
    simp only [largest, extend, bind_apply, bound_apply, same]
    exact run

/-- Nothing is added to a command. -/
theorem extendUpTo_command (command : operand.command = true) (count : Nat) :
    extendUpTo extension count operand setting cursor = .ok (operand, cursor) := by
  cases count with
  | zero => rfl
  | succ count =>
    unfold extendUpTo extension
    simp only [bind_apply, command, pure_apply, if_true]

end Growing

/-! ### Arguments between parentheses -/

section Steps

variable {context : Context} {bound depth : Nat} {cursor : Cursor} {rest : List Char} {tree : Tree}
  {parts : List Tree}

/-- **Arguments between parentheses are added to a name.** -/
theorem extension_enclosed (context : Context) {list : Enclosed}
    (callee : tree.calleeParts? = some parts)
    (here : cursor.rest = list.text ++ rest) (free : cursor.heredocs = [])
    (atLast : cursor.last = cursor.offset) (enough : cursor.rest.length < bound)
    (deep : nestingPerCharacter * list.text.length ≤ depth) :
    ∃ after, extension { tree } (settingAt context bound depth) cursor =
        .ok (some ⟨.of .call ⟨tree.span.start, after.offset⟩
          (parts ++ [(list.tree.shift cursor.offset).as .arguments]), false⟩, after) ∧
      cursor.Takes list.text after := by
  obtain ⟨after, read, takes⟩ := bracketedArguments_ok context here free enough deep
  have sign : cursor.rest = '(' :: (list.inner ++ rest) := here
  have noColons : cursor.sees "::" = false := by
    rw [Cursor.sees, sign]
    rfl
  have noBracket : cursor.sees "[" = false := sees_of_cons sign '[' rfl
  have parenthesis : cursor.sees "(" = true := sees_of_cons sign '(' rfl
  have tight : cursor.isSpaced = false := by
    rw [Cursor.isSpaced, atLast]
    exact decide_eq_false (Nat.lt_irrefl _)
  refine ⟨after, ?_, takes⟩
  unfold extension tightExtension withPart
  simp only [bind_apply, get_apply, ite_apply, pure_apply, tight, noColons, noBracket, parenthesis,
    callee, read, spanFrom_apply, takes.last, Bool.false_eq_true, if_false, if_true]

/-! ### Methods on receivers -/

/-- The reader stays before a token. -/
theorem skipSpace_stays (setting : Setting) {c : Char} (here : cursor.rest = c :: rest)
    (stands : Stands (c :: rest)) (token : c ≠ '\n') (noBlock : c ≠ '=')
    (free : cursor.heredocs = []) (enough : cursor.rest.length < setting.bound) :
    ∃ stop, skipSpace setting cursor = .ok ((), stop) ∧ stop.rest = c :: rest ∧
      cursor.Skips [] stop := by
  cases lines : setting.context.lines with
  | true =>
    obtain ⟨stop, moved, reaches⟩ := skipSpace_of_line setting lines (.here stands)
      (fun same => token (Option.some.inj same)) here free (here ▸ enough)
    exact ⟨stop, moved, reaches.1, reaches.skips here⟩
  | false =>
    obtain ⟨stop, moved, found, skips⟩ :=
      skipLines_fillers setting (show cursor.rest = fillerText [] ++ c :: rest from here) stands
        token noBlock free enough
    refine ⟨stop, ?_, found, skips⟩
    simp only [skipSpace, bind_apply, context_apply, lines, ite_apply, moved]
    rfl

section Names

variable {setting : Setting} {name : MethodName}

theorem stands_of_wordStart (rest : List Char) {c : Char} (starts : isWordStart c = true) :
    Stands (c :: rest) ∧ c ≠ '\n' ∧ c ≠ '=' ∧ c ≠ '(' ∧ c ≠ '.' := by
  have other {sign : Char} (noStart : isWordStart sign = false) : c ≠ sign := by
    rintro rfl
    rw [starts] at noStart
    cases noStart
  refine ⟨?_, other rfl, other rfl, other rfl, other rfl⟩
  rintro d ⟨⟩
  refine ⟨fun gap => ?_, other rfl, other rfl⟩
  unfold isGap at gap
  simp only [Bool.or_eq_true, beq_iff_eq] at gap
  rcases gap with ((rfl | rfl) | rfl) | rfl
  · exact absurd rfl (other rfl)
  · exact absurd rfl (other rfl)
  · exact absurd rfl (other rfl)
  · rfl

/-- The method that is called on a receiver is read. -/
theorem calledMethod_ok (tree : Tree) (setting : Setting) (here : cursor.rest = name.text ++ rest)
    (ends : EndsName rest)
    (free : cursor.heredocs = []) :
    ∃ after, calledMethod tree setting cursor =
        .ok (.of .call ⟨tree.span.start, after.offset⟩
          [tree.as .receiver, (Tree.leaf .identifier ⟨cursor.offset, after.offset⟩).as .method],
          after) ∧
      cursor.Takes name.text after := by
  obtain ⟨takes, -⟩ := Cursor.eat_takes here free
  obtain ⟨c, chars, same, -⟩ := name.text_eq_cons
  have long : cursor.rest.isEmpty = false := by
    rw [here, same]
    rfl
  have some : name.text.isEmpty = false := by
    rw [same]
    rfl
  have named : nameOf cursor.rest = name.text := here ▸ name.nameOf_append ends
  have whole : methodNameOf cursor.rest = name.text := by
    rw [methodNameOf, if_neg, named]
    intro defined
    exact ofList_nameOf_ne here ends (show "defined?" ∈ keywords from by decide)
      (by rw [defined, String.ofList_toList])
  refine ⟨cursor.eat name.text.length, ?_, takes⟩
  unfold calledMethod
  simp only [bind_apply, get_apply, ite_apply, long, whole, some, pure_apply, leaf_apply,
    spanFrom_apply, takes.last, name.nameKind_text, Bool.not_false, Bool.false_eq_true, if_false,
    if_true]

/-- Behind a dot, the name of a method is read. -/
theorem dottedCall_ok (tree : Tree) (setting : Setting) (here : cursor.rest = name.text ++ rest)
    (ends : EndsName rest)
    (free : cursor.heredocs = []) (enough : cursor.rest.length < setting.bound) :
    ∃ after, dottedCall tree setting cursor =
        .ok (.of .call ⟨tree.span.start, after.offset⟩
          [tree.as .receiver, (Tree.leaf .identifier ⟨cursor.offset, after.offset⟩).as .method],
          after) ∧
      cursor.Takes name.text after := by
  obtain ⟨c, chars, same, starts, -⟩ := name.text_eq_cons
  have first : cursor.rest = c :: (chars ++ rest) := by
    rw [here, same]
    rfl
  obtain ⟨stands, token, noBlock, noParenthesis, -⟩ :=
    stands_of_wordStart (chars ++ rest) starts
  obtain ⟨start, skipped, found, skips⟩ :=
    skipLines_fillers setting (show cursor.rest = fillerText [] ++ c :: (chars ++ rest) from first)
      stands token noBlock free enough
  obtain ⟨after, read, takes⟩ := calledMethod_ok tree setting
    (found.trans (first.symm.trans here)) ends skips.stillFree
  have noOpening : cursor.sees "(" = false := by
    rw [sees_of_cons first '(' rfl]
    exact decide_eq_false noParenthesis.symm
  have offset : start.offset = cursor.offset := skips.offset
  have whole : cursor.Takes ([] ++ name.text) after := .trans skips.toPasses takes
  refine ⟨after, ?_, whole⟩
  unfold dottedCall
  simp only [bind_apply, sees_apply, noOpening, ite_apply, skipped, read, offset,
    Bool.false_eq_true, if_false]

section Dots

variable {c : Char} (here : cursor.rest = '.' :: rest)

include here

/-- Where a dot stands, another sign does not. -/
theorem not_sees_of_dot (sign : String) {first : Char} {more : List Char}
    (same : sign.toList = first :: more) (other : first ≠ '.') : cursor.sees sign = false := by
  rw [Cursor.sees, here, same, Text.strip?, if_neg other]
  rfl

theorem tightExtension_dot : tightExtension tree setting cursor = .ok (none, cursor) := by
  have noColons := not_sees_of_dot here "::" rfl (by decide)
  have noBracket := not_sees_of_dot here "[" rfl (by decide)
  have noOpening := not_sees_of_dot here "(" rfl (by decide)
  exact tightExtension_of_unseen tree noColons noBracket noOpening

theorem seesStrayAmpersand_dot (before : Cursor) :
    seesStrayAmpersand tree before setting cursor = .ok (false, cursor) :=
  seesStrayAmpersand_of_unseen tree before (not_sees_of_dot here "&" rfl (by decide))

theorem commandExtension_dot : commandExtension tree setting cursor = .ok (none, cursor) := by
  have noBrace := not_sees_of_dot here "\x7b" rfl (by decide)
  have noFirst (context : Context) :
      startsArgument context cursor.isSpaced cursor.rest = false := by
    rw [here]
    rfl
  have noPair : startsUnnamedPair cursor.isSpaced cursor.rest = false := by
    rw [here]
    rfl
  exact commandExtension_of_unseen tree noBrace noFirst noPair

theorem blockExtension_dot : blockExtension tree setting cursor = .ok (none, cursor) := by
  have noBrace := not_sees_of_dot here "\x7b" rfl (by decide)
  have noWord : cursor.seesWord "do" = false := by
    rw [Cursor.seesWord, here]
    rfl
  exact blockExtension_of_unseen tree noBrace noWord

omit here in
theorem callSignLength_dot (here : cursor.rest = '.' :: c :: rest) (single : c ≠ '.') :
    callSignLength false setting cursor = .ok (1, cursor) := by
  have noSafe := not_sees_of_dot here "&." rfl (by decide)
  have dot : cursor.sees "." = true := sees_of_cons here '.' rfl
  have noRange : cursor.sees ".." = false := by
    rw [Cursor.sees, here]
    show (Text.strip? ['.'] (c :: rest)).isSome = false
    rw [Text.strip?, if_neg single.symm]
    rfl
  unfold callSignLength
  simp only [bind_apply, get_apply, ite_apply, pure_apply, noSafe, dot, noRange, Bool.not_false,
    Bool.and_true, Bool.false_eq_true, if_false, if_true]

end Dots

/-- **A dot with the name of a method is added to a receiver.** -/
theorem extension_dot (tree : Tree) (setting : Setting)
    (here : cursor.rest = '.' :: (name.text ++ rest)) (ends : EndsName rest)
    (free : cursor.heredocs = []) (enough : cursor.rest.length < setting.bound) :
    ∃ after, extension { tree } setting cursor =
        .ok (some ⟨.of .call ⟨tree.span.start, after.offset⟩
          [tree.as .receiver, (Tree.leaf .identifier ⟨cursor.offset + 1, after.offset⟩).as .method],
          false⟩, after) ∧
      cursor.Takes ('.' :: name.text) after := by
  have stands : Stands ('.' :: (name.text ++ rest)) := by
    rintro d ⟨⟩
    decide
  obtain ⟨stop, moved, there, skips⟩ :=
    skipSpace_stays setting here stands (by decide) (by decide) free enough
  have dotted : stop.rest = ['.'] ++ (name.text ++ rest) := there
  obtain ⟨takes, left⟩ := Cursor.eat_takes dotted skips.stillFree
  have shorter := Nat.le_trans takes.toPasses.length_le skips.toPasses.length_le
  obtain ⟨after, read, onward⟩ := dottedCall_ok tree setting left ends
    takes.stillFree (Nat.lt_of_le_of_lt shorter enough)
  have offset : (stop.eat ['.'].length).offset = cursor.offset + 1 := by
    rw [takes.offset, skips.offset]
    rfl
  have sign : callSignLength false setting stop = .ok (['.'].length, stop) := by
    obtain ⟨c, chars, same, starts, -⟩ := name.text_eq_cons
    obtain ⟨-, -, -, -, single⟩ := stands_of_wordStart [] starts
    rw [same] at there
    exact callSignLength_dot there single
  have noBracket := not_sees_of_dot there "[" rfl (by decide)
  rw [offset, List.length_singleton] at read
  refine ⟨after, ?_, .trans skips.toPasses (.trans takes.toPasses onward)⟩
  unfold extension
  simp only [bind_apply, ite_apply, pure_apply, tightExtension_dot here, get_apply, attempt_apply,
    moved, seesStrayAmpersand_dot there, commandExtension_dot there, blockExtension_dot there,
    sees_apply, noBracket, sign, eat_apply, read, Bool.false_and, Bool.false_eq_true,
    List.length_singleton, Nat.one_ne_zero, if_false]

end Names

/-! ### Arguments without parentheses -/

/-- Gaps that stay on the line are single bytes, and no line breaks. -/
theorem fillerText_of_staysOnLine {gap : List Filler} (stay : gap.all Filler.staysOnLine = true) :
    Text.size (fillerText gap) = (fillerText gap).length ∧ '\n' ∉ fillerText gap ∧
      ∀ c ∈ (fillerText gap).head?, isGap c = true := by
  induction gap with
  | nil => exact ⟨rfl, List.not_mem_nil, nofun⟩
  | cons filler fillers ih =>
    obtain ⟨here, others⟩ := Bool.and_eq_true_iff.mp stay
    obtain ⟨size, line, -⟩ := ih others
    cases filler with
    | remark => cases here
    | blank c isBlank =>
      have sameLine : c ≠ '\n' := by simpa [Filler.staysOnLine] using here
      have width : c.utf8Size = 1 := by
        unfold isGap at isBlank
        simp only [Bool.or_eq_true, beq_iff_eq] at isBlank
        rcases isBlank with ((rfl | rfl) | rfl) | rfl <;> rfl
      have whole : fillerText (.blank c isBlank :: fillers) = c :: fillerText fillers := rfl
      rw [whole]
      refine ⟨?_, ?_, ?_⟩
      · rw [Text.size_cons, List.length_cons, size, width, Nat.add_comm]
      · exact fun member => (List.mem_cons.mp member).elim (fun same => sameLine same.symm) line
      · rintro d ⟨⟩
        exact isBlank

theorem fillerText_ne_nil {gap : List Filler} (spaced : gap ≠ []) : fillerText gap ≠ [] := by
  obtain ⟨filler, fillers, rfl⟩ := List.exists_cons_of_ne_nil spaced
  cases filler <;> exact List.cons_ne_nil _ _

/-- What starts an argument is no brace. -/
theorem not_sees_brace {text : List Char} (here : cursor.rest = text)
    (starts : startsArgument context true text = true) : cursor.sees "\x7b" = false := by
  rw [Cursor.sees, here]
  cases text with
  | nil => rfl
  | cons c rest =>
    have other : '\x7b' ≠ c := by
      rintro rfl
      cases starts
    show (Text.strip? ['\x7b'] (c :: rest)).isSome = false
    rw [Text.strip?, if_neg other]
    rfl

/-- The reader of a call without parentheses finds its arguments. -/
theorem command_ok (tree : Tree) (parts : List Tree) (bound depth : Nat)
    {arguments : Arguments statementContext.commanded commandArgument}
    (tight : arguments.IsTight) (here : cursor.rest = arguments.text ++ rest)
    (free : cursor.heredocs = []) (quiet : Quiet statementContext rest)
    (enough : cursor.rest.length < bound)
    (deep : nestingPerCharacter * arguments.text.length ≤ depth) :
    ∃ after, command tree parts (settingAt statementContext bound depth) cursor =
        .ok (⟨.of .call ⟨tree.span.start, after.offset⟩
          (parts ++ [(arguments.tree.shift cursor.offset).as .arguments]), true⟩, after) ∧
      cursor.Takes arguments.text after := by
  obtain ⟨after, read, takes⟩ :=
    commandArguments_ok (show statementContext.lines = true from rfl) rfl tight here free quiet
      enough deep
  have left := takes.rest_eq here
  obtain ⟨stop, moved, halts⟩ :=
    skipSpace_quiet
      (show Quiet (settingAt statementContext bound depth).context after.rest from left ▸ quiet)
      takes.stillFree (Nat.lt_of_le_of_lt takes.toPasses.length_le enough)
  have noBrace := sees_of_halts halts "\x7b" rfl rfl
  have noWord := stop.seesWord_of_ends halts.head "do" (by decide)
  refine ⟨after, ?_, takes⟩
  have arguments' : commandArguments ["do", "\x7b"] (settingAt statementContext bound depth)
    cursor = .ok (_, after) := read
  unfold command withPart
  simp only [bind_apply, arguments', spanFrom_apply, takes.last, pure_apply, attempt_apply, moved,
    sees_apply, seesWord_apply, context_apply, ite_apply, noBrace, noWord, Bool.false_and,
    Bool.false_eq_true, if_false]

theorem commandExtension_ok {text : List Char} {longer : Operand} {after : Cursor}
    (callee : tree.calleeParts? = some parts) (here : cursor.rest = text)
    (starts : startsArgument statementContext true text = true) (isSpaced : cursor.isSpaced = true)
    (read : command tree parts (settingAt statementContext bound depth) cursor =
      .ok (longer, after)) :
    commandExtension tree (settingAt statementContext bound depth) cursor =
      .ok (some longer, after) := by
  have noBrace := not_sees_brace here starts
  have same : (settingAt statementContext bound depth).context = statementContext := rfl
  have commands : statementContext.commands = true := rfl
  have opening : statementContext.opening = none := rfl
  have noOpening (position : Nat) : ((none : Option Nat) == some position) = false := rfl
  unfold commandExtension
  simp only [bind_apply, context_apply, get_apply, ite_apply, pure_apply, callee, same, commands,
    opening, noOpening, noBrace, isSpaced, here, starts, read, Bool.and_false, Bool.true_or,
    Bool.false_eq_true, if_false, if_true]

/-- **Arguments without parentheses are added to a name.** -/
theorem extension_command {arguments : Arguments statementContext.commanded commandArgument}
    {gap : List Filler} (callee : tree.calleeParts? = some parts) (spaced : gap ≠ [])
    (stay : gap.all Filler.staysOnLine = true) (tight : arguments.IsTight)
    (starts : startsArgument statementContext true (arguments.text ++ rest) = true)
    (here : cursor.rest = fillerText gap ++ (arguments.text ++ rest)) (free : cursor.heredocs = [])
    (atLast : cursor.last = cursor.offset) (quiet : Quiet statementContext rest)
    (enough : cursor.rest.length < bound)
    (deep : nestingPerCharacter * arguments.text.length ≤ depth) :
    ∃ after, extension { tree } (settingAt statementContext bound depth) cursor =
        .ok (some ⟨.of .call ⟨tree.span.start, after.offset⟩
          (parts ++ [(arguments.tree.shift
            (cursor.offset + Text.size (fillerText gap))).as .arguments]), true⟩, after) ∧
      cursor.Takes (fillerText gap ++ arguments.text) after := by
  obtain ⟨size, line, blank⟩ := fillerText_of_staysOnLine stay
  have wide : 0 < Text.size (fillerText gap) := by
    rw [size, List.length_pos_iff]
    exact fillerText_ne_nil spaced
  obtain ⟨c, chars, same, listed⟩ := arguments.first.text_eq_cons
  have first : arguments.text ++ rest = c :: (chars ++ (moreText arguments.more ++ rest)) := by
    rw [Arguments.text, same, List.append_assoc]
    rfl
  have ends : ∀ d ∈ cursor.rest.head?, endsExpression d = true := by
    intro d member
    obtain ⟨e, more, gapped⟩ := List.exists_cons_of_ne_nil (fillerText_ne_nil spaced)
    rw [here, gapped] at member
    rw [gapped] at blank
    obtain rfl : e = d := Option.some.inj member
    rw [endsExpression, blank e rfl]
    rfl
  obtain ⟨stop, moved, reaches⟩ :=
    skipSpace_of_line (settingAt statementContext bound depth) rfl
      (blanks_of_fillers (first ▸ stands_of_listed listed) stay)
      (first ▸ fun same => ne_of_listed listed rfl (Option.some.inj same)) here free (here ▸ enough)
  have skips := reaches.skips here
  have there := reaches.1
  obtain ⟨after, read, takes⟩ := command_ok tree parts bound depth tight there skips.stillFree quiet
    (Nat.lt_of_le_of_lt skips.toPasses.length_le enough) deep
  rw [skips.offset] at read
  -- the blanks before the arguments hold no line break
  have noStray : seesStrayAmpersand tree cursor (settingAt statementContext bound depth) stop =
      .ok (false, stop) := by
    have gone : cursor.rest.take (stop.offset - cursor.offset) = fillerText gap := by
      rw [skips.offset, Nat.add_sub_cancel_left, size, here, List.take_left]
    have noBreak : (fillerText gap).contains '\n' = false := by
      simpa using line
    unfold seesStrayAmpersand
    simp only [bind_apply, context_apply, get_apply, pure_apply, gone, noBreak, Bool.and_false,
      Bool.false_and]
  have isSpaced : stop.isSpaced = true := by
    rw [Cursor.isSpaced, skips.last, skips.offset, atLast]
    exact decide_eq_true (Nat.lt_add_of_pos_right wide)
  have commanded := commandExtension_ok callee there starts isSpaced read
  refine ⟨after, ?_, .trans skips.toPasses takes⟩
  unfold extension
  simp only [bind_apply, ite_apply, pure_apply, tightExtension_of_ends tree ends, get_apply,
    attempt_apply, moved, noStray, commanded, Bool.false_eq_true, if_false]

end Steps

end Reader

end RecipeLint.Ruby
