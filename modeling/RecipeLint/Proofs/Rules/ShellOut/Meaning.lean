/-
**The option that a call gets is one of its arguments.**

A call about the locale is fixed by a new name and by an option that is put into its text. Where the
call is a statement and each argument is read the same wherever it stands, the corrected text is
that of the plain call with the option as one more argument: behind the others, or before a block
that is passed on. Such arguments are strings in single quotes, calls with parentheses around their
arguments or without arguments, either of them behind a key, options that are off and blocks that
are passed on.

Elsewhere the option may go astray. An argument that takes what follows a comma, such as a call
without parentheses, takes the option as well, and behind a here document it is no code. A call that
is the target of an assignment, or a name in a pattern, has no place for an argument: with the
option the text is not read at all.

* `ShellOut.localeCall`, `ShellOut.plainCall` — a call about the locale, and the one it becomes.
* `ShellOut.corrections_eq` — what the rule changes at such a call.
* `ShellOut.GainsOption` — how the node of a call becomes that of the plain one.
* `ShellOut.corrections_gain_option` — what is read of the corrected text.
* `Sample.option_strays` — an option that an argument takes.
-/

import RecipeLint.Proofs.Patch.Rearrangement
import RecipeLint.Proofs.Ruby.CallValues
import RecipeLint.Proofs.Ruby.Exchange
import RecipeLint.Proofs.Ruby.Lowering
import RecipeLint.Proofs.Rules.ShellOut.Changes

namespace RecipeLint.Rules.ShellOut

open Ruby

/-! ### Names -/

/-- The mark of the methods that raise an error. -/
def bang (marked : Bool) : Option Char :=
  if marked then some '!' else none

theorem marks_bang (marked : Bool) : ∀ c ∈ bang marked, c = '!' ∨ c = '?' := by
  cases marked with
  | true =>
    rintro c ⟨⟩
    exact Or.inl rfl
  | false => exact nofun

/-- The name of a method about the locale. -/
def localeName (marked : Bool) : MethodName where
  word := localeMethod.toList
  mark := bang marked
  plain := by decide
  starts := by decide
  marks := marks_bang marked
  free := by cases marked <;> decide

/-- The name that it is replaced by. -/
def plainName (marked : Bool) : MethodName where
  word := "shell_out".toList
  mark := bang marked
  plain := by decide
  starts := by decide
  marks := marks_bang marked
  free := by cases marked <;> decide

/-- The name of the option. -/
def optionName : MethodName where
  word := "default_env".toList
  plain := by decide
  starts := by decide
  marks := MethodName.unmarked
  free := by decide

theorem mark_optionName : optionName.mark = none := rfl

theorem offText_optionName : offText optionName = localeOption.toList := by decide

theorem replacement_localeName (marked : Bool) :
    replacement (String.ofList (localeName marked).text) =
      String.ofList (plainName marked).text := by
  cases marked <;> decide

theorem specialised_localeName (marked : Bool) :
    specialised.contains (String.ofList (localeName marked).text) = true ∧
      localeMethod.toList.isPrefixOf (String.ofList (localeName marked).text).toList = true := by
  cases marked <;> decide

theorem size_localeName (marked : Bool) : 0 < Text.size (localeName marked).text := by
  cases marked <;> decide

/-! ### Calls -/

section Call

variable (marked : Bool) (receiver : Receiver) (passed : Passed)

/-- **A call about the locale.** -/
def localeCall : Call :=
  ⟨receiver, localeName marked, passed⟩

/-- **The call that it becomes**, with the option as one more argument. -/
def plainCall : Call :=
  ⟨receiver, plainName marked, passed.turningOff optionName mark_optionName⟩

end Call

/-! ### Arguments -/

/-- What the option says. -/
def optionSaid : List Char × Node :=
  (localeOption.toList, .mk (.other "pair") ⟨0, 0⟩
    [.leaf (.other "hash_key_symbol") ⟨0, 0⟩, .leaf (.other "false") ⟨0, 0⟩])

/-- **The option is said as well**: it comes last, or directly before a block that is passed on. -/
inductive WithOption : List (List Char × Node) → List (List Char × Node) → Prop
  | last (others : List (List Char × Node))
      (plain : ∀ argument ∈ others.getLast?, argument.2.passesBlock = false) :
      WithOption others (others ++ [optionSaid])
  | before (others : List (List Char × Node)) (block : List Char × Node)
      (passes : block.2.passesBlock = true) :
      WithOption (others ++ [block]) (others ++ [optionSaid, block])

section Arguments

variable {context : Context} {read : Reader Tree} (names : List String)

theorem said_off (reads : ReadsArgument read) :
    (Argument.off context reads optionName mark_optionName).said names = optionSaid :=
  Prod.ext offText_optionName rfl

theorem withOption_adding (arguments : Arguments context read) (reads : ReadsArgument read) :
    WithOption (arguments.all.map (Argument.said names))
      ((arguments.adding (.off context reads optionName mark_optionName)).all.map
        (Argument.said names)) := by
  obtain ⟨others, whole, wider⟩ :=
    arguments.exists_all (.off context reads optionName mark_optionName)
  rw [whole, wider, List.map_append, List.map_append]
  cases isBlock : arguments.last.passesBlock with
  | true =>
    show WithOption (_ ++ [arguments.last.said names])
      (_ ++ [Argument.said names (.off context reads _ _), arguments.last.said names])
    rw [said_off]
    exact .before _ _ ((arguments.last.passesBlock_said names).trans isBlock)
  | false =>
    have plain : ∀ argument ∈ (others.map (Argument.said names) ++
        [arguments.last.said names]).getLast?, argument.2.passesBlock = false := by
      rw [List.getLast?_concat]
      rintro argument ⟨⟩
      exact (arguments.last.passesBlock_said names).trans isBlock
    have last := WithOption.last _ plain
    rw [List.append_assoc] at last
    show WithOption (_ ++ [arguments.last.said names])
      (_ ++ [arguments.last.said names, Argument.said names (.off context reads _ _)])
    rw [said_off]
    exact last

/-- **What is passed says what it said, and the option.** -/
theorem withOption_turningOff (passed : Passed) :
    WithOption (passed.said names) ((passed.turningOff optionName mark_optionName).said names) := by
  have single (reads : ReadsArgument Reader.argument) : WithOption []
      ((Arguments.mk (.off .bracketed reads optionName mark_optionName) []).all.map
        (Argument.said names)) := by
    have said : (Arguments.mk (.off .bracketed reads optionName mark_optionName) []).all.map
      (Argument.said names) = [optionSaid] := congrArg (fun own => [own]) (said_off names reads)
    rw [said]
    exact .last [] nofun
  cases passed with
  | nothing => exact single _
  | enclosed list =>
    cases list with
    | empty => exact single _
    | some opening arguments => exact withOption_adding names arguments _
  | command gap spaced stay arguments => exact withOption_adding names arguments _

theorem length_of_withOption {said wider : List (List Char × Node)}
    (gains : WithOption said wider) : wider.length = said.length + 1 := by
  cases gains with
  | last => exact List.length_append
  | before => simp only [List.length_append, List.length_cons, List.length_nil]

end Arguments

/-! ### Changes -/

/-- Nothing is said where nothing is passed, or nothing between parentheses. -/
theorem passed_of_said_eq_nil {names : List String} {passed : Passed}
    (silent : passed.said names = []) :
    passed = .nothing ∨ ∃ inside, passed = .enclosed (.empty inside) := by
  cases passed with
  | nothing => exact Or.inl rfl
  | enclosed list =>
    cases list with
    | empty inside => exact Or.inr ⟨inside, rfl⟩
    | some => cases silent
  | command => cases silent

section Fix

variable {call : Call} {names : List String} {before after : List Char} {node : Node}
  {file : SourceFile}

theorem insertion_eq_ok (small : Text.size file.content < maxWord) {position : Nat}
    (cuts : (Span.empty position).CutsOut file.content) (text : String) :
    insertion file position text = .ok (.insert (file.place (.empty position)) text) := by
  rw [insertion, SourceFile.location_eq_place (SourceFile.places_of_cutsOut small cuts)]
  rfl

variable (content : file.content = before ++ (call.text ++ after))

include content

/-- The place of the option is one where the text can be cut. -/
theorem place_cutsOut :
    (Span.empty ((call.nameSpan before).stop + call.passed.place)).CutsOut file.content := by
  obtain ⟨front, behind, place, text, -⟩ := call.passed.gains optionName mark_optionName
  have start : Text.size (before ++ call.receiver.text ++ call.name.text ++ front) =
      (call.nameSpan before).stop + call.passed.place := by
    rw [Text.size_append, Text.size_append (before ++ call.receiver.text), place]
  refine ⟨before ++ call.receiver.text ++ call.name.text ++ front, [], behind ++ after, ?_, start,
    start⟩
  rw [content, Call.text, text]
  simp only [List.append_assoc, List.nil_append]

/-- What is passed stands behind the name. -/
theorem text_passed
    (span : node.span = ⟨Text.size before, Text.size before + Text.size call.text⟩) :
    file.text ⟨(call.nameSpan before).stop, node.span.stop⟩ = call.passed.text := by
  have whole : file.content = (before ++ (call.receiver.text ++ call.name.text)) ++
      (call.passed.text ++ after) := by
    rw [content, Call.text]
    simp only [List.append_assoc]
  have start : (call.nameSpan before).stop =
      Text.size (before ++ (call.receiver.text ++ call.name.text)) := by
    simp only [Text.size_append, Nat.add_assoc]
  have stop : node.span.stop = Text.size (before ++ (call.receiver.text ++ call.name.text)) +
      Text.size call.passed.text := by
    rw [span]
    simp only [Call.text, Text.size_append, Nat.add_assoc]
  rw [SourceFile.text, whole, start, stop, Text.slice?_append]
  rfl

/-- **The option is put in at its place.** -/
theorem optionFix_eq_ok (small : Text.size file.content < maxWord)
    (seen : call.IsSeen names before after node) :
    optionFix file node (call.nameSpan before) =
      .ok (.insert (file.place (.empty ((call.nameSpan before).stop + call.passed.place)))
        (String.ofList (call.passed.inserted localeOption.toList))) := by
  obtain ⟨values, read, said, ends⟩ := seen.arguments
  rw [← insertion_eq_ok small (place_cutsOut content)]
  unfold optionFix
  simp only [read, bind, Except.bind]
  cases isLast : values.getLast? with
  | some last =>
    obtain ⟨place, inserted⟩ := ends last isLast
    rw [place, inserted]
    show (if last.passesBlock = true then _ else _) = _
    cases last.passesBlock with
    | true => exact congrArg (insertion file last.span.start) (by decide)
    | false => exact congrArg (insertion file last.span.stop) (by decide)
  | none =>
    rw [List.getLast?_eq_none_iff] at isLast
    subst isLast
    simp only [text_passed content seen.span]
    rcases passed_of_said_eq_nil said.symm with nothing | ⟨inside, empty⟩
    · rw [nothing]
      exact congrArg (insertion file (call.nameSpan before).stop) (by decide)
    · rw [empty]
      exact congrArg (insertion file ((call.nameSpan before).stop + 1)) String.ofList_toList.symm

end Fix

/-- A new name, and a text that is put in behind it. -/
theorem splice_call (lead name front behind renamed added : List Char) :
    Patch.splice 0 (lead ++ (name ++ (front ++ behind)))
        [⟨⟨Text.size lead, Text.size lead + Text.size name⟩, renamed⟩,
          ⟨.empty (Text.size lead + Text.size name + Text.size front), added⟩] =
      lead ++ (renamed ++ (front ++ (added ++ behind))) := by
  have start : Text.size (lead ++ name) = Text.size lead + Text.size name := Text.size_append _ _
  have place : Text.size (lead ++ name ++ front) =
      Text.size lead + Text.size name + Text.size front := by
    rw [Text.size_append, start]
  have first := Patch.splice_cons [] lead name (front ++ behind)
    ⟨⟨Text.size lead, Text.size lead + Text.size name⟩, renamed⟩
    [⟨.empty (Text.size lead + Text.size name + Text.size front), added⟩] rfl rfl
  have second := Patch.splice_cons (lead ++ name) front [] behind
    ⟨.empty (Text.size lead + Text.size name + Text.size front), added⟩ [] place place
  have last (cursor : Nat) : Patch.splice cursor behind [] = behind := rfl
  rw [start, last] at second
  refine first.trans ?_
  show lead ++ renamed ++ Patch.splice (Text.size lead + Text.size name) (front ++ ([] ++ behind)) _
    = _
  rw [second]
  simp only [List.append_assoc]

section Locale

variable {marked : Bool} {receiver : Receiver} {passed : Passed} {names : List String}
  {before after : List Char} {node : Node} {file : SourceFile}
  (content : file.content = before ++ ((localeCall marked receiver passed).text ++ after))
  (small : Text.size file.content < maxWord)
  (seen : (localeCall marked receiver passed).IsSeen names before after node)

include content small seen

/-- **What is changed at a call about the locale**: its name, and the option is put in. -/
theorem corrections_eq : corrections file node =
    [⟨file.place ((localeCall marked receiver passed).nameSpan before),
        String.ofList (plainName marked).text⟩,
      .insert (file.place (.empty (((localeCall marked receiver passed).nameSpan before).stop +
        passed.place))) (String.ofList (passed.inserted localeOption.toList))] := by
  obtain ⟨hasReceiver, count, kind⟩ := seen.method
  obtain ⟨special, locale⟩ := specialised_localeName marked
  have whole : node.span.CutsOut file.content :=
    ⟨before, (localeCall marked receiver passed).text, after, content, by rw [seen.span],
      by rw [seen.span]⟩
  have named : ((localeCall marked receiver passed).nameSpan before).CutsOut file.content := by
    refine ⟨before ++ receiver.text, (localeName marked).text, passed.text ++ after, ?_, rfl, rfl⟩
    rw [content, Call.text]
    simp only [localeCall, List.append_assoc]
  have here := SourceFile.location_eq_place (SourceFile.places_of_cutsOut small named)
  have option := optionFix_eq_ok content small seen
  refine corrections_of_fixes kind special ?_ (SourceFile.places_of_cutsOut small whole)
  unfold fixes
  rw [here, option]
  refine (if_pos locale).trans ?_
  rw [← replacement_localeName]
  rfl

theorem edits_eq : (corrections file node).map Correction.toEdit =
    [⟨(localeCall marked receiver passed).nameSpan before, (plainName marked).text⟩,
      ⟨.empty (((localeCall marked receiver passed).nameSpan before).stop + passed.place),
        passed.inserted localeOption.toList⟩] := by
  have ordered : ((localeCall marked receiver passed).nameSpan before).IsOrdered :=
    Nat.le_add_right _ _
  rw [corrections_eq content small seen, List.map_cons, List.map_singleton, Correction.toEdit,
    Correction.toEdit, file.span_place ordered, file.span_insert_place]
  simp only [Correction.insert, String.toList_ofList]

/-- **The corrected text is that of the plain call.** -/
theorem apply_corrections :
    Patch.apply (String.ofList file.content) (corrections file node) =
      .ok (.ok (String.ofList (before ++ ((plainCall marked receiver passed).text ++ after)))) := by
  obtain ⟨front, behind, place, text, wider⟩ := passed.gains optionName mark_optionName
  rw [offText_optionName] at wider
  have whole : file.content = (before ++ receiver.text) ++
      ((localeName marked).text ++ (front ++ (behind ++ after))) := by
    rw [content, Call.text]
    show before ++ ((receiver.text ++ ((localeName marked).text ++ passed.text)) ++ after) = _
    rw [text]
    simp only [List.append_assoc]
  have plain : before ++ ((plainCall marked receiver passed).text ++ after) =
      (before ++ receiver.text) ++ ((plainName marked).text ++
        (front ++ (passed.inserted localeOption.toList ++ (behind ++ after)))) := by
    rw [Call.text]
    show before ++ ((receiver.text ++ ((plainName marked).text ++
      (passed.turningOff optionName mark_optionName).text)) ++ after) = _
    rw [wider]
    simp only [List.append_assoc]
  have edits := edits_eq content small seen
  have named : Span.CutsOut file.content ((localeCall marked receiver passed).nameSpan before) :=
    ⟨before ++ receiver.text, (localeName marked).text, front ++ (behind ++ after), whole, rfl, rfl⟩
  have wide := size_localeName marked
  have made := Patch.apply_of_edits edits (Nat.le_of_lt small)
    (List.forall_mem_cons.mpr ⟨named, List.forall_mem_singleton.mpr (place_cutsOut content)⟩)
    (List.pairwise_pair.mpr ⟨Nat.le_add_right _ _, by
      show Text.size (before ++ receiver.text) < Text.size (before ++ receiver.text) +
        Text.size (localeName marked).text + passed.place
      omega⟩)
  rw [made, plain, ← splice_call _ (localeName marked).text, ← whole, place]
  rfl

end Locale

/-! ### Programs -/

/-- **A node becomes that of the plain call**: it starts where it did, is a call of the plain method
on the same receiver, and has the arguments that it had and the option. -/
structure GainsOption (text : List Char) (node : Node) (wider : List Char) (plain : Node) :
    Prop where
  start : plain.span.start = node.span.start
  method : plain.methodName? = node.methodName?.map replacement
  receiver : plain.receiver?.map (Node.said wider) = node.receiver?.map (Node.said text)
  arguments : ∃ values values', node.arguments = .ok values ∧ plain.arguments = .ok values' ∧
    WithOption (values.map (Node.said text)) (values'.map (Node.said wider))

section Program

variable (marked : Bool) (receiver : Receiver) (passed : Passed) (front back : List Item)

/-- **A program with a call about the locale** as one of its statements. -/
def localeItems : List Item :=
  front ++ .statement (localeCall marked receiver passed).statement :: back

/-- The program with the plain call in its place. -/
def plainItems : List Item :=
  front ++ .statement (plainCall marked receiver passed).statement :: back

variable {marked receiver passed front back}

/-- The option and the other name bind nothing. -/
theorem localsOf_plainItems : localsOf (plainItems marked receiver passed front back) =
    localsOf (localeItems marked receiver passed front back) := by
  have same : (plainCall marked receiver passed).statement.locals =
      (localeCall marked receiver passed).statement.locals := by
    rw [Call.locals_statement, Call.locals_statement]
    exact congrArg (receiver.locals ++ ·) (passed.locals_turningOff optionName mark_optionName)
  rw [plainItems, localeItems, localsOf_statement, localsOf_statement, same]

theorem not_isBare_plainCall : ¬ (plainCall marked receiver passed).IsBare := by
  rintro ⟨-, -, nothing⟩
  change (passed.turningOff optionName mark_optionName).tree? = none at nothing
  cases passed with
  | nothing => cases nothing
  | enclosed list => cases list <;> cases nothing
  | command => cases nothing

/-- **The corrected program has the plain call where the call was**, with its arguments and the
option. -/
theorem corrections_gain_option (file : SourceFile)
    (laid : IsLaidOut .fresh (localeItems marked receiver passed front back))
    (content : file.content = layoutText (localeItems marked receiver passed front back))
    (small : Text.size file.content < maxWord)
    (calls : (localeCall marked receiver passed).IsBare → String.ofList (localeName marked).text ∉
      localsOf (localeItems marked receiver passed front back)) :
    ∃ root node root' node', parse (String.ofList file.content) = .ok root ∧
      node ∈ root.children ∧ node.span.start = Text.size (layoutText front) ∧
      node.methodName? = some (String.ofList (localeName marked).text) ∧
      Patch.apply (String.ofList file.content) (corrections file node) =
        .ok (.ok (String.ofList (layoutText (plainItems marked receiver passed front back)))) ∧
      parse (String.ofList (layoutText (plainItems marked receiver passed front back))) =
        .ok root' ∧
      node' ∈ root'.children ∧
      GainsOption file.content node (layoutText (plainItems marked receiver passed front back))
        node' := by
  generalize bound : localsOf (localeItems marked receiver passed front back) = names at calls
  have text : file.content = layoutText front ++
      ((localeCall marked receiver passed).text ++ layoutText back) :=
    content.trans (layoutText_statement _ _ _)
  have wider : layoutText (plainItems marked receiver passed front back) = layoutText front ++
      ((plainCall marked receiver passed).text ++ layoutText back) := layoutText_statement _ _ _
  have said := withOption_turningOff names passed
  have room : (passed.said names).length + 1 < maxWord := by
    have each := passed.length_said_le names
    have wide := size_localeName marked
    have whole : Text.size file.content = Text.size (layoutText front) +
        (Text.size receiver.text + (Text.size (localeName marked).text + Text.size passed.text) +
          Text.size (layoutText back)) := by
      simp only [text, Call.text, localeCall, Text.size_append]
    omega
  obtain ⟨root, node, parsed, member, seen⟩ :=
    Call.exists_isSeen laid bound calls (Nat.lt_of_succ_lt room)
  obtain ⟨root', node', parsed', member', seen'⟩ :=
    Call.exists_isSeen (laid.exchange (plainCall marked receiver passed).statement)
      (localsOf_plainItems.trans bound) (fun bare => absurd bare not_isBare_plainCall)
      (length_of_withOption said ▸ room)
  have applied := apply_corrections text small seen
  rw [← wider] at applied
  refine ⟨root, node, root', node', by rw [content]; exact parsed, member,
    congrArg Span.start seen.span, seen.methodName?_eq, applied, parsed', member', ?_⟩
  rw [text, wider]
  obtain ⟨values, read, same, -⟩ := seen.arguments
  obtain ⟨values', read', same', -⟩ := seen'.arguments
  refine ⟨?_, ?_, seen'.receiver.trans seen.receiver.symm, values, values', read, read', ?_⟩
  · rw [seen'.span, seen.span]
  · rw [seen'.methodName?_eq, seen.methodName?_eq, Option.map_some]
    exact congrArg some (replacement_localeName marked).symm
  · rw [same, same']
    exact said

end Program

end RecipeLint.Rules.ShellOut

/-! ### Samples -/

namespace RecipeLint.Sample

open Ruby Rules.ShellOut

/-- The object that the sample calls are made on. -/
def shell : Receiver :=
  .call .nothing ⟨"shell".toList, none, by decide, by decide, MethodName.unmarked, by decide⟩ none

/-- A call with a string. -/
def path : Call :=
  ⟨.nothing, ⟨"path".toList, none, by decide, by decide, MethodName.unmarked, by decide⟩,
    .enclosed (.some [] ⟨.quoted _ .enclosed "x".toList (by decide), []⟩ [] none)⟩

/-- That call, the same behind a key, and behind a comment a block that is passed on. -/
def handedOn : Passed :=
  .enclosed (.some []
    ⟨.value _ .enclosed (.call path rfl),
      [⟨[], [.blank ' ' isGap_space],
        .keyed _ .enclosed
          ⟨"user".toList, none, by decide, by decide, MethodName.unmarked, by decide⟩ rfl
          (.call path rfl) fun _ => path.opens (by decide)⟩,
      ⟨[], [.blank ' ' isGap_space, .remark " quiet".toList (by decide), .blank ' ' isGap_space],
        .block _ .enclosed
          ⟨"handler".toList, none, by decide, by decide, MethodName.unmarked, by decide⟩
          (by decide)⟩]⟩
    [] none)

/-- A program with a call about the locale that passes a block on. -/
def handedItems : List Item :=
  localeItems true shell handedOn [.comment " run".toList (by decide), .lineBreak] [.lineBreak]

/-- The same, corrected. -/
def handedFixed : List Item :=
  plainItems true shell handedOn [.comment " run".toList (by decide), .lineBreak] [.lineBreak]

/-- A file with a text. -/
def script (text : List Char) : SourceFile :=
  { description "" with content := text }

/-- **The option goes before a block that is passed on**, behind the comment. -/
theorem option_before_block :
    IsLaidOut .fresh handedItems ∧ Text.size (layoutText handedItems) < maxWord ∧
      ¬ (localeCall true shell handedOn).IsBare ∧
      String.ofList (layoutText handedItems) =
        "# run\nshell.shell_out_with_systems_locale!(path('x'), user: path('x'), " ++
          "# quiet\n &handler)\n" ∧
      String.ofList (layoutText handedFixed) =
        "# run\nshell.shell_out!(path('x'), user: path('x'), # quiet\n default_env: false, " ++
          "&handler)\n" ∧
      ∃ root node root' node', parse (String.ofList (layoutText handedItems)) = .ok root ∧
        node ∈ root.children ∧
        Patch.apply (String.ofList (layoutText handedItems))
            (Rules.ShellOut.corrections (script (layoutText handedItems)) node) =
          .ok (.ok (String.ofList (layoutText handedFixed))) ∧
        parse (String.ofList (layoutText handedFixed)) = .ok root' ∧ node' ∈ root'.children ∧
        GainsOption (layoutText handedItems) node (layoutText handedFixed) node' := by
  have laid : IsLaidOut .fresh handedItems := ⟨trivial, trivial, rfl, trivial, trivial⟩
  have small : Text.size (layoutText handedItems) < maxWord := by decide
  have notBare : ¬ (localeCall true shell handedOn).IsBare := nofun
  obtain ⟨root, node, root', node', parsed, member, -, -, applied, parsed', member', gains⟩ :=
    corrections_gain_option (script (layoutText handedItems)) laid rfl small
      (fun bare => absurd bare notBare)
  exact ⟨laid, small, notBare, by decide, by decide, root, node, root', node', parsed, member,
    applied, parsed', member', gains⟩

/-- The argument of a call is a call without parentheses. -/
def strayText : List Char := "shell_out_with_systems_locale foo 'x'\n".toList

/-- The same, corrected. -/
def strayFixed : List Char := "shell_out foo 'x', default_env: false\n".toList

/-- The argument of a call is a text on the lines below. -/
def belowText : List Char := "shell_out_with_systems_locale(<<E\nx\nE\n)\n".toList

/-- The same, corrected. -/
def belowFixed : List Char := "shell_out(<<E\nx\nE, default_env: false\n)\n".toList

/-- The changes at both calls. -/
def startEdits : List Edit :=
  [⟨⟨0, 29⟩, "shell_out".toList⟩, ⟨⟨37, 37⟩, ", default_env: false".toList⟩]

/-- A call at the start of a text is corrected. -/
theorem exists_corrected {text fixed : List Char} {count : Nat}
    (cuts : ∀ edit ∈ startEdits, edit.range.CutsOut text) (small : Text.size text ≤ maxWord)
    (spliced : Patch.splice 0 text startEdits = fixed)
    (passes : (parse (String.ofList text)).toOption.any (fun root =>
      root.children.any fun node =>
        decide (node.methodName? = some "shell_out_with_systems_locale" ∧
          node.arguments.toOption.map List.length = some count ∧
          (Rules.ShellOut.corrections (script text) node).map Correction.toEdit =
            startEdits)) = true) :
    ∃ root node, parse (String.ofList text) = .ok root ∧ node ∈ root.children ∧
      node.methodName? = some "shell_out_with_systems_locale" ∧
      node.arguments.toOption.map List.length = some count ∧
      Patch.apply (String.ofList text) (Rules.ShellOut.corrections (script text) node) =
        .ok (.ok (String.ofList fixed)) := by
  obtain ⟨root, parsed, first⟩ := exists_ok passes
  obtain ⟨node, member, test⟩ := List.any_eq_true.mp first
  obtain ⟨called, counted, changes⟩ := of_decide_eq_true test
  have precedes : startEdits.Pairwise fun first second => first.range.Precedes second.range :=
    List.pairwise_pair.mpr ⟨by decide, by decide⟩
  exact ⟨root, node, parsed, member, called, counted,
    spliced ▸ Patch.apply_of_edits changes small cuts precedes⟩

/-- **An option strays**: the call in the argument takes it. -/
theorem option_strays :
    (∃ root node root', parse (String.ofList strayText) = .ok root ∧ node ∈ root.children ∧
      node.methodName? = some "shell_out_with_systems_locale" ∧
      Patch.apply (String.ofList strayText) (Rules.ShellOut.corrections (script strayText) node) =
        .ok (.ok (String.ofList strayFixed)) ∧
      parse (String.ofList strayFixed) = .ok root' ∧
      ∀ plain ∈ root'.preorder, ¬ GainsOption strayText node strayFixed plain) ∧
    ∃ root node, parse (String.ofList belowText) = .ok root ∧ node ∈ root.children ∧
      node.methodName? = some "shell_out_with_systems_locale" ∧
      Patch.apply (String.ofList belowText) (Rules.ShellOut.corrections (script belowText) node) =
        .ok (.ok (String.ofList belowFixed)) ∧
      ∀ root', parse (String.ofList belowFixed) ≠ .ok root' := by
  obtain ⟨root, node, parsed, member, called, one, applied⟩ :=
    @exists_corrected strayText strayFixed 1 (by decide) (by decide) (by decide) (by decide +kernel)
  obtain ⟨below, given, read, among, calls, -, made⟩ :=
    @exists_corrected belowText belowFixed 2 (by decide) (by decide) (by decide) (by decide +kernel)
  obtain ⟨root', parsed', all⟩ : ∃ root', parse (String.ofList strayFixed) = .ok root' ∧
      decide (∀ node ∈ root'.preorder, node.methodName? = some "shell_out" →
        node.arguments.toOption.map List.length = some 1) = true := exists_ok (by decide +kernel)
  have failed : (parse (String.ofList belowFixed)).toOption.isNone = true := by decide +kernel
  refine ⟨⟨root, node, root', parsed, member, called, applied, parsed', ?_⟩,
    below, given, read, among, calls, made, fun root' read' => ?_⟩
  · intro plain inside gains
    obtain ⟨values, values', args, args', wider⟩ := gains.arguments
    have more := length_of_withOption wider
    rw [List.length_map, List.length_map] at more
    have name : plain.methodName? = some "shell_out" := by
      rw [gains.method, called]
      decide
    have single := of_decide_eq_true all plain inside name
    rw [args'] at single
    rw [args] at one
    have fewer : values'.length = 1 := Option.some.inj single
    have before : values.length = 1 := Option.some.inj one
    omega
  · rw [read'] at failed
    cases failed

end RecipeLint.Sample
