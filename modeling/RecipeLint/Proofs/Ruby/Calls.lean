/-
**Calls.**

A call stands on a receiver, a chain of calls with dots between them, and has its arguments between
parentheses, without them, or none. Where its arguments are read the same wherever they stand, so is
the call.

* `Receiver`, `Passed`, `Call` — the parts of a call, and how they are written.
* `Call.tree` — its concrete tree.
* `Reader.callee_ok`, `Reader.call_ok` — the reader finds it.
-/

import RecipeLint.Proofs.Ruby.Growth

namespace RecipeLint.Ruby

/-! ### Calls -/

/-- **What a method is called on**: nothing, or a call whose arguments, if it has any, stand between
parentheses. -/
inductive Receiver where
  /-- Nothing. -/
  | nothing
  /-- A call on a receiver. -/
  | call (receiver : Receiver) (name : MethodName) (list : Option Enclosed)

/-- **What is passed to a method.** -/
inductive Passed where
  /-- Nothing. -/
  | nothing
  /-- Arguments between parentheses. -/
  | enclosed (list : Enclosed)
  /-- Arguments without parentheses, behind a gap on the line. -/
  | command (gap : List Filler) (spaced : gap ≠ [])
      (stay : gap.all Filler.staysOnLine = true)
      (arguments : Arguments statementContext.commanded Reader.commandArgument)
      (tight : arguments.IsTight)
      (starts : ∀ rest, Quiet statementContext.commanded rest →
        startsArgument statementContext true (arguments.first.text ++ rest) = true)

/-- **A call of a method.** -/
structure Call where
  /-- What it is called on. -/
  receiver : Receiver
  /-- The name of the method. -/
  name : MethodName
  /-- What is passed to it. -/
  passed : Passed

/-- How a list between parentheses is written, if there is one. -/
def listText (list : Option Enclosed) : List Char :=
  (list.map Enclosed.text).getD []

/-- How a receiver is written, with the dot behind it. -/
def Receiver.text : Receiver → List Char
  | .nothing => []
  | .call receiver name list => receiver.text ++ (name.text ++ (listText list ++ ['.']))

/-- How what is passed is written. -/
def Passed.text : Passed → List Char
  | .nothing => []
  | .enclosed list => list.text
  | .command gap _ _ arguments _ _ => fillerText gap ++ arguments.text

/-- How a call is written. -/
def Call.text (call : Call) : List Char :=
  call.receiver.text ++ (call.name.text ++ call.passed.text)

/-! ### Concrete trees -/

/-- The parts of a call without its arguments, where the name starts at a position. -/
def calleeParts (receiver : Option Tree) (start : Nat) (name : MethodName) : List Tree :=
  (receiver.map (·.as .receiver)).toList ++
    [(Tree.leaf .identifier ⟨start, start + Text.size name.text⟩).as .method]

/-- The concrete tree of a call without arguments, where the name starts at a position. -/
def calleeTree (receiver : Option Tree) (start : Nat) (name : MethodName) : Tree :=
  if receiver.isNone && name.mark.isNone then
    .leaf .identifier ⟨start, start + Text.size name.text⟩
  else .of .call ⟨0, start + Text.size name.text⟩ (calleeParts receiver start name)

/-- The concrete tree of a call, from that of its arguments where they end at a position. -/
def callTree (receiver : Option Tree) (start : Nat) (name : MethodName) (arguments : Option Tree)
    (stop : Nat) : Tree :=
  match arguments with
  | none => calleeTree receiver start name
  | some arguments =>
    .of .call ⟨0, stop⟩ (calleeParts receiver start name ++
      [(arguments.shift (start + Text.size name.text)).as .arguments])

/-- The concrete tree of a receiver. -/
def Receiver.tree? : Receiver → Option Tree
  | .nothing => none
  | .call receiver name list =>
    some (callTree receiver.tree? (Text.size receiver.text) name (list.map Enclosed.tree)
      (Text.size receiver.text + Text.size name.text + Text.size (listText list)))

/-- The concrete tree of the arguments. -/
def Passed.tree? : Passed → Option Tree
  | .nothing => none
  | .enclosed list => some list.tree
  | .command gap _ _ arguments _ _ => some (arguments.tree.shift (Text.size (fillerText gap)))

/-- Whether the arguments stand without parentheses. -/
def Passed.isCommand : Passed → Bool
  | .command .. => true
  | _ => false

/-- **The concrete tree of a call alone.** -/
def Call.tree (call : Call) : Tree :=
  callTree call.receiver.tree? (Text.size call.receiver.text) call.name call.passed.tree?
    (Text.size call.text)

/-! ### Places of trees -/

namespace Tree

theorem shiftAll_append (distance : Nat) (first second : List Tree) :
    shiftAll distance (first ++ second) = shiftAll distance first ++ shiftAll distance second := by
  induction first with
  | nil => rfl
  | cons tree trees ih => rw [List.cons_append, shiftAll, shiftAll, ih, List.cons_append]

theorem shift_as (distance : Nat) (tree : Tree) (role : Role) :
    (tree.as role).shift distance = (tree.shift distance).as role := by
  cases tree
  rfl

theorem span_shift (distance : Nat) (tree : Tree) :
    (tree.shift distance).span = tree.span.shift distance := by
  cases tree
  rfl

end Tree

section Callees

variable {receiver : Option Tree} {start : Nat} {name : MethodName}

/-- Arguments may be added to a call that has none. -/
theorem calleeParts?_calleeTree (receiver : Option Tree) (start : Nat) (name : MethodName)
    (distance : Nat) :
    ((calleeTree receiver start name).shift distance).calleeParts? =
      some (Tree.shiftAll distance (calleeParts receiver start name)) := by
  unfold calleeTree
  cases receiver with
  | none => cases name.mark <;> rfl
  | some receiver =>
    obtain ⟨role, kind, span, parts⟩ := receiver
    rfl

theorem span_calleeTree (first : receiver = none → start = 0) :
    (calleeTree receiver start name).span = ⟨0, start + Text.size name.text⟩ := by
  unfold calleeTree
  split
  next bare =>
    obtain rfl := first (Option.isNone_iff_eq_none.mp (Bool.and_eq_true_iff.mp bare).1)
    rfl
  next => rfl

theorem start_shift_calleeTree (first : receiver = none → start = 0) (distance : Nat) :
    ((calleeTree receiver start name).shift distance).span.start = 0 + distance := by
  rw [Tree.span_shift, span_calleeTree first]
  rfl

theorem span_callTree {arguments : Option Tree} {stop : Nat} (first : receiver = none → start = 0)
    (bare : arguments = none → stop = start + Text.size name.text) :
    (callTree receiver start name arguments stop).span = ⟨0, stop⟩ := by
  cases arguments with
  | none => rw [callTree, span_calleeTree first, bare rfl]
  | some arguments => rfl

/-- A call with arguments stands elsewhere as its parts do. -/
theorem shift_callTree_some (receiver : Option Tree) (start : Nat) (name : MethodName)
    (arguments : Tree) (stop distance : Nat) :
    (callTree receiver start name (some arguments) stop).shift distance =
      .of .call ⟨0 + distance, stop + distance⟩
        (Tree.shiftAll distance (calleeParts receiver start name) ++
          [(arguments.shift (start + Text.size name.text + distance)).as .arguments]) := by
  show Tree.of .call _ (Tree.shiftAll distance _) = _
  rw [Tree.shiftAll_append, Tree.shiftAll, Tree.shiftAll, Tree.shift_as, Tree.shift_shift]
  rfl

/-- A call on a receiver stands elsewhere as its parts do. -/
theorem shift_calleeTree_some (receiver : Tree) (distance : Nat) :
    (calleeTree (some receiver) start name).shift distance =
      .of .call ⟨0 + distance, start + Text.size name.text + distance⟩
        [(receiver.shift distance).as .receiver,
          (Tree.leaf .identifier
            ⟨start + distance, start + Text.size name.text + distance⟩).as .method] := by
  obtain ⟨role, kind, span, parts⟩ := receiver
  rfl

theorem calleeTree_none : calleeTree none 0 name = name.tree := by
  unfold calleeTree MethodName.tree calleeParts
  rw [Nat.zero_add]
  cases name.mark <;> rfl

end Callees

theorem Receiver.text_of_tree? {receiver : Receiver} (none : receiver.tree? = none) :
    receiver.text = [] := by
  cases receiver with
  | nothing => rfl
  | call => cases none

/-! ### Reading calls -/

theorem endsName_dot (rest : List Char) : EndsName ('.' :: rest) := by
  rintro c ⟨⟩
  decide

theorem endsName_list (list : Option Enclosed) (rest : List Char) :
    EndsName (listText list ++ '.' :: rest) := by
  cases list with
  | none => exact endsName_dot rest
  | some list =>
    rintro c ⟨⟩
    decide

namespace Reader

variable {context : Context} {bound depth : Nat}

/-- The arguments of a call in a receiver are added to its name. -/
theorem list_ok {list : Option Enclosed} {receiver : Option Tree} {start : Nat} {name : MethodName}
    {origin cursor : Cursor} {steps : Nat} {rest : List Char}
    (first : receiver = none → start = 0)
    (grown : Grown (settingAt context bound depth) origin steps
      ⟨(calleeTree receiver start name).shift origin.offset, false⟩ cursor)
    (position : cursor.offset = start + Text.size name.text + origin.offset)
    (atLast : cursor.last = cursor.offset)
    (here : cursor.rest = listText list ++ rest) (free : cursor.heredocs = [])
    (enough : cursor.rest.length < bound)
    (deep : nestingPerCharacter * (listText list).length ≤ depth) :
    ∃ more after, Grown (settingAt context bound depth) origin more
        ⟨(callTree receiver start name (list.map Enclosed.tree)
          (start + Text.size name.text + Text.size (listText list))).shift origin.offset, false⟩
        after ∧
      cursor.Takes (listText list) after ∧ more ≤ steps + (listText list).length := by
  cases list with
  | none => exact ⟨steps, cursor, grown, ⟨(Cursor.Skips.refl free).toPasses, atLast⟩, Nat.le_refl _⟩
  | some list =>
    obtain ⟨after, read, takes⟩ := extension_enclosed context
      (calleeParts?_calleeTree receiver start name origin.offset)
      here free atLast enough deep
    refine ⟨steps + 1, after, ?_, takes, Nat.add_le_add_left (Nat.succ_pos _) _⟩
    have stop : after.offset =
        start + Text.size name.text + Text.size (listText (some list)) + origin.offset := by
      rw [takes.offset, position]
      show _ = start + _ + Text.size list.text + _
      omega
    have tree := shift_callTree_some receiver start name list.tree
      (start + Text.size name.text + Text.size (listText (some list))) origin.offset
    rw [Option.map_some, tree, ← stop, ← position]
    rw [start_shift_calleeTree first] at read
    exact .extension grown read

/-- The dot behind a receiver and the name behind it are added. -/
theorem dot_ok {tree : Tree} {name : MethodName} {origin cursor : Cursor} {steps stop : Nat}
    {rest : List Char} (first : tree.span.start = 0)
    (grown : Grown (settingAt context bound depth) origin steps ⟨tree.shift origin.offset, false⟩
      cursor)
    (position : cursor.offset = stop + origin.offset)
    (here : cursor.rest = '.' :: (name.text ++ rest)) (ends : EndsName rest)
    (free : cursor.heredocs = []) (enough : cursor.rest.length < bound) :
    ∃ after, Grown (settingAt context bound depth) origin (steps + 1)
        ⟨(calleeTree (some tree) (stop + 1) name).shift origin.offset, false⟩ after ∧
      cursor.Takes ('.' :: name.text) after := by
  obtain ⟨after, read, takes⟩ := extension_dot (tree.shift origin.offset)
    (settingAt context bound depth) here ends free enough
  refine ⟨after, ?_, takes⟩
  have start : cursor.offset + 1 = stop + 1 + origin.offset := by omega
  have last : after.offset = stop + 1 + Text.size name.text + origin.offset := by
    rw [takes.offset, Text.size_cons, position]
    show _ + (1 + _) = _
    omega
  have span : (tree.shift origin.offset).span.start = 0 + origin.offset := by
    rw [Tree.span_shift, ← first]
    rfl
  rw [start, last, span] at read
  rw [shift_calleeTree_some]
  exact .extension grown read

/-- **A call without its arguments is read**, whatever it is called on. -/
theorem callee_ok (context : Context) (bound depth : Nat) {receiver : Receiver}
    {name : MethodName} {cursor : Cursor} {rest : List Char}
    (here : cursor.rest = receiver.text ++ (name.text ++ rest)) (ends : EndsName rest)
    (free : cursor.heredocs = []) (enough : cursor.rest.length < bound)
    (deep : nestingPerCharacter * receiver.text.length ≤ depth) :
    ∃ steps after, Grown (settingAt context bound depth) cursor steps
        ⟨(calleeTree receiver.tree? (Text.size receiver.text) name).shift cursor.offset, false⟩
        after ∧
      cursor.Takes (receiver.text ++ name.text) after ∧
      steps ≤ (receiver.text ++ name.text).length := by
  induction receiver generalizing name rest with
  | nothing =>
    obtain ⟨after, read, takes⟩ :=
      atom_name here ends free (show (settingAt context bound depth).reserved = none from rfl)
    rw [← calleeTree_none] at read
    exact ⟨0, after, .atom read, takes, Nat.zero_le _⟩
  | call receiver inner list ih =>
    simp only [Receiver.text, List.append_assoc, List.singleton_append] at here
    simp only [Receiver.text, List.length_append, Nat.mul_add] at deep
    obtain ⟨steps, middle, grown, takes, few⟩ :=
      ih here (endsName_list list _) (Nat.le_trans (Nat.le_add_right _ _) deep)
    have there : middle.rest = listText list ++ '.' :: (name.text ++ rest) :=
      takes.rest_eq (by rw [here, List.append_assoc])
    have shorter := takes.toPasses.length_le
    have position : middle.offset =
        Text.size receiver.text + Text.size inner.text + cursor.offset := by
      rw [takes.offset, Text.size_append, Nat.add_comm]
    have first (none : receiver.tree? = none) : Text.size receiver.text = 0 := by
      rw [Receiver.text_of_tree? none]
      rfl
    obtain ⟨more, second, grownOn, takesOn, fewOn⟩ := list_ok first grown position takes.last there
      takes.stillFree (Nat.lt_of_le_of_lt shorter enough) (by omega)
    have dot := takesOn.rest_eq there
    have shorterOn := takesOn.toPasses.length_le
    have start : (callTree receiver.tree? (Text.size receiver.text) inner
        (list.map Enclosed.tree) (Text.size receiver.text + Text.size inner.text +
          Text.size (listText list))).span.start = 0 := by
      rw [span_callTree first fun none => ?_]
      rw [Option.map_eq_none_iff.mp none]
      rfl
    have reached : second.offset = Text.size receiver.text + Text.size inner.text +
        Text.size (listText list) + cursor.offset := by
      rw [takesOn.offset, position]
      omega
    obtain ⟨after, grownLast, ends⟩ := dot_ok start grownOn reached dot ends takesOn.stillFree
      (Nat.lt_of_le_of_lt (Nat.le_trans shorterOn shorter) enough)
    have size : Text.size (Receiver.call receiver inner list).text =
        Text.size receiver.text + Text.size inner.text + Text.size (listText list) + 1 := by
      simp only [Receiver.text, Text.size_append, Nat.add_assoc]
      rfl
    rw [← size] at grownLast
    refine ⟨more + 1, after, grownLast, ?_, ?_⟩
    · have whole := Cursor.Takes.trans takes.toPasses (.trans takesOn.toPasses ends)
      simpa only [Receiver.text, List.append_assoc, List.singleton_append] using whole
    · simp only [Receiver.text, List.length_append, List.length_singleton] at few ⊢
      omega

/-- Behind a name stands a list between parentheses, or what ends an expression. -/
theorem head_passed (passed : Passed) {rest : List Char}
    (ends : ∀ c ∈ rest.head?, endsExpression c = true) :
    ∀ c ∈ (passed.text ++ rest).head?, c = '(' ∨ endsExpression c = true := by
  intro c first
  cases passed with
  | nothing => exact Or.inr (ends c first)
  | enclosed list =>
    cases first
    exact Or.inl rfl
  | command gap spaced stay arguments =>
    obtain ⟨-, -, blank⟩ := fillerText_of_staysOnLine stay
    obtain ⟨e, more, gapped⟩ := List.exists_cons_of_ne_nil (fillerText_ne_nil spaced)
    rw [Passed.text, gapped] at first
    obtain rfl : e = c := Option.some.inj first
    have isBlank := blank e (by rw [gapped]; rfl)
    rw [endsExpression, isBlank]
    exact Or.inr rfl

/-- Behind a name stands what is passed, or nothing that goes on with the name. -/
theorem endsName_passed (passed : Passed) {rest : List Char}
    (ends : ∀ c ∈ rest.head?, endsExpression c = true) : EndsName (passed.text ++ rest) := by
  intro c first
  rcases head_passed passed ends c first with rfl | ended
  · decide
  · have alone : ∀ d ∈ [c].head?, endsExpression d = true := by
      rintro d ⟨⟩
      exact ended
    exact endsName_of_ends alone c rfl

/-- What is passed is added to the name of the method. Without parentheses it is passed in a
statement only. -/
theorem passed_ok {passed : Passed} {receiver : Option Tree} {start : Nat} {name : MethodName}
    {origin cursor : Cursor} {steps : Nat} {rest : List Char}
    (fits : passed.isCommand = true → context = statementContext)
    (first : receiver = none → start = 0)
    (grown : Grown (settingAt context bound depth) origin steps
      ⟨(calleeTree receiver start name).shift origin.offset, false⟩ cursor)
    (position : cursor.offset = start + Text.size name.text + origin.offset)
    (atLast : cursor.last = cursor.offset)
    (here : cursor.rest = passed.text ++ rest) (free : cursor.heredocs = [])
    (quiet : Quiet context rest) (enough : cursor.rest.length < bound)
    (deep : nestingPerCharacter * passed.text.length ≤ depth) :
    ∃ more after, Grown (settingAt context bound depth) origin more
        ⟨(callTree receiver start name passed.tree?
          (start + Text.size name.text + Text.size passed.text)).shift origin.offset,
          passed.isCommand⟩ after ∧
      cursor.Takes passed.text after ∧ more ≤ steps + passed.text.length := by
  cases passed with
  | nothing =>
    have none : cursor.rest = listText none ++ rest := here
    exact list_ok first grown position atLast none free enough deep
  | enclosed list =>
    have some : cursor.rest = listText (some list) ++ rest := here
    exact list_ok first grown position atLast some free enough deep
  | command gap spaced stay arguments tight starts =>
    obtain rfl := fits rfl
    rw [Passed.text, List.append_assoc] at here
    have isArgument : startsArgument statementContext true (arguments.text ++ rest) = true := by
      have behind := starts _ (quiet_of_further rfl tight quiet)
      rwa [← List.append_assoc] at behind
    obtain ⟨after, read, takes⟩ := extension_command
      (calleeParts?_calleeTree receiver start name origin.offset) spaced stay tight isArgument here
      free atLast quiet enough (Nat.le_trans (Nat.mul_le_mul_left _ (by
        rw [Passed.text, List.length_append]
        omega)) deep)
    have wide := List.length_pos_iff.mpr (fillerText_ne_nil spaced)
    refine ⟨steps + 1, after, ?_, takes, ?_⟩
    · have stop : after.offset = start + Text.size name.text +
          Text.size (fillerText gap ++ arguments.text) + origin.offset := by
        rw [takes.offset, position]
        omega
      have moved : Text.size (fillerText gap) + (start + Text.size name.text + origin.offset) =
          cursor.offset + Text.size (fillerText gap) := by
        rw [position, Nat.add_comm]
      rw [start_shift_calleeTree first] at read
      rw [Passed.tree?, Passed.text, shift_callTree_some, Tree.shift_shift, moved, ← stop]
      exact .extension grown read
    · rw [Passed.text, List.length_append]
      omega

/-- **A call is read**, in a statement or, unless its arguments stand without parentheses, anywhere
else. -/
theorem call_ok {call : Call} {cursor : Cursor} {rest : List Char}
    (fits : call.passed.isCommand = true → context = statementContext)
    (here : cursor.rest = call.text ++ rest) (free : cursor.heredocs = [])
    (quiet : Quiet context rest) (enough : cursor.rest.length < bound)
    (deep : nestingPerCharacter * call.text.length ≤ depth + nestingPerCharacter) :
    ∃ after, primary (settingAt context bound depth) cursor =
        .ok (⟨call.tree.shift cursor.offset, call.passed.isCommand⟩, after) ∧
      cursor.Takes call.text after := by
  obtain ⟨receiver, name, passed⟩ := call
  replace fits : passed.isCommand = true → context = statementContext := fits
  simp only [Call.text, List.append_assoc] at here
  have wide : 1 ≤ name.text.length := by
    obtain ⟨c, chars, same, -⟩ := name.text_eq_cons
    rw [same, List.length_cons]
    omega
  simp only [Call.text, List.length_append, Nat.mul_add] at deep
  have room := Nat.mul_le_mul_left nestingPerCharacter wide
  rw [Nat.mul_one] at room
  obtain ⟨steps, middle, grown, takes, few⟩ :=
    callee_ok context bound depth here (endsName_passed passed quiet.head) free enough
      (by omega)
  have there : middle.rest = passed.text ++ rest :=
    takes.rest_eq (by rw [here, List.append_assoc])
  have shorter := takes.toPasses.length_le
  have position : middle.offset =
      Text.size receiver.text + Text.size name.text + cursor.offset := by
    rw [takes.offset, Text.size_append, Nat.add_comm]
  have first (none : receiver.tree? = none) : Text.size receiver.text = 0 := by
    rw [Receiver.text_of_tree? none]
    rfl
  obtain ⟨more, after, grownOn, takesOn, fewOn⟩ := passed_ok fits first grown position takes.last
    there takes.stillFree quiet (Nat.lt_of_le_of_lt shorter enough) (by omega)
  have size : Text.size receiver.text + Text.size name.text + Text.size passed.text =
      Text.size (Call.mk receiver name passed).text := by
    simp only [Call.text, Text.size_append, Nat.add_assoc]
  rw [size] at grownOn
  have left := takesOn.rest_eq there
  refine ⟨after, grownOn.primary ?_ fun count => ?_, ?_⟩
  · have whole := congrArg List.length here
    simp only [List.length_append] at whole few
    show more ≤ bound
    omega
  · cases command : passed.isCommand with
    | true => exact extendUpTo_command rfl count
    | false =>
      exact extendUpTo_quiet (left ▸ quiet) takesOn.stillFree
        (Nat.lt_of_le_of_lt (Nat.le_trans takesOn.toPasses.length_le shorter) enough) _
  · have whole := Cursor.Takes.trans takes.toPasses takesOn
    rwa [List.append_assoc] at whole

end Reader

end RecipeLint.Ruby
