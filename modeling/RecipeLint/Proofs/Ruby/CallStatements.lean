/-
**Calls as statements.**

A call that is read the same wherever it stands is a statement of a program.

* `Call.within_tree` — all of its concrete tree is a part of its text.
* `Call.exists_rest` — it starts with a whole name.
* `Reader.statement_call` — the reader of statements finds it.
* `Call.statement` — the statement.
* `Call.ofString` — the call of a method with one string, without parentheses.
-/

import RecipeLint.Proofs.Ruby.Calls
import RecipeLint.Proofs.Ruby.Values

namespace RecipeLint.Ruby

/-! ### Places in the text -/

section Within

variable {receiver : Option Tree} {before : List Char} (name : MethodName)
  (each : ∀ tree ∈ receiver, tree.Within before)

include each

theorem within_calleeParts (after : List Char) :
    ∀ part ∈ calleeParts receiver (Text.size before) name,
      part.Within (before ++ (name.text ++ after)) := by
  refine List.forall_mem_append.mpr ⟨fun part member => ?_, List.forall_mem_singleton.mpr ?_⟩
  · obtain ⟨tree, given, rfl⟩ := Option.map_eq_some_iff.mp (Option.mem_toList.mp member)
    exact ((each tree given).append _).as .receiver
  · exact .node ⟨before, name.text, after, rfl, rfl, rfl⟩ nofun

theorem within_calleeTree (first : receiver = none → before = []) :
    (calleeTree receiver (Text.size before) name).Within (before ++ name.text) := by
  have parts := within_calleeParts name each []
  rw [List.append_nil] at parts
  have cuts : Span.CutsOut (before ++ name.text) ⟨0, Text.size before + Text.size name.text⟩ :=
    ⟨[], before ++ name.text, [], (List.append_nil _).symm, rfl, by
      rw [Text.size_append]
      exact Nat.zero_add _⟩
  unfold calleeTree
  split
  next bare =>
    obtain rfl := first (Option.isNone_iff_eq_none.mp (Bool.and_eq_true_iff.mp bare).1)
    exact .node cuts (List.forall_mem_nil _)
  next => exact .node cuts parts

theorem within_callTree (first : receiver = none → before = []) {list : Option Tree}
    {behind : List Char} (listed : ∀ tree ∈ list, tree.Within behind)
    (bare : list = none → behind = []) :
    (callTree receiver (Text.size before) name list
      (Text.size before + Text.size name.text + Text.size behind)).Within
        (before ++ (name.text ++ behind)) := by
  cases list with
  | none =>
    rw [bare rfl, List.append_nil]
    exact within_calleeTree name each first
  | some tree =>
    refine .node ⟨[], before ++ (name.text ++ behind), [], (List.append_nil _).symm, rfl, by
      simp only [Text.size_append, Nat.add_assoc]
      exact Nat.zero_add _⟩ ?_
    refine List.forall_mem_append.mpr ⟨within_calleeParts name each behind,
      List.forall_mem_singleton.mpr ?_⟩
    have moved := @Tree.Within.shift (before ++ name.text) behind [] tree (listed tree rfl)
    rw [Text.size_append, List.append_nil, List.append_assoc] at moved
    exact moved.as .arguments

end Within

theorem Receiver.within_tree (receiver : Receiver) :
    ∀ tree ∈ receiver.tree?, tree.Within receiver.text := by
  induction receiver with
  | nothing => exact nofun
  | call receiver name list ih =>
    rintro tree ⟨⟩
    have listed : ∀ tree ∈ list.map Enclosed.tree, tree.Within (listText list) := by
      cases list with
      | none => exact nofun
      | some list =>
        rintro tree ⟨⟩
        exact list.within_tree
    have bare (none : list.map Enclosed.tree = none) : listText list = [] := by
      rw [Option.map_eq_none_iff.mp none]
      rfl
    have whole := (within_callTree name ih Receiver.text_of_tree? listed bare).append ['.']
    rwa [List.append_assoc, List.append_assoc] at whole

theorem Passed.within_tree (passed : Passed) : ∀ tree ∈ passed.tree?, tree.Within passed.text := by
  cases passed with
  | nothing => exact nofun
  | enclosed list =>
    rintro tree ⟨⟩
    exact list.within_tree
  | command gap spaced stay arguments =>
    rintro tree ⟨⟩
    have moved := @Tree.Within.shift (fillerText gap) arguments.text [] _ arguments.within_tree
    rwa [List.append_nil] at moved

theorem Call.within_tree (call : Call) : call.tree.Within call.text := by
  have bare (none : call.passed.tree? = none) : call.passed.text = [] := by
    cases same : call.passed with
    | nothing => rfl
    | enclosed | command =>
      rw [same] at none
      cases none
  have whole := within_callTree call.name call.receiver.within_tree
    Receiver.text_of_tree? call.passed.within_tree bare
  rwa [Nat.add_assoc, ← Text.size_append, ← Text.size_append] at whole

/-! ### Calls as statements -/

/-- The name that a text starts with where a receiver stands before a name. -/
def Receiver.firstName : Receiver → MethodName → MethodName
  | .nothing, name => name
  | .call receiver inner _, _ => receiver.firstName inner

/-- The name that a call starts with. -/
def Call.firstName (call : Call) : MethodName :=
  call.receiver.firstName call.name

theorem Receiver.exists_rest (receiver : Receiver) (name : MethodName) {rest : List Char}
    (ends : EndsName rest) (noColon : rest.head? ≠ some ':') :
    ∃ more, receiver.text ++ (name.text ++ rest) = (receiver.firstName name).text ++ more ∧
      EndsName more ∧ more.head? ≠ some ':' := by
  induction receiver generalizing name rest with
  | nothing => exact ⟨rest, rfl, ends, noColon⟩
  | call receiver inner list ih =>
    have noColon' : (listText list ++ '.' :: (name.text ++ rest)).head? ≠ some ':' := by
      cases list <;> nofun
    obtain ⟨more, same, behind⟩ := ih inner (endsName_list list (name.text ++ rest)) noColon'
    refine ⟨more, ?_, behind⟩
    rw [firstName, ← same]
    simp only [Receiver.text, List.append_assoc, List.singleton_append]

/-- **A call starts with a whole name**, and with no key. -/
theorem Call.exists_rest (call : Call) {rest : List Char}
    (ends : ∀ c ∈ rest.head?, endsExpression c = true) :
    ∃ more, call.text ++ rest = call.firstName.text ++ more ∧ EndsName more ∧
      more.head? ≠ some ':' := by
  have noColon : (call.passed.text ++ rest).head? ≠ some ':' := fun colon => by
    rcases Reader.head_passed call.passed ends ':' colon with same | ended
    · cases same
    · cases ended
  obtain ⟨more, same, behind⟩ :=
    call.receiver.exists_rest call.name (Reader.endsName_passed call.passed ends) noColon
  refine ⟨more, ?_, behind⟩
  rw [firstName, ← same]
  simp only [Call.text, List.append_assoc]

/-- A call starts with a small letter. -/
theorem Call.text_eq_cons (call : Call) : ∃ c more, call.text = c :: more ∧ c.isLower = true := by
  obtain ⟨more, same, -⟩ := @Call.exists_rest call [] nofun
  obtain ⟨c, chars, letters, -, small⟩ := call.firstName.text_eq_cons
  rw [List.append_nil, letters] at same
  exact ⟨c, _, same, small⟩

namespace Reader

/-- A statement that starts with a name is an expression. -/
theorem bareStatement_name (setting : Setting) {cursor after : Cursor} {name : MethodName}
    {rest : List Char} {value : Operand} (here : cursor.rest = name.text ++ rest)
    (ends : EndsName rest)
    (read : setting.descent .expression setting.context cursor = .ok (value, after)) :
    bareStatement setting cursor = .ok (value.tree, after) := by
  have noWord (word : String) (keyword : word ∈ keywords) : cursor.seesWord word = false := by
    refine beq_false_of_ne fun same => ofList_nameOf_ne here ends keyword ?_
    rw [same, String.ofList_toList]
  unfold bareStatement
  simp only [bind_apply, get_apply, ite_apply, noWord "alias" (by decide),
    noWord "undef" (by decide), noWord "BEGIN" (by decide), noWord "END" (by decide),
    descend_apply, read, pure_apply, Bool.false_eq_true, if_false]

/-- **A call is read as a statement.** -/
theorem statement_call {call : Call} {bound depth : Nat} {cursor : Cursor} {rest : List Char}
    (here : cursor.rest = call.text ++ rest) (free : cursor.heredocs = [])
    (quiet : Quiet programContext rest) (enough : cursor.rest.length < bound)
    (deep : nestingPerCharacter * call.text.length ≤ depth) :
    ∃ after, descent bound none depth .statement programContext cursor =
        .ok (call.tree.shift cursor.offset, after) ∧
      cursor.Takes call.text after := by
  obtain ⟨more, same, ends, -⟩ := call.exists_rest quiet.head
  have start : cursor.rest = call.firstName.text ++ more := here.trans same
  have wide : 1 ≤ call.text.length := by
    obtain ⟨c, chars, letters, -⟩ := call.name.text_eq_cons
    simp only [Call.text, letters, List.length_append, List.length_cons]
    omega
  obtain ⟨depth, rfl⟩ : ∃ less, depth = less + 3 := Nat.exists_eq_add_of_le' (by
    have room := Nat.mul_le_mul_left nestingPerCharacter wide
    simp only [nestingPerCharacter] at room deep
    omega)
  have known : Quiet statementContext rest := quiet.mono rfl fun listed => listed
  have less : nestingPerCharacter * call.text.length ≤ depth + nestingPerCharacter := by
    simp only [nestingPerCharacter] at deep ⊢
    omega
  obtain ⟨middle, read, takes⟩ := call_ok (fun _ => rfl) here free known enough less
  rw [← operandHead_name start ends] at read
  have left := takes.rest_eq here
  have shorter := Nat.lt_of_le_of_lt takes.toPasses.length_le enough
  obtain ⟨last, whole, taken, leftOver⟩ := descent_expression_ok takes (left ▸ known) shorter read
  have bare := bareStatement_name (settingAt statementContext bound (depth + 2)) start ends whole
  have remaining : last.rest = rest := leftOver.trans left
  have ended : Quiet (settingAt statementContext bound (depth + 2)).context last.rest :=
    remaining ▸ known
  have modified := modifier_quiet ended taken.stillFree (leftOver ▸ shorter)
    (call.tree.shift cursor.offset)
  have statement' : statement (settingAt programContext bound (depth + 2)) cursor =
      .ok (call.tree.shift cursor.offset, last) := by
    obtain ⟨count, same⟩ := Nat.exists_eq_succ_of_ne_zero (Nat.ne_zero_of_lt enough)
    show (bareStatement >>= extend modifier) (settingAt statementContext bound (depth + 2)) cursor =
      _
    simp only [bind_apply, bare, extend, bound_apply]
    show extendUpTo modifier bound _ (settingAt statementContext bound (depth + 2)) last = _
    rw [same] at modified ⊢
    simp only [extendUpTo, bind_apply, modified, pure_apply]
  obtain ⟨done, -⟩ := taken.complete cursor.offset
  exact ⟨_, descent_of_rule .statement statement', done⟩

end Reader

/-- A small letter can start a statement. -/
theorem startsStatement_of_lower {c : Char} (small : c.isLower = true) :
    startsStatement c = true := by
  have other {sign : Char} (large : sign.isLower = false) : (c == sign) = false :=
    beq_false_of_ne (ne_of_lower small large)
  have noSign : joiningSigns.contains c = false := not_contains_of_lower small (by decide)
  have noCloser : isCloser c = false := by
    simp only [isCloser, Bool.or_eq_false_iff]
    exact ⟨⟨other rfl, other rfl⟩, other rfl⟩
  have noSemicolon : (c != ';') = true := by rw [bne, other rfl, Bool.not_false]
  rw [startsStatement, standsFresh, not_isGap_of_lower small, noCloser, noSign, noSemicolon]
  rfl

theorem Call.starts (call : Call) : call.text.head?.any startsStatement = true := by
  obtain ⟨c, more, same, small⟩ := call.text_eq_cons
  rw [same]
  exact startsStatement_of_lower small

/-- **A call as a statement of a program.** -/
def Call.statement (call : Call) : Statement where
  text := call.text
  tree := call.tree
  starts := call.starts
  within := call.within_tree
  reads _ _ _ _ := Reader.statement_call

/-- **The call of a method with one string**, without parentheses. -/
def Call.ofString (name : MethodName) (body : List Char) (plain : body.all isPlainQuoted = true) :
    Call where
  receiver := .nothing
  name := name
  passed := .command [.blank ' ' isGap_space] nofun rfl ⟨.quoted _ .command body plain, []⟩ nofun
    fun _ _ => rfl

end RecipeLint.Ruby
