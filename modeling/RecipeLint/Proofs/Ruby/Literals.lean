/-
**Operands as arguments, and strings.**

An argument that is an operand is read the same with parentheses and without. A string in single
quotes is such an operand. It may have escapes: all that matters is that the quote behind it is the
first one that no backslash takes along.

* `ReadsArgument` — the readers of arguments.
* `Reader.argument_of_head` — an argument that is an operand.
* `isQuotable` — the texts that can stand between single quotes.
* `Reader.operandHead_quotable` — a string in single quotes is an operand.
-/

import RecipeLint.Proofs.Ruby.Growth

namespace RecipeLint.Ruby

/-! ### Readers of arguments -/

/-- A reader of arguments, between parentheses or without them. -/
inductive ReadsArgument : Reader Tree → Prop
  | enclosed : ReadsArgument Reader.argument
  | command : ReadsArgument Reader.commandArgument

namespace Reader

variable {context : Context} {bound depth : Nat} {cursor after : Cursor} {text : List Char}
  {value : Operand}

/-- An operand that nothing goes on with is no key. -/
theorem pairTail_quiet {setting : Setting} (quiet : Quiet setting.context cursor.rest)
    (free : cursor.heredocs = []) (enough : cursor.rest.length < setting.bound) (start : Nat) :
    pairTail start value setting cursor = .ok (value.tree, cursor) := by
  obtain ⟨stop, moved, halts⟩ := skipSpace_quiet quiet free enough
  have noColon : cursor.sees ":" = false := cursor.sees_of_ends quiet.head ":" rfl rfl
  have noArrow := sees_of_halts halts "=>" rfl rfl
  unfold pairTail
  simp only [bind_apply, ite_apply, pure_apply, sees_apply, attempt_apply, moved, noColon, noArrow,
    Bool.false_and, Bool.and_false, Bool.false_eq_true, if_false, ite_self, Option.getD_none]

/-- The signs that start a pair without a key, or that make something else of an operand. -/
def pairSigns : List Char := [':', '*', '&', '.']

/-- **An operand is an argument** if it starts with no key and no sign of an argument. -/
theorem argumentOf_ok (setting : Setting) {plain : Reader Operand} {c : Char} {rest : List Char}
    (here : cursor.rest = c :: rest) (noKey : argumentKeyOf cursor.rest = none)
    (noSign : pairSigns.contains c = false)
    (read : plain setting cursor = .ok (value, after))
    (quiet : Quiet setting.context after.rest) (free : after.heredocs = [])
    (enough : after.rest.length < setting.bound) :
    argumentOf plain setting cursor = .ok (value.tree, after) := by
  have other {sign : Char} (listed : sign ∈ pairSigns) : sign ≠ c := by
    rintro rfl
    rw [List.contains_iff_mem.mpr listed] at noSign
    cases noSign
  have unseen (expected : String) {sign : Char} {more : List Char}
      (same : expected.toList = sign :: more) (listed : sign ∈ pairSigns) :
      cursor.sees expected = false := by
    rw [Cursor.sees, here, same, Text.strip?, if_neg (other listed)]
    rfl
  have noPair : startsUnnamedPair cursor.isSpaced cursor.rest = false := by
    rw [here]
    unfold startsUnnamedPair
    split
    next same => exact absurd (List.cons.inj same).1.symm (other (by decide))
    next => rfl
  have noForwarding : seesForwarding setting cursor = .ok (false, cursor) := by
    unfold seesForwarding
    simp only [bind_apply, sees_apply, unseen "..." rfl (by decide), ite_apply, pure_apply,
      Bool.false_eq_true, if_false]
  unfold argumentOf keyedPair? unnamedPair?
  simp only [bind_apply, get_apply, noKey, pure_apply, noPair, ite_apply, sees_apply,
    unseen "**" rfl (by decide), unseen "*" rfl (by decide), unseen "&" rfl (by decide),
    noForwarding, position_apply, read, pairTail_quiet quiet free enough, Bool.false_eq_true,
    if_false]

/-- **An operand is read as an argument**, with parentheses or without. -/
theorem argument_of_head {read : Reader Tree} (reads : ReadsArgument read) {c : Char}
    {more rest : List Char} (here : cursor.rest = c :: more ++ rest)
    (noKey : argumentKeyOf cursor.rest = none) (noSign : pairSigns.contains c = false)
    (head : ∀ inner, depth ≤ inner + 2 → ∃ after,
      operandHead (settingAt context bound inner) cursor = .ok (value, after) ∧
        cursor.Takes (c :: more) after)
    (quiet : Quiet context rest) (enough : cursor.rest.length < bound) (deep : 2 ≤ depth) :
    ∃ last, read (settingAt context bound depth) cursor = .ok (value.tree, last) ∧
      cursor.Takes (c :: more) last := by
  obtain ⟨depth, rfl⟩ := Nat.exists_eq_add_of_le' deep
  have whole (last : Cursor) (taken : cursor.Takes (c :: more) last) :
      Quiet context last.rest ∧ last.rest.length < bound :=
    ⟨taken.rest_eq here ▸ quiet, Nat.lt_of_le_of_lt taken.toPasses.length_le enough⟩
  cases reads with
  | enclosed =>
    obtain ⟨after, start, takes⟩ := head depth (Nat.le_refl _)
    obtain ⟨last, whole', taken, -⟩ :=
      descent_expression_ok takes (whole after takes).1 (whole after takes).2 start
    exact ⟨last, argumentOf_ok (settingAt context bound (depth + 2)) here noKey noSign whole'
      (whole last taken).1 taken.stillFree (whole last taken).2, taken⟩
  | command =>
    obtain ⟨after, start, takes⟩ := head (depth + 1) (Nat.le_succ _)
    obtain ⟨last, whole', taken, -⟩ :=
      descent_matched_ok takes (whole after takes).1 (whole after takes).2 start 2
    exact ⟨last, argumentOf_ok (settingAt context bound (depth + 2)) here noKey noSign whole'
      (whole last taken).1 taken.stillFree (whole last taken).2, taken⟩

/-- No other string follows a string that nothing goes on with. -/
theorem chained_quiet {setting : Setting} {tree : Tree} (isString : tree.is .stringLiteral = true)
    (quiet : Quiet setting.context cursor.rest) (free : cursor.heredocs = [])
    (enough : cursor.rest.length < setting.bound) :
    chained tree setting cursor = .ok (tree, cursor) := by
  obtain ⟨stop, moved, halts⟩ := skipSpace_quiet quiet free enough
  have noHeredoc : heredocStart? stop.rest = none := by
    generalize stop.rest = text at halts ⊢
    cases halts <;> rfl
  have noString : nextString? setting stop = .ok (none, stop) := by
    unfold nextString?
    simp only [bind_apply, get_apply]
    generalize stop.rest = text at halts ⊢
    cases halts <;> rfl
  obtain ⟨count, same⟩ := Nat.exists_eq_succ_of_ne_zero (Nat.ne_zero_of_lt enough)
  unfold chained many
  simp only [bind_apply, bound_apply, same, manyUpTo, attempt_apply, moved, get_apply, noHeredoc,
    noString, isString, ite_apply, pure_apply, Option.isSome_none, List.isEmpty_nil,
    Bool.false_eq_true, if_true, if_false]

/-- What nothing goes on with is the whole primary. -/
theorem primary_of_atom {setting : Setting} {start : Cursor}
    (read : atom setting start = .ok (value, cursor)) (quiet : Quiet setting.context cursor.rest)
    (free : cursor.heredocs = []) (enough : cursor.rest.length < setting.bound) :
    primary setting start = .ok (value, cursor) :=
  (Grown.atom read).primary (Nat.zero_le _) fun _ => extendUpTo_quiet quiet free enough value

end Reader

/-! ### Strings in single quotes -/

/-- Whether a character stands for itself between single quotes. -/
def isPlainQuoted (c : Char) : Bool :=
  c != '\'' && c != '\\'

/-- How a string in single quotes is written. -/
def quotedText (body : List Char) : List Char :=
  '\'' :: (body ++ ['\''])

/-- The concrete tree of a string in single quotes. -/
def quotedTree (body : List Char) : Tree :=
  .of .stringLiteral ⟨0, Text.size (quotedText body)⟩
    (if body = [] then [] else [.leaf .stringContent ⟨1, 1 + Text.size body⟩])

/-- Whether a text can stand between single quotes: a backslash takes along what is behind it, and
there is no quote besides. -/
def isQuotable : List Char → Bool
  | '\\' :: text =>
    match text with
    | [] => false
    | _ :: body => isQuotable body
  | c :: body => c != '\'' && isQuotable body
  | [] => true

section Quoted

variable {body : List Char}

theorem isQuotable_cons {c : Char} (plain : isPlainQuoted c = true) :
    isQuotable (c :: body) = isQuotable body := by
  obtain ⟨noQuote, noEscape⟩ := Bool.and_eq_true_iff.mp plain
  rw [isQuotable, noQuote, Bool.true_and]
  rintro rfl
  cases noEscape

theorem isQuotable_of_plain (plain : body.all isPlainQuoted = true) : isQuotable body = true := by
  induction body with
  | nil => rfl
  | cons c body ih =>
    obtain ⟨here, others⟩ := Bool.and_eq_true_iff.mp plain
    rw [isQuotable_cons here]
    exact ih others

variable (quotable : isQuotable body = true)

include quotable

/-- **What can stand between the quotes ends at the closing one.** -/
theorem plainRun_quoted (begun : Bool) (rest : List Char) :
    (Delimiters.quoted '\'' false).plainRun false begun (body ++ '\'' :: rest) 0 =
      (body.length, 0) := by
  fun_induction isQuotable body generalizing begun with
  | case1 => cases quotable
  | case2 c body ih =>
    have later := ih quotable true
    rw [Delimiters.quoted] at later
    rw [List.cons_append, List.cons_append, Delimiters.plainRun.eq_def]
    simp only [Delimiters.quoted, Bool.false_and, Bool.false_eq_true, if_false, Char.reduceEq,
      reduceCtorEq, if_true, later, List.length_cons]
  | case3 c body other ih =>
    obtain ⟨noQuote, others⟩ := Bool.and_eq_true_iff.mp quotable
    have differs : c ≠ '\'' := by simpa using noQuote
    have differs' : c ≠ '\\' := other
    have later := ih others true
    rw [Delimiters.quoted] at later
    rw [List.cons_append, Delimiters.plainRun.eq_def]
    simp only [Delimiters.quoted, Bool.false_and, Bool.false_eq_true, if_false, differs, differs',
      reduceCtorEq, later, List.length_cons]
  | case4 =>
    rw [List.nil_append, Delimiters.plainRun.eq_def]
    rfl

namespace Reader

variable {setting : Setting} {cursor : Cursor} {rest : List Char}

omit quotable in
/-- At the closing quote there is nothing more between the quotes. -/
theorem contentsUpTo_closed (here : cursor.rest = '\'' :: rest) (count : Nat) :
    contentsUpTo (.quoted '\'' false) false count 0 setting cursor = .ok (([], 0), cursor) := by
  have nothing : isQuotable [] = true := rfl
  have closed : (Delimiters.quoted '\'' false).plainRun false false ('\'' :: rest) 0 = (0, 0) :=
    plainRun_quoted nothing false rest
  cases count with
  | zero => rfl
  | succ count =>
    have noEscapes : (Delimiters.quoted '\'' false).interpolates = false := rfl
    unfold contentsUpTo
    simp only [bind_apply, get_apply, here, closed, noEscapes, ite_apply, pure_apply, ne_eq,
      not_true_eq_false, Bool.false_and, Bool.false_eq_true, if_false]

/-- What stands between the quotes is read, with the closing one. -/
theorem contents_quoted (closer : String) (opened : Span)
    (here : cursor.rest = body ++ '\'' :: rest) (free : cursor.heredocs = [])
    (enough : cursor.rest.length < setting.bound) :
    ∃ after, contents closer (.quoted '\'' false) opened setting cursor =
        .ok (if body = [] then []
          else [.leaf .stringContent ⟨cursor.offset, Text.size body + cursor.offset⟩], after) ∧
      cursor.Takes (body ++ ['\'']) after := by
  obtain ⟨count, same⟩ := Nat.exists_eq_succ_of_ne_zero (Nat.ne_zero_of_lt enough)
  obtain ⟨inside, left⟩ := Cursor.eat_takes here free
  have closing : (Delimiters.quoted '\'' false).closing = '\'' := rfl
  have quote : (cursor.eat body.length).rest = ['\''] ++ rest := left
  obtain ⟨ended, -⟩ := Cursor.eat_takes quote inside.stillFree
  refine ⟨(cursor.eat body.length).eat 1, ?_, .trans inside.toPasses ended⟩
  have run : (Delimiters.quoted '\'' false).plainRun false false cursor.rest 0 = (body.length, 0) :=
    here ▸ plainRun_quoted quotable false rest
  by_cases nothing : body = []
  · subst nothing
    have atQuote : cursor.rest = '\'' :: rest := here
    unfold contents
    simp only [bind_apply, bound_apply, contentsUpTo_closed atQuote, peek_apply, atQuote, closing,
      List.head?_cons, ite_apply, pure_apply, eat_apply, if_true]
    rfl
  · have some : body.length ≠ 0 := fun empty => nothing (List.length_eq_zero_iff.mp empty)
    have notLast : (cursor.rest.drop body.length).isEmpty = false := by
      rw [here, List.drop_left]
      rfl
    have parts : contentsUpTo (.quoted '\'' false) false setting.bound 0 setting cursor =
        .ok (([.leaf .stringContent ⟨cursor.offset, (cursor.eat body.length).last⟩], 0),
          cursor.eat body.length) := by
      rw [same]
      unfold contentsUpTo
      simp only [bind_apply, get_apply, run, some, notLast, ite_apply, pure_apply, map_apply,
        leaf_apply, contentsUpTo_closed left, ne_eq, not_false_eq_true, Bool.false_eq_true,
        if_true, if_false]
    have last : (cursor.eat body.length).last = Text.size body + cursor.offset := by
      rw [inside.last, inside.offset, Nat.add_comm]
    unfold contents
    simp only [bind_apply, bound_apply, parts, peek_apply, left, closing, List.head?_cons,
      ite_apply, pure_apply, eat_apply, last, if_neg nothing, if_true]

/-- A string in single quotes is read. -/
theorem quotedString_ok (here : cursor.rest = quotedText body ++ rest)
    (free : cursor.heredocs = []) (enough : cursor.rest.length < setting.bound) :
    ∃ after, quotedString setting cursor = .ok ((quotedTree body).shift cursor.offset, after) ∧
      cursor.Takes (quotedText body) after := by
  have opens : cursor.rest = ['\''] ++ (body ++ '\'' :: rest) := by
    rw [here]
    simp [quotedText]
  obtain ⟨opened, left⟩ := Cursor.eat_takes opens free
  obtain ⟨after, read, takes⟩ := contents_quoted quotable (closerOf .stringLiteral)
    ⟨cursor.offset, (cursor.eat 1).last⟩ left opened.stillFree
    (Nat.lt_of_le_of_lt opened.toPasses.length_le enough)
  have whole : cursor.Takes (quotedText body) after := .trans opened.toPasses takes
  refine ⟨{ after with previous := ⟨cursor.offset, after.last⟩ }, ?_,
    ⟨⟨whole.rest, whole.offset, whole.extras, whole.free, whole.stillFree⟩, whole.last⟩⟩
  have start : (cursor.eat ['\''].length).offset = 1 + cursor.offset :=
    opened.offset.trans (Nat.add_comm _ _)
  have tree : (quotedTree body).shift cursor.offset = .of .stringLiteral ⟨cursor.offset, after.last⟩
      (if body = [] then []
        else [.leaf .stringContent ⟨(cursor.eat ['\''].length).offset,
          Text.size body + (cursor.eat ['\''].length).offset⟩]) := by
    have placed : Text.size body + (1 + cursor.offset) = 1 + Text.size body + cursor.offset := by
      omega
    rw [start, placed, quotedTree, ← whole.span_shift]
    split <;> rfl
  have inside : ending (Ending.reach cursor.offset) (contents (closerOf .stringLiteral)
      (.quoted '\'' false) ⟨cursor.offset, (cursor.eat 1).last⟩) setting (cursor.eat 1) =
        .ok (_, after) := ending_of_ok read
  have first : cursor.rest = '\'' :: (body ++ '\'' :: rest) := opens
  unfold quotedString
  simp only [bind_apply, get_apply, first]
  unfold delimited
  simp only [bind_apply, position_apply, eat_apply, spanFrom_apply, inside, modify_apply,
    pure_apply, tree]

/-- **A primary that starts with a string in single quotes starts with the whole string.** -/
theorem atom_quotable (here : cursor.rest = quotedText body ++ rest)
    (free : cursor.heredocs = []) (quiet : Quiet setting.context rest)
    (enough : cursor.rest.length < setting.bound) :
    ∃ after, atom setting cursor =
        .ok (⟨(quotedTree body).shift cursor.offset, false⟩, after) ∧
      cursor.Takes (quotedText body) after := by
  obtain ⟨after, read, takes⟩ := quotedString_ok quotable here free enough
  refine ⟨after, ?_, takes⟩
  have single : chained ((quotedTree body).shift cursor.offset) setting after =
      .ok ((quotedTree body).shift cursor.offset, after) :=
    chained_quiet rfl (takes.rest_eq here ▸ quiet) takes.stillFree
      (Nat.lt_of_le_of_lt takes.toPasses.length_le enough)
  have first : cursor.rest = '\'' :: (body ++ '\'' :: rest) := by
    rw [here]
    simp [quotedText]
  have noWord : (some '\'').any isWordStart = false := rfl
  have noDigit : '\''.isDigit = false := rfl
  have string : startsString ('\'' :: (body ++ '\'' :: rest)) = true := rfl
  unfold atom signAtom
  simp only [bind_apply, peek_apply, get_apply, first, List.head?_cons, noWord, noDigit, string,
    ite_apply, read, single, pure_apply, Bool.false_eq_true, if_false, if_true]

/-- **A string in single quotes is an operand**, with escapes or without. -/
theorem operandHead_quotable (here : cursor.rest = quotedText body ++ rest)
    (free : cursor.heredocs = []) (quiet : Quiet setting.context rest)
    (enough : cursor.rest.length < setting.bound) :
    ∃ after, operandHead setting cursor =
        .ok (⟨(quotedTree body).shift cursor.offset, false⟩, after) ∧
      cursor.Takes (quotedText body) after := by
  obtain ⟨after, start, takes⟩ := atom_quotable quotable here free quiet enough
  refine ⟨after, ?_, takes⟩
  have first : cursor.rest = '\'' :: (body ++ '\'' :: rest) := by
    rw [here]
    simp [quotedText]
  have whole := primary_of_atom start (takes.rest_eq here ▸ quiet) takes.stillFree
    (Nat.lt_of_le_of_lt takes.toPasses.length_le enough)
  have noWord (word : String) (some : word.toList ≠ []) : cursor.seesWord word = false := by
    have none : nameOf ('\'' :: (body ++ '\'' :: rest)) = [] := rfl
    rw [Cursor.seesWord, first, none]
    simpa using some.symm
  unfold operandHead
  simp only [bind_apply, get_apply, noWord "not" (by decide), noWord "defined?" (by decide),
    Bool.false_eq_true, if_false]
  rw [← whole]
  generalize cursor.rest = text at first ⊢
  subst first
  rfl

end Reader

omit quotable in
theorem quotedTree_within : (quotedTree body).Within (quotedText body) := by
  refine .node ⟨[], quotedText body, [], (List.append_nil _).symm, rfl, Nat.zero_add _⟩ ?_
  split
  next => exact List.forall_mem_nil _
  next =>
    exact List.forall_mem_singleton.mpr
      (.node ⟨['\''], body, ['\''], rfl, rfl, rfl⟩ (List.forall_mem_nil _))

end Quoted

end RecipeLint.Ruby
