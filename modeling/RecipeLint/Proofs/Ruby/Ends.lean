/-
**Where an expression ends.**

Behind a primary the reader tries one thing after the other: indices, arguments, a block, a dot, an
assignment, an operator, a pattern, a word that joins, a modifier. Where nothing goes on with the
primary, none of them is found, and the cursor stays behind it.

* `Reader.extension_quiet`, `Reader.assignmentTail_quiet`, `Reader.operatorTail_quiet`,
  `Reader.modifier_quiet` — nothing is found.
* `Reader.operand_of_head`, `Reader.matched_of_operand`, `Reader.descent_expression_ok` — a primary
  is all of the expression.
-/

import RecipeLint.Proofs.Ruby.Gaps

namespace RecipeLint.Ruby

/-! ### Signs that are not there -/

/-- The characters that can stand behind an expression. -/
def endsExpression (c : Char) : Bool :=
  isGap c || c == '#' || c == ';' || c == ')' || c == ','

theorem Halts.head {listed : Bool} {text : List Char} (halts : Halts listed text) :
    ∀ c ∈ text.head?, endsExpression c = true := by
  cases halts <;> intro c member <;> cases member <;> rfl

theorem Blanks.endsExpression {next text : List Char} (gap : Blanks next text)
    (ends : ∀ c ∈ next.head?, endsExpression c = true) :
    ∀ c ∈ text.head?, Ruby.endsExpression c = true := by
  rcases gap.head with rfl | ⟨c, found, kind⟩
  · exact ends
  · intro other member
    obtain rfl : c = other := Option.mem_unique found member
    rcases kind with isBlank | rfl
    · rw [Ruby.endsExpression, isBlank]
      rfl
    · rfl

theorem Lines.endsExpression {next text : List Char} (gap : Lines next text)
    (ends : ∀ c ∈ next.head?, endsExpression c = true) :
    ∀ c ∈ text.head?, Ruby.endsExpression c = true := by
  cases gap with
  | last gap => exact gap.endsExpression ends
  | line gap => exact gap.endsExpression (by simp [Ruby.endsExpression, isGap])

theorem Quiet.head {context : Context} {text : List Char} (quiet : Quiet context text) :
    ∀ c ∈ text.head?, endsExpression c = true := by
  cases quiet with
  | gaps _ gap halts => exact gap.endsExpression halts.head
  | line _ gap _ halts => exact gap.endsExpression halts.head
  | lineEnd _ gap => exact gap.endsExpression (by simp [Ruby.endsExpression, isGap])

/-- A sign that cannot stand behind an expression is not found there. -/
theorem strip?_of_ends {text : List Char} (ends : ∀ c ∈ text.head?, endsExpression c = true)
    {first : Char} {more : List Char} (other : endsExpression first = false) :
    Text.strip? (first :: more) text = none := by
  cases text with
  | nil => rfl
  | cons c rest =>
    have differs : first ≠ c := by
      rintro rfl
      rw [ends first rfl] at other
      cases other
    rw [Text.strip?, if_neg differs]

theorem not_isWordPart_of_ends {c : Char} (ends : endsExpression c = true) :
    isWordPart c = false := by
  unfold endsExpression isGap at ends
  simp only [Bool.or_eq_true, beq_iff_eq] at ends
  rcases ends with ((((((rfl | rfl) | rfl) | rfl) | rfl) | rfl) | rfl) | rfl <;> decide

theorem wordOf_of_ends {text : List Char} (ends : ∀ c ∈ text.head?, endsExpression c = true) :
    wordOf text = [] := by
  cases text with
  | nil => rfl
  | cons c rest =>
    have noPart := not_isWordPart_of_ends (ends c rfl)
    have noStart : isWordStart c = false := by rw [isWordStart, noPart, Bool.false_and]
    rw [wordOf, noStart]
    rfl

theorem nameOf_of_ends {text : List Char} (ends : ∀ c ∈ text.head?, endsExpression c = true) :
    nameOf text = [] := by
  rw [nameOf, wordOf_of_ends ends]
  rfl

theorem keyOf_of_ends {text : List Char} (ends : ∀ c ∈ text.head?, endsExpression c = true) :
    keyOf text = none := by
  rw [keyOf, wordOf_of_ends ends]
  rfl

namespace Cursor

variable {cursor : Cursor} (ends : ∀ c ∈ cursor.rest.head?, endsExpression c = true)

include ends

theorem sees_of_ends (sign : String) {first : Char} {more : List Char}
    (same : sign.toList = first :: more) (other : endsExpression first = false) :
    cursor.sees sign = false := by
  rw [sees, same, strip?_of_ends ends other]
  rfl

theorem seesWord_of_ends (word : String) (some : word.toList ≠ []) :
    cursor.seesWord word = false := by
  rw [seesWord, nameOf_of_ends ends]
  simpa using Ne.symm some

theorem seesStem_of_ends (word : String) (some : word.toList ≠ []) :
    cursor.seesStem word = false := by
  rw [seesStem, wordOf_of_ends ends]
  simpa using Ne.symm some

end Cursor

section Halting

variable {listed : Bool} {text : List Char} (halts : Halts listed text)

include halts

theorem startsArgument_of_halts (context : Context) (spaced : Bool) :
    startsArgument context spaced text = false := by
  have noKey : argumentKeyOf text = none := by
    rw [argumentKeyOf, keyOf_of_ends halts.head]
    rfl
  cases halts <;> simp only [startsArgument, noKey] <;> rfl

theorem startsUnnamedPair_of_halts (spaced : Bool) :
    Reader.startsUnnamedPair spaced text = false := by
  cases halts <;> rfl

theorem startsAssignment_of_halts : startsAssignment text = false := by
  cases halts <;> rfl

theorem assigningLength?_of_halts : assigningLength? text = none := by
  cases halts <;> rfl

theorem binaryOperator?_of_halts (barred : Bool) : binaryOperator? barred text = none := by
  cases halts <;> rfl

end Halting

/-! ### Parts that do not start -/

namespace Reader

section Unseen

variable {setting : Setting} {cursor : Cursor} (tree : Tree)

theorem tightExtension_of_unseen (noColons : cursor.sees "::" = false)
    (noBracket : cursor.sees "[" = false) (noOpening : cursor.sees "(" = false) :
    tightExtension tree setting cursor = .ok (none, cursor) := by
  unfold tightExtension
  simp only [bind_apply, get_apply, ite_apply, pure_apply, noColons, noBracket, noOpening,
    Bool.false_eq_true, if_false, ite_self]

theorem seesStrayAmpersand_of_unseen (before : Cursor) (noSign : cursor.sees "&" = false) :
    seesStrayAmpersand tree before setting cursor = .ok (false, cursor) := by
  unfold seesStrayAmpersand
  simp only [bind_apply, context_apply, get_apply, pure_apply, noSign, Bool.and_false,
    Bool.false_and]

theorem commandExtension_of_unseen (noBrace : cursor.sees "\x7b" = false)
    (noFirst : ∀ context, startsArgument context cursor.isSpaced cursor.rest = false)
    (noPair : startsUnnamedPair cursor.isSpaced cursor.rest = false) :
    commandExtension tree setting cursor = .ok (none, cursor) := by
  unfold commandExtension
  cases tree.calleeParts? with
  | none => rfl
  | some parts =>
    simp only [bind_apply, context_apply, get_apply, ite_apply, pure_apply, noBrace, noFirst,
      noPair, Bool.and_false, Bool.or_false, Bool.false_eq_true, if_false, ite_self]

theorem blockExtension_of_unseen (noBrace : cursor.sees "\x7b" = false)
    (noWord : cursor.seesWord "do" = false) :
    blockExtension tree setting cursor = .ok (none, cursor) := by
  unfold blockExtension indexedBlock
  cases tree.blocklessParts? <;>
    simp only [bind_apply, context_apply, ite_apply, pure_apply, sees_apply, seesWord_apply,
      noBrace, noWord, Bool.false_and, Bool.false_eq_true, if_false, ite_self]

/-- No part follows without a gap where a character ends the expression. -/
theorem tightExtension_of_ends (ends : ∀ c ∈ cursor.rest.head?, endsExpression c = true) :
    tightExtension tree setting cursor = .ok (none, cursor) :=
  tightExtension_of_unseen tree (cursor.sees_of_ends ends "::" rfl rfl)
    (cursor.sees_of_ends ends "[" rfl rfl) (cursor.sees_of_ends ends "(" rfl rfl)

end Unseen

end Reader

/-! ### At the sign that ends an expression -/

namespace Reader

section AtEnd

variable {setting : Setting} {stop : Cursor} (halts : Halts setting.context.listed stop.rest)

include halts

/-- A sign that ends no expression is not there. -/
theorem sees_of_halts (sign : String) {first : Char} {more : List Char}
    (same : sign.toList = first :: more) (other : endsExpression first = false) :
    stop.sees sign = false :=
  stop.sees_of_ends halts.head sign same other

theorem commandExtension_of_halts (tree : Tree) :
    commandExtension tree setting stop = .ok (none, stop) := by
  have noBrace := sees_of_halts halts "\x7b" rfl rfl
  exact commandExtension_of_unseen tree noBrace
    (fun context => startsArgument_of_halts halts context stop.isSpaced)
    (startsUnnamedPair_of_halts halts stop.isSpaced)

theorem blockExtension_of_halts (tree : Tree) :
    blockExtension tree setting stop = .ok (none, stop) := by
  have noBrace := sees_of_halts halts "\x7b" rfl rfl
  have noWord := stop.seesWord_of_ends halts.head "do" (by decide)
  exact blockExtension_of_unseen tree noBrace noWord

theorem callSignLength_of_halts : callSignLength false setting stop = .ok (0, stop) := by
  have noSafe := sees_of_halts halts "&." rfl rfl
  have noDot := sees_of_halts halts "." rfl rfl
  unfold callSignLength
  simp only [bind_apply, get_apply, ite_apply, pure_apply, noSafe, noDot, Bool.false_and,
    Bool.false_eq_true, if_false]

theorem seesStrayAmpersand_of_halts (tree : Tree) (before : Cursor) :
    seesStrayAmpersand tree before setting stop = .ok (false, stop) :=
  seesStrayAmpersand_of_unseen tree before (sees_of_halts halts "&" rfl rfl)

theorem joiningLength_of_halts : joiningLength setting stop = .ok (0, stop) := by
  have noAnd := stop.seesStem_of_ends halts.head "and" (by decide)
  have noOr := stop.seesStem_of_ends halts.head "or" (by decide)
  unfold joiningLength
  simp only [bind_apply, context_apply, get_apply, ite_apply, pure_apply, noAnd, noOr,
    Bool.false_and, Bool.false_eq_true, if_false]

end AtEnd

/-! ### Nothing goes on -/

section Behind

variable {setting : Setting} {cursor : Cursor}
  (quiet : Quiet setting.context cursor.rest)

include quiet

/-- No part follows a primary without a gap. -/
theorem tightExtension_quiet (tree : Tree) :
    tightExtension tree setting cursor = .ok (none, cursor) :=
  tightExtension_of_ends tree quiet.head

variable (free : cursor.heredocs = []) (enough : cursor.rest.length < setting.bound)

include free enough

/-- The reader looks ahead to the sign that ends an expression. -/
theorem skipSpace_quiet :
    ∃ stop, skipSpace setting cursor = .ok ((), stop) ∧ Halts setting.context.listed stop.rest := by
  obtain ⟨next, stop, moved, reaches, halts⟩ := skipSpace_ok setting quiet rfl rfl free enough
  exact ⟨stop, moved, reaches.1 ▸ halts⟩

/-- **Nothing makes a primary larger.** -/
theorem extension_quiet (operand : Operand) :
    extension operand setting cursor = .ok (none, cursor) := by
  obtain ⟨stop, moved, halts⟩ := skipSpace_quiet quiet free enough
  have noBracket := sees_of_halts halts "[" rfl rfl
  unfold extension
  simp only [bind_apply, ite_apply, pure_apply, tightExtension_quiet quiet, get_apply,
    attempt_apply, moved, seesStrayAmpersand_of_halts halts, commandExtension_of_halts halts,
    blockExtension_of_halts halts, callSignLength_of_halts halts, sees_apply, noBracket,
    Bool.false_and, Bool.false_eq_true, if_false, if_true, ite_self]

/-- Nothing is assigned to a primary. -/
theorem assignmentTail_quiet (tree : Tree) :
    assignmentTail tree setting cursor = .ok (none, cursor) := by
  obtain ⟨stop, moved, halts⟩ := skipSpace_quiet quiet free enough
  have noComma : (!setting.context.listed && stop.sees ",") = false := by
    cases listed : setting.context.listed with
    | true => rfl
    | false =>
      rw [listed] at halts
      rw [Cursor.sees]
      generalize stop.rest = text at halts ⊢
      cases halts with
      | comma separates => cases separates
      | _ => rfl
  unfold assignmentTail
  simp only [bind_apply, attempt_apply, moved, context_apply, get_apply, ite_apply, noComma,
    startsAssignment_of_halts halts, assigningLength?_of_halts halts, pure_apply,
    Bool.false_eq_true, if_false]

/-- No operator follows an expression. -/
theorem operatorTail_quiet (level : Nat) (tree : Tree) :
    operatorTail level tree setting cursor = .ok (none, cursor) := by
  obtain ⟨stop, moved, halts⟩ := skipSpace_quiet quiet free enough
  have noOperator := binaryOperator?_of_halts halts setting.context.barred
  have noWord := joiningLength_of_halts halts
  unfold operatorTail
  simp only [bind_apply, attempt_apply, moved, context_apply, get_apply, position_apply]
  generalize stop.rest = text at halts noOperator
  cases halts <;> simp [noOperator, noWord]

/-- No pattern follows an expression. -/
theorem matched_of_operand {start : Cursor} {level : Nat} {value : Operand}
    (read : operand level setting start = .ok (value, cursor)) :
    matched level setting start = .ok (value, cursor) := by
  obtain ⟨stop, moved, halts⟩ := skipSpace_quiet quiet free enough
  have noArrow := sees_of_halts halts "=>" rfl rfl
  have noWord := stop.seesWord_of_ends halts.head "in" (by decide)
  unfold matched
  simp only [bind_apply, read, context_apply, ite_apply, pure_apply, attempt_apply, moved,
    sees_apply, seesWord_apply, noArrow, noWord, Bool.false_and, Bool.false_eq_true, if_false,
    Option.getD_none, ite_self]

/-- No word joins an expression to another. -/
theorem expression_of_matched {start : Cursor} {value : Operand}
    (read : setting.descent (.matched (joiningLevel + 1)) setting.context start =
      .ok (value, cursor)) :
    expression setting start = .ok (value, cursor) := by
  obtain ⟨stop, moved, halts⟩ := skipSpace_quiet quiet free enough
  obtain ⟨bound, more⟩ := Nat.exists_eq_succ_of_ne_zero (Nat.ne_zero_of_lt enough)
  unfold expression extend
  simp only [bind_apply, descend_apply, read, bound_apply, more, extendUpTo, attempt_apply, moved,
    joiningLength_of_halts halts, ite_apply, pure_apply, if_true]

/-- No word modifies a statement. -/
theorem modifier_quiet (statement : Tree) :
    modifier statement setting cursor = .ok (none, cursor) := by
  obtain ⟨stop, moved, halts⟩ := skipSpace_quiet quiet free enough
  have noWord (word : String) (some : word.toList ≠ []) : stop.seesStem word = false :=
    stop.seesStem_of_ends halts.head word some
  have none (sees : String × Kind → Bool) (each : ∀ entry, sees entry = stop.seesStem entry.1) :
      modifiers.find? sees = none := by
    have words : ∀ entry ∈ modifiers, entry.1.toList ≠ [] := by decide
    refine List.find?_eq_none.mpr fun entry member => ?_
    rw [each, noWord entry.1 (words entry member)]
    exact Bool.false_ne_true
  unfold modifier
  simp only [bind_apply, attempt_apply, moved, get_apply]
  rw [none]
  · rfl
  · exact fun _ => rfl

/-- **A primary is all of an expression of operators.** -/
theorem operand_of_head {start : Cursor} {level : Nat} {head : Operand}
    (read : operandHead setting start = .ok (head, cursor)) :
    operand level setting start = .ok (head, cursor) := by
  obtain ⟨bound, more⟩ := Nat.exists_eq_succ_of_ne_zero (Nat.ne_zero_of_lt enough)
  obtain ⟨tree, isCommand⟩ := head
  unfold operand extend
  cases isCommand with
  | true => simp only [bind_apply, read, ite_apply, pure_apply, if_true]
  | false =>
    cases tree.isAssignable <;>
      simp only [bind_apply, read, ite_apply, pure_apply, assignmentTail_quiet quiet free enough,
        Option.getD_none, bound_apply, more, extendUpTo, operatorTail_quiet quiet free enough,
        Bool.false_eq_true, ite_self]

/-- The steps that make a primary larger come to an end. -/
theorem extendUpTo_quiet {bound : Nat} (operand : Operand) :
    extendUpTo extension bound operand setting cursor = .ok (operand, cursor) := by
  cases bound with
  | zero => rfl
  | succ bound =>
    simp only [extendUpTo, bind_apply, extension_quiet quiet free enough, pure_apply]

end Behind

/-! ### Nested constructs -/

/-- What a reader is asked for in a context, where nested constructs are read up to a depth. -/
def settingAt (context : Context) (bound depth : Nat) : Setting :=
  ⟨descent bound none depth, bound, context, none⟩

/-- A nested construct is read by its rule. -/
theorem descent_of_rule (goal : Goal) {bound depth : Nat} {context : Context}
    {start after : Cursor} {value : goal.Result}
    (read : rule goal (settingAt context bound depth) start = .ok (value, after)) :
    descent bound none (depth + 1) goal context start =
      .ok (value, after.complete start.offset) := by
  rw [settingAt] at read
  rw [descent, read]

section Nested

variable {bound depth : Nat} {context : Context} {start after : Cursor} {text : List Char}
  {value : Operand} (takes : start.Takes text after) (quiet : Quiet context after.rest)
  (enough : after.rest.length < bound)
  (head : operandHead (settingAt context bound depth) start = .ok (value, after))

include takes quiet enough head

/-- **A primary is all of an expression without words that join others to it.** -/
theorem descent_matched_ok (level : Nat) :
    ∃ last, descent bound none (depth + 1) (.matched level) context start = .ok (value, last) ∧
      start.Takes text last ∧ last.rest = after.rest := by
  have free := takes.stillFree
  have whole : matched level (settingAt context bound depth) start = .ok (value, after) :=
    matched_of_operand quiet free enough (operand_of_head quiet free enough head)
  obtain ⟨done, left⟩ := takes.complete start.offset
  exact ⟨_, descent_of_rule (.matched level) whole, done, left⟩

/-- **A primary is all of an expression.** -/
theorem descent_expression_ok :
    ∃ last, descent bound none (depth + 2) .expression context start = .ok (value, last) ∧
      start.Takes text last ∧ last.rest = after.rest := by
  obtain ⟨middle, read, taken, left⟩ :=
    descent_matched_ok takes quiet enough head (joiningLevel + 1)
  have whole : expression (settingAt context bound (depth + 1)) start = .ok (value, middle) :=
    expression_of_matched (left ▸ quiet) taken.stillFree (left ▸ enough) read
  obtain ⟨done, leftOver⟩ := taken.complete start.offset
  exact ⟨_, descent_of_rule .expression whole, done, leftOver.trans left⟩

end Nested

end Reader

end RecipeLint.Ruby
