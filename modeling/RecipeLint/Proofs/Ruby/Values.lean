/-
**Arguments that are values.**

A value is an operand that is read the same wherever it stands. It can be an argument of its own, or
stand behind a key, with parentheses around the arguments or without.

* `Value` — an operand that is read the same wherever it stands.
* `Value.quotable` — a string in single quotes.
* `Argument.value` — a value as an argument.
* `Argument.quotable`, `Argument.quoted` — a string in single quotes, with escapes and without.
* `Reader.keyedPair_ok` — a key and a value are read as a pair.
* `Argument.keyed` — such a pair as an argument.
-/

import RecipeLint.Proofs.Ruby.Literals

namespace RecipeLint.Ruby

/-! ### Values -/

/-- **A value that is read the same wherever it stands**, before anything that does not go on with
it. It starts with no sign that makes an argument of its own kind, and with no key. -/
structure Value where
  /-- How it is written. -/
  text : List Char
  /-- The concrete tree of the text alone. -/
  tree : Tree
  starts : text.head?.any (fun c => startsListed c && !Reader.pairSigns.contains c) = true
  within : tree.Within text
  noComment : tree.is .comment = false
  covers (names : List String) (parent : Kind) :
    (tree.lower text names parent).node.span = ⟨0, Text.size text⟩
  noKey {rest : List Char} (ends : ∀ c ∈ rest.head?, endsExpression c = true) :
    argumentKeyOf (text ++ rest) = none
  reads (context : Context) (bound depth : Nat) {cursor : Cursor} {rest : List Char}
    (here : cursor.rest = text ++ rest) (free : cursor.heredocs = [])
    (quiet : Quiet context rest) (enough : cursor.rest.length < bound)
    (deep : nestingPerCharacter * text.length ≤ depth + 2) :
    ∃ after, Reader.operandHead (Reader.settingAt context bound depth) cursor =
      .ok (⟨tree.shift cursor.offset, false⟩, after) ∧ cursor.Takes text after

namespace Value

theorem text_eq_cons (value : Value) :
    ∃ c more, value.text = c :: more ∧ startsListed c = true ∧
      Reader.pairSigns.contains c = false := by
  have starts := value.starts
  cases same : value.text with
  | nil =>
    rw [same] at starts
    cases starts
  | cons c more =>
    rw [same] at starts
    obtain ⟨listed, noSign⟩ := Bool.and_eq_true_iff.mp starts
    exact ⟨c, more, rfl, listed, (Bool.not_eq_true' _).mp noSign⟩

/-- A value leaves room for what it is nested in. -/
theorem two_le_of_deep (value : Value) {depth : Nat}
    (deep : nestingPerCharacter * value.text.length ≤ depth) : 2 ≤ depth := by
  obtain ⟨c, more, same, -⟩ := value.text_eq_cons
  rw [same, List.length_cons, Nat.mul_add] at deep
  simp only [nestingPerCharacter] at deep
  omega

end Value

/-- **A string in single quotes as a value**, with escapes or without. -/
def Value.quotable (body : List Char) (quotable : isQuotable body = true) : Value where
  text := quotedText body
  tree := quotedTree body
  starts := rfl
  within := quotedTree_within
  noComment := rfl
  covers names parent := by
    unfold quotedTree
    split <;> rfl
  noKey _ := rfl
  reads _ _ _ _ _ here free quiet enough _ :=
    Reader.operandHead_quotable quotable here free quiet enough

/-- **A value as an argument.** -/
def Argument.value (context : Context) {read : Reader Tree} (reads : ReadsArgument read)
    (value : Value) : Argument context read where
  text := value.text
  tree := value.tree
  starts := by
    obtain ⟨c, more, same, listed, -⟩ := value.text_eq_cons
    rw [same]
    exact listed
  within := value.within
  noComment := value.noComment
  covers names := value.covers names .argumentList
  reads bound depth cursor rest here free quiet enough deep := by
    obtain ⟨c, more, same, -, noSign⟩ := value.text_eq_cons
    have noKey : argumentKeyOf cursor.rest = none := here ▸ value.noKey quiet.head
    have head (inner : Nat) (below : depth ≤ inner + 2) :=
      value.reads context bound inner here free quiet enough (Nat.le_trans deep below)
    have room := value.two_le_of_deep deep
    rw [same] at here head ⊢
    exact Reader.argument_of_head reads here noKey noSign head quiet enough room

/-- **A string in single quotes as an argument**, with escapes or without. -/
def Argument.quotable (context : Context) {read : Reader Tree} (reads : ReadsArgument read)
    (body : List Char) (quotable : isQuotable body = true) : Argument context read :=
  .value context reads (.quotable body quotable)

/-- **A string in single quotes as an argument**, without escapes. -/
def Argument.quoted (context : Context) {read : Reader Tree} (reads : ReadsArgument read)
    (body : List Char) (plain : body.all isPlainQuoted = true) : Argument context read :=
  .quotable context reads body (isQuotable_of_plain plain)

/-! ### Keys -/

/-- A word is no key without a colon behind it, with its mark or without. -/
theorem argumentKeyOf_eq_none {text : List Char}
    (noMark : (text.drop (wordOf text).length).head? ≠ some ':')
    (noColon : (text.drop (nameOf text).length).head? ≠ some ':') : argumentKeyOf text = none := by
  have none : keyOf text = none := by
    unfold keyOf
    refine ite_eq_left_iff.mpr fun _ => (if_neg ?_).trans (if_neg ?_)
    · simp only
      split
      next => decide
      next same => exact absurd (congrArg List.head? same) noMark
      next => decide
    · simp only
      split
      next => decide
      next same => exact absurd (congrArg List.head? same) noColon
      next => decide
  rw [argumentKeyOf, none]
  rfl

/-- A name is no key without a colon behind it. -/
theorem MethodName.argumentKeyOf_append {name : MethodName} {rest : List Char}
    (ends : EndsName rest) (noColon : rest.head? ≠ some ':') :
    argumentKeyOf (name.text ++ rest) = none := by
  refine argumentKeyOf_eq_none ?_ ?_
  · rw [name.wordOf_append ends, text, List.append_assoc, List.drop_left]
    cases marked : name.mark with
    | none => exact noColon
    | some c =>
      rintro ⟨⟩
      rcases name.marks ':' marked with same | same <;> cases same
  · rw [name.nameOf_append ends, List.drop_left]
    exact noColon

/-! ### Values behind a key -/

/-- How a value behind a key is written. -/
def keyedText (key : MethodName) (value : List Char) : List Char :=
  key.text ++ (": ".toList ++ value)

/-- The concrete tree of a value behind a key. -/
def keyedTree (key : MethodName) (value : List Char) (tree : Tree) : Tree :=
  .of .pair ⟨0, Text.size (keyedText key value)⟩
    [.leaf .hashKeySymbol ⟨0, Text.size key.text⟩, tree.shift (Text.size key.text + 2)]

section Keyed

variable {key : MethodName} (unmarked : key.mark = none)

include unmarked

/-- A name without a mark and a colon behind it are a key. -/
theorem argumentKeyOf_keyed (value rest : List Char) :
    argumentKeyOf (keyedText key value ++ rest) = some key.text := by
  have ends : EndsName (": ".toList ++ (value ++ rest)) := by
    rintro c ⟨⟩
    decide
  have word : key.word = key.text := by
    rw [MethodName.text, unmarked, Option.toList_none, List.append_nil]
  have long : key.text.isEmpty = false := by
    obtain ⟨c, more, same, -⟩ := key.text_eq_cons
    rw [same]
    rfl
  have plain : key.text.all isPlainWordPart = true := word ▸ key.plain
  have found : keyOf (key.text ++ (": ".toList ++ (value ++ rest))) = some key.text := by
    unfold keyOf
    simp only [key.wordOf_append ends, key.nameOf_append ends, word, long, List.drop_left,
      Bool.false_eq_true, if_false]
    rfl
  rw [argumentKeyOf, keyedText, List.append_assoc, List.append_assoc, found, Option.filter_some,
    plain]
  rfl

end Keyed

namespace Reader

section Pairs

variable {context : Context} {bound depth : Nat} {cursor : Cursor} {text rest : List Char}
  {value : Operand}

/-- **An operand is a value** where a comma separates values. -/
theorem plainValue_of_head (depth : Nat) (here : cursor.rest = text ++ rest)
    (quiet : Quiet context rest)
    (enough : cursor.rest.length < bound)
    (head : ∃ after, operandHead (settingAt context.element bound depth) cursor =
      .ok (value, after) ∧ cursor.Takes text after) :
    ∃ last, plainValue (settingAt context bound (depth + 1)) cursor = .ok (value.tree, last) ∧
      cursor.Takes text last := by
  obtain ⟨after, read, takes⟩ := head
  have listed : Quiet (settingAt context.element bound depth).context after.rest :=
    takes.rest_eq here ▸ quiet.mono rfl fun _ => rfl
  have whole : operand 0 (settingAt context.element bound depth) cursor = .ok (value, after) :=
    operand_of_head listed takes.stillFree
      (Nat.lt_of_le_of_lt takes.toPasses.length_le enough) read
  obtain ⟨done, -⟩ := takes.complete cursor.offset
  have nested : descent bound none (depth + 1) (.operand 0) context.element cursor =
    .ok (value, after.complete cursor.offset) := descent_of_rule (.operand 0) whole
  refine ⟨_, ?_, done⟩
  unfold plainValue
  simp only [bind_apply, within_apply, descend_apply]
  simp only [settingAt, nested, pure_apply]

variable {key : MethodName} {tree : Tree}

/-- The key and the colon are read, and the gap up to the value. -/
theorem behindKey_ok (depth : Nat) {c : Char} {more : List Char} (listed : startsListed c = true)
    (here : cursor.rest = keyedText key (c :: more) ++ rest) (free : cursor.heredocs = [])
    (enough : cursor.rest.length < bound) :
    ∃ start, skipLines (settingAt context bound depth) ((cursor.eat key.text.length).eat 1) =
        .ok ((), start) ∧
      start.rest = c :: more ++ rest ∧ cursor.Takes key.text (cursor.eat key.text.length) ∧
      cursor.Passes (key.text ++ ": ".toList) start := by
  have parts : keyedText key (c :: more) ++ rest =
      key.text ++ ([':'] ++ (' ' :: (c :: more ++ rest))) := by
    rw [keyedText, List.append_assoc]
    rfl
  obtain ⟨named, left⟩ := Cursor.eat_takes (here.trans parts) free
  obtain ⟨coloned, behind⟩ := Cursor.eat_takes left named.stillFree
  have onward := named.toPasses.trans coloned.toPasses
  have spaced : ((cursor.eat key.text.length).eat [':'].length).rest =
      fillerText [.blank ' ' isGap_space] ++ c :: (more ++ rest) := behind
  obtain ⟨start, skipped, found, skips⟩ :=
    skipLines_fillers (settingAt context bound depth) spaced (stands_of_listed listed)
      (ne_of_listed listed rfl) (ne_of_listed listed rfl) coloned.stillFree
      (Nat.lt_of_le_of_lt onward.length_le enough)
  have whole := onward.trans skips.toPasses
  rw [List.append_assoc] at whole
  exact ⟨start, skipped, found, named, whole⟩

/-- **A key and a value are a pair**, if the value is an operand that can stand behind a sign. -/
theorem keyedPair_ok (unmarked : key.mark = none) (depth : Nat) {c : Char} {more : List Char}
    (listed : startsListed c = true)
    (opens : startsOperand context.plain (c :: more ++ rest) = true)
    (head : ∀ start : Cursor, start.rest = c :: more ++ rest → start.heredocs = [] →
      start.rest.length < bound → ∃ after, operandHead (settingAt context.element bound depth)
        start = .ok (⟨tree.shift start.offset, false⟩, after) ∧ start.Takes (c :: more) after)
    (here : cursor.rest = keyedText key (c :: more) ++ rest) (free : cursor.heredocs = [])
    (quiet : Quiet context rest) (enough : cursor.rest.length < bound) :
    ∃ after, keyedPair? argumentKeyOf (settingAt context bound (depth + 1)) cursor =
        .ok (some ((keyedTree key (c :: more) tree).shift cursor.offset), after) ∧
      cursor.Takes (keyedText key (c :: more)) after := by
  obtain ⟨start, skipped, there, named, onward⟩ :=
    @behindKey_ok context bound cursor rest key (depth + 1) c more listed here free enough
  have closer := Nat.lt_of_le_of_lt onward.length_le enough
  obtain ⟨after, read, takes⟩ := plainValue_of_head depth there quiet closer
    (head start there onward.stillFree closer)
  have whole : cursor.Takes (keyedText key (c :: more)) after := by
    have all := Cursor.Takes.trans onward takes
    rwa [List.append_assoc] at all
  refine ⟨after, ?_, whole⟩
  have starts : startsOperand context.plain start.rest = true := there ▸ opens
  have offset : start.offset = Text.size key.text + 2 + cursor.offset := by
    rw [onward.offset, Text.size_append, Nat.add_comm]
    rfl
  have pair : (keyedTree key (c :: more) tree).shift cursor.offset =
      .of .pair ⟨cursor.offset, after.last⟩
        [.leaf .hashKeySymbol ⟨cursor.offset, (cursor.eat key.text.length).last⟩,
          tree.shift start.offset] := by
    rw [offset, ← whole.span_shift, ← named.span_shift, ← Tree.shift_shift]
    rfl
  have inside : ending (Ending.settle start.offset) plainValue (settingAt context bound (depth + 1))
      start = .ok (tree.shift start.offset, after) := ending_of_ok read
  have symbol : (Tree.leaf .hashKeySymbol
      ⟨cursor.offset, (cursor.eat key.text.length).last⟩).is .hashKeySymbol = true := rfl
  have same : (settingAt context bound (depth + 1)).context = context := rfl
  unfold keyedPair? pairValue
  simp only [bind_apply, get_apply, here, argumentKeyOf_keyed unmarked, position_apply,
    leaf_apply, eat_apply, context_apply, ite_apply, pure_apply, spanFrom_apply, skipped, symbol,
    same, starts, inside, pair, Bool.or_true, if_true]

/-- What starts with a pair is read as an argument. -/
theorem argument_of_keyedPair {read : Reader Tree} (reads : ReadsArgument read) {pair : Tree}
    {after : Cursor}
    (found : keyedPair? argumentKeyOf (settingAt context bound (depth + 1)) cursor =
      .ok (some pair, after)) :
    read (settingAt context bound (depth + 1)) cursor = .ok (pair, after) := by
  cases reads <;>
    show argumentOf _ (settingAt context bound (depth + 1)) cursor = _ <;>
    simp only [argumentOf, bind_apply, found, pure_apply]

end Pairs

end Reader

theorem keyedTree_within (key : MethodName) {value : List Char} {tree : Tree}
    (within : tree.Within value) : (keyedTree key value tree).Within (keyedText key value) := by
  refine .node ⟨[], keyedText key value, [], (List.append_nil _).symm, rfl, Nat.zero_add _⟩ ?_
  have spelled : keyedText key value = (key.text ++ ": ".toList) ++ (value ++ []) := by
    rw [keyedText, List.append_nil, List.append_assoc]
  have width : Text.size (key.text ++ ": ".toList) = Text.size key.text + 2 :=
    Text.size_append _ _
  refine List.forall_mem_cons.mpr ⟨.node ⟨[], key.text, ": ".toList ++ value, rfl, rfl,
    Nat.zero_add _⟩ (List.forall_mem_nil _), List.forall_mem_singleton.mpr ?_⟩
  rw [spelled, ← width]
  exact within.shift

theorem startsListed_of_lower {c : Char} (small : c.isLower = true) : startsListed c = true := by
  rw [startsListed, not_isGap_of_lower small, not_contains_of_lower small (by decide)]
  rfl

/-- **A value behind a key as an argument.** -/
def Argument.keyed (context : Context) {read : Reader Tree} (reads : ReadsArgument read)
    (key : MethodName) (unmarked : key.mark = none) (value : Value)
    (opens : ∀ rest, (∀ c ∈ rest.head?, endsExpression c = true) →
      startsOperand context.plain (value.text ++ rest) = true) : Argument context read where
  text := keyedText key value.text
  tree := keyedTree key value.text value.tree
  starts := by
    obtain ⟨c, more, same, -, small⟩ := key.text_eq_cons
    rw [keyedText, same]
    exact startsListed_of_lower small
  within := keyedTree_within key value.within
  noComment := rfl
  covers _ := rfl
  reads bound depth cursor rest here free quiet enough deep := by
    obtain ⟨c, more, same, listed, -⟩ := value.text_eq_cons
    have shorter : value.text.length + 1 ≤ (keyedText key value.text).length := by
      obtain ⟨first, others, letters, -⟩ := key.text_eq_cons
      simp only [keyedText, letters, List.length_append, List.length_cons]
      omega
    have room := Nat.mul_le_mul_left nestingPerCharacter shorter
    obtain ⟨depth, rfl⟩ : ∃ less, depth = less + 1 := Nat.exists_eq_add_of_le' (by
      simp only [nestingPerCharacter] at room deep
      omega)
    have opens' := opens rest quiet.head
    have head (start : Cursor) (there : start.rest = value.text ++ rest)
        (free : start.heredocs = []) (enough : start.rest.length < bound) :=
      value.reads context.element bound depth there free (quiet.mono rfl fun _ => rfl) enough (by
        simp only [nestingPerCharacter] at room deep ⊢
        omega)
    rw [same] at here opens' head ⊢
    obtain ⟨after, found, takes⟩ :=
      Reader.keyedPair_ok unmarked depth listed opens' head here free quiet enough
    exact ⟨after, Reader.argument_of_keyedPair reads found, takes⟩

end RecipeLint.Ruby
