/-
**Options and blocks as arguments.**

An option that is off, such as `default_env: false`, and a block that is passed on by its name are
arguments wherever they stand in a list, with parentheses or without.

* `Reader.operandHead_false`, `Reader.operandHead_plainName` — values that are words.
* `Argument.off` — an option that is off.
* `Argument.block` — a block that is passed on.
-/

import RecipeLint.Proofs.Ruby.Values

namespace RecipeLint.Ruby

/-! ### Values -/

/-- The word `false` ends where its characters end. -/
theorem nameOf_false {rest : List Char} (ends : EndsName rest) :
    nameOf ("false".toList ++ rest) = "false".toList :=
  nameOf_of_plain (by decide) (by decide) ends

namespace Reader

section Values

variable {setting : Setting} {context : Context} {cursor : Cursor} {rest : List Char}

theorem ofList_nameOf_false (here : cursor.rest = "false".toList ++ rest) (ends : EndsName rest) :
    String.ofList (nameOf cursor.rest) = "false" := by
  rw [here, nameOf_false ends, String.ofList_toList]

/-- **A primary that starts with the word `false` starts with the value.** -/
theorem atom_false (here : cursor.rest = "false".toList ++ rest) (ends : EndsName rest)
    (free : cursor.heredocs = []) :
    ∃ after, atom setting cursor =
        .ok (⟨(Tree.leaf .falseLiteral ⟨0, 5⟩).shift cursor.offset, false⟩, after) ∧
      cursor.Takes "false".toList after := by
  obtain ⟨takes, -⟩ := Cursor.eat_takes here free
  refine ⟨cursor.eat 5, ?_, takes⟩
  have named := ofList_nameOf_false here ends
  have first : cursor.rest.head? = some 'f' := by
    rw [here]
    rfl
  have isWord : (some 'f').any isWordStart = true := rfl
  have tree : (Tree.leaf .falseLiteral ⟨0, 5⟩).shift cursor.offset =
      .leaf .falseLiteral ⟨cursor.offset, (cursor.eat 5).last⟩ :=
    congrArg (Tree.leaf .falseLiteral) takes.span_shift
  have word : wordTree setting cursor =
      .ok (.leaf .falseLiteral ⟨cursor.offset, (cursor.eat 5).last⟩, cursor.eat 5) := by
    unfold wordTree
    simp only [bind_apply, get_apply, named]
    exact leaf_apply _ _
  unfold atom wordAtom
  simp only [bind_apply, peek_apply, get_apply, first, isWord, named, ite_apply, if_true]
  show (do return { tree := ← wordTree } : Reader Operand) setting cursor = _
  simp only [bind_apply, word, pure_apply, tree]

/-- **The word `false` is an operand.** -/
theorem operandHead_false (here : cursor.rest = "false".toList ++ rest)
    (free : cursor.heredocs = []) (quiet : Quiet setting.context rest)
    (enough : cursor.rest.length < setting.bound) :
    ∃ after, operandHead setting cursor =
        .ok (⟨(Tree.leaf .falseLiteral ⟨0, 5⟩).shift cursor.offset, false⟩, after) ∧
      cursor.Takes "false".toList after := by
  have ends := endsName_of_ends quiet.head
  obtain ⟨after, start, takes⟩ := atom_false here ends free
  refine ⟨after, ?_, takes⟩
  have whole := primary_of_atom start (takes.rest_eq here ▸ quiet) takes.stillFree
    (Nat.lt_of_le_of_lt takes.toPasses.length_le enough)
  have noWord (word : String) (other : "false" ≠ word) : cursor.seesWord word = false := by
    refine beq_false_of_ne fun same => other ?_
    rw [← ofList_nameOf_false here ends, same, String.ofList_toList]
  unfold operandHead
  simp only [bind_apply, get_apply, noWord "not" (by decide), noWord "defined?" (by decide),
    Bool.false_eq_true, if_false]
  rw [← whole]
  have spelled : cursor.rest = 'f' :: ("alse".toList ++ rest) := here
  generalize cursor.rest = chars at spelled ⊢
  subst spelled
  rfl

/-- The word `false` can be the operand of a sign. -/
theorem startsOperand_false (ends : EndsName rest) :
    startsOperand context.plain ("false".toList ++ rest) = true := by
  have word := nameOf_false ends
  have spelled : "false".toList ++ rest = 'f' :: ("alse".toList ++ rest) := rfl
  have isWord : isWordStart 'f' = true := rfl
  have opens : openingWords.contains (String.ofList "false".toList) = true := by decide
  rw [spelled] at word ⊢
  unfold startsOperand startsValue
  simp only [word, isWord, opens, if_true, Bool.true_or]
  rfl

end Values

end Reader

/-- **The word `false` as a value.** -/
def Value.off : Value where
  text := "false".toList
  tree := .leaf .falseLiteral ⟨0, 5⟩
  starts := rfl
  within := .node ⟨[], "false".toList, [], rfl, rfl, rfl⟩ (List.forall_mem_nil _)
  noComment := rfl
  covers _ _ := rfl
  noKey {rest} ends := by
    have word : wordOf ("false".toList ++ rest) = "false".toList :=
      wordOf_of_plain (by decide) (by decide) fun c first => not_isWordPart_of_ends (ends c first)
    have noColon : rest.head? ≠ some ':' := fun colon => nomatch ends ':' colon
    refine argumentKeyOf_eq_none ?_ ?_
    · rw [word]
      exact noColon
    · rw [nameOf_false (endsName_of_ends ends)]
      exact noColon
  reads _ _ _ _ _ here free quiet enough _ := Reader.operandHead_false here free quiet enough

/-! ### Options that are off -/

/-- How an option that is off is written. -/
def offText (name : MethodName) : List Char :=
  keyedText name "false".toList

/-- **An option that is off as an argument.** -/
def Argument.off (context : Context) {read : Reader Tree} (reads : ReadsArgument read)
    (name : MethodName) (unmarked : name.mark = none) : Argument context read :=
  .keyed context reads name unmarked .off fun _ ends =>
    Reader.startsOperand_false (endsName_of_ends ends)

/-! ### Blocks that are passed on -/

/-- How a block that is passed on is written. -/
def blockText (name : MethodName) : List Char :=
  '&' :: name.text

/-- The concrete tree of a block that is passed on. -/
def blockTree (name : MethodName) : Tree :=
  .of .blockArgument ⟨0, Text.size (blockText name)⟩ [name.tree.shift 1]

namespace Reader

section Blocks

variable {context : Context} {bound depth : Nat} {cursor : Cursor} {name : MethodName}
  {rest : List Char}

/-- **A name is an operand.** -/
theorem operandHead_plainName (setting : Setting) (unreserved : setting.reserved = none)
    (here : cursor.rest = name.text ++ rest) (free : cursor.heredocs = [])
    (quiet : Quiet setting.context rest) (enough : cursor.rest.length < setting.bound) :
    ∃ after, operandHead setting cursor = .ok (⟨name.tree.shift cursor.offset, false⟩, after) ∧
      cursor.Takes name.text after := by
  have ends := endsName_of_ends quiet.head
  obtain ⟨after, read, takes⟩ := atom_name here ends free unreserved
  refine ⟨after, ?_, takes⟩
  rw [operandHead_name here ends]
  exact primary_of_atom read (takes.rest_eq here ▸ quiet) takes.stillFree
    (Nat.lt_of_le_of_lt takes.toPasses.length_le enough)

/-- A name can be the operand of a sign, if it is no word that goes on with what stands before. -/
theorem startsOperand_name (ends : EndsName rest)
    (alone : context.plain.hasFollower (String.ofList name.text) = false) :
    startsOperand context.plain (name.text ++ rest) = true := by
  have named := name.nameOf_append ends
  obtain ⟨c, more, same, starts, small⟩ := name.text_eq_cons
  have first : name.text ++ rest = c :: (more ++ rest) := congrArg (· ++ rest) same
  rw [first] at named ⊢
  have value : startsValue true
      (fun word => openingWords.contains word || !context.plain.hasFollower word)
      (c :: (more ++ rest)) = true := by
    unfold startsValue
    simp only [starts, named, alone, if_true, Bool.not_false, Bool.or_true]
  unfold startsOperand
  generalize given : c :: (more ++ rest) = text at value ⊢
  split
  case h_11 => exact value
  all_goals exact absurd (List.cons.inj given).1 (ne_of_lower small rfl)

/-- A sign before a name is read with the name. -/
theorem signed_block (depth : Nat)
    (alone : context.plain.hasFollower (String.ofList name.text) = false)
    (here : cursor.rest = blockText name ++ rest) (free : cursor.heredocs = [])
    (quiet : Quiet context rest) (enough : cursor.rest.length < bound) :
    ∃ after, signed .blockArgument 1 (settingAt context bound (depth + 1)) cursor =
        .ok ((blockTree name).shift cursor.offset, after) ∧
      cursor.Takes (blockText name) after := by
  obtain ⟨c, more, same, starts, small⟩ := name.text_eq_cons
  have sign : cursor.rest = ['&'] ++ (name.text ++ rest) := here
  obtain ⟨signed', left⟩ := Cursor.eat_takes sign free
  have shorter := Nat.lt_of_le_of_lt signed'.toPasses.length_le enough
  have letter : (cursor.eat ['&'].length).rest = c :: (more ++ rest) := by
    rw [left, same]
    rfl
  obtain ⟨stands, token, noBlock, -⟩ := stands_of_wordStart (more ++ rest) starts
  obtain ⟨stop, moved, found, skips⟩ := skipSpace_stays (settingAt context bound (depth + 1)) letter
    stands token noBlock signed'.stillFree shorter
  have there : stop.rest = name.text ++ rest := found.trans (letter.symm.trans left)
  have closer := Nat.lt_of_le_of_lt skips.toPasses.length_le shorter
  obtain ⟨after, value, takes⟩ := plainValue_of_head depth there quiet closer
    (operandHead_plainName (settingAt context.element bound depth) rfl there
      skips.stillFree (quiet.mono rfl fun _ => rfl) closer)
  have onward : (cursor.eat ['&'].length).Takes ([] ++ name.text) after :=
    .trans skips.toPasses takes
  have whole : cursor.Takes (blockText name) after := .trans signed'.toPasses onward
  refine ⟨after, ?_, whole⟩
  have opens : startsOperand context.plain stop.rest = true :=
    there ▸ startsOperand_name (endsName_of_ends quiet.head) alone
  have some : stop.rest.isEmpty = false := by
    rw [found]
    rfl
  have offset : stop.offset = 1 + cursor.offset := by
    rw [skips.offset, signed'.offset]
    show cursor.offset + 1 + 0 = _
    omega
  have tree : (blockTree name).shift cursor.offset =
      .of .blockArgument ⟨cursor.offset, after.last⟩ [name.tree.shift stop.offset] := by
    rw [offset, ← whole.span_shift, ← Tree.shift_shift]
    rfl
  have moved' : skipSpace (settingAt context bound (depth + 1)) (cursor.eat 1) =
    .ok ((), stop) := moved
  have same : (settingAt context bound (depth + 1)).context = context := rfl
  unfold signed signedBy
  simp only [bind_apply, position_apply, eat_apply, get_apply, context_apply, moved', some, same,
    opens, value, spanFrom_apply, ite_apply, pure_apply, tree, Bool.and_false, Bool.false_and,
    Bool.false_eq_true, if_false, if_true]

/-- What starts with the sign of a block and a letter is read with its sign. -/
theorem argumentOf_of_signed {setting : Setting} {after : Cursor} {c : Char} {tree : Tree}
    (here : cursor.rest = '&' :: c :: rest) (small : c.isLower = true)
    (read : signed .blockArgument 1 setting cursor = .ok (tree, after)) (plain : Reader Operand) :
    argumentOf plain setting cursor = .ok (tree, after) := by
  have noKey : argumentKeyOf cursor.rest = none := by
    rw [here]
    rfl
  have noPair : startsUnnamedPair cursor.isSpaced cursor.rest = false := by
    rw [here]
    rfl
  have noStars : cursor.sees "**" = false := by
    rw [Cursor.sees, here]
    rfl
  have noStar : cursor.sees "*" = false := sees_of_cons here '*' rfl
  have ampersand : cursor.sees "&" = true := sees_of_cons here '&' rfl
  have isArgument : startsArgument setting.context true cursor.rest = true := by
    have other {sign : Char} (large : sign.isLower = false) : (c != sign) = true :=
      bne_iff_ne.mpr (ne_of_lower small large)
    rw [here]
    show (c != '&' && c != '.' && c != '=' &&
      (!isGap c && c != '\x0b' && c != '\x0c')) = true
    rw [other rfl, other rfl, other rfl, other rfl, other rfl, not_isGap_of_lower small]
    rfl
  unfold argumentOf keyedPair? unnamedPair?
  simp only [bind_apply, get_apply, noKey, pure_apply, noPair, ite_apply, sees_apply, noStars,
    noStar, ampersand, context_apply, isArgument, read, Bool.false_eq_true, if_false, if_true]

/-- **A block that is passed on is read as an argument.** -/
theorem argument_block {read : Reader Tree} (reads : ReadsArgument read)
    (alone : context.plain.hasFollower (String.ofList name.text) = false)
    (here : cursor.rest = blockText name ++ rest) (free : cursor.heredocs = [])
    (quiet : Quiet context rest) (enough : cursor.rest.length < bound) (deep : 1 ≤ depth) :
    ∃ after, read (settingAt context bound depth) cursor =
        .ok ((blockTree name).shift cursor.offset, after) ∧
      cursor.Takes (blockText name) after := by
  obtain ⟨depth, rfl⟩ := Nat.exists_eq_add_of_le' deep
  obtain ⟨after, block, takes⟩ := signed_block depth alone here free quiet enough
  obtain ⟨c, more, same, -, small⟩ := name.text_eq_cons
  have first : cursor.rest = '&' :: c :: (more ++ rest) := by
    rw [here, blockText, same]
    rfl
  refine ⟨after, ?_, takes⟩
  cases reads with
  | enclosed => exact argumentOf_of_signed first small block _
  | command => exact argumentOf_of_signed first small block _

end Blocks

end Reader

theorem blockTree_within (name : MethodName) : (blockTree name).Within (blockText name) := by
  refine .node ⟨[], blockText name, [], (List.append_nil _).symm, rfl, Nat.zero_add _⟩ ?_
  have moved : (name.tree.shift (Text.size ['&'])).Within (['&'] ++ (name.text ++ [])) :=
    name.within_tree.shift
  rw [List.append_nil] at moved
  exact List.forall_mem_singleton.mpr moved

/-- **A block that is passed on as an argument.** -/
def Argument.block (context : Context) {read : Reader Tree} (reads : ReadsArgument read)
    (name : MethodName) (alone : context.plain.hasFollower (String.ofList name.text) = false) :
    Argument context read where
  text := blockText name
  tree := blockTree name
  starts := rfl
  within := blockTree_within name
  noComment := rfl
  covers _ := rfl
  reads bound depth cursor rest here free quiet enough deep :=
    Reader.argument_block reads alone here free quiet enough (by
      rw [blockText, List.length_cons, Nat.mul_add] at deep
      simp only [nestingPerCharacter] at deep
      omega)

end RecipeLint.Ruby
