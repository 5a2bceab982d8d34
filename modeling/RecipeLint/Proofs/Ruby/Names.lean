/-
**Names of methods.**

A name is read as far as its characters go, and is nothing but a name unless it is a word of the
language.

* `MethodName` — a name of a method, with the mark that may belong to it.
* `MethodName.nameOf_append` — where it ends.
* `Reader.atom_name` — a primary that starts with a name starts with the whole name.
-/

import RecipeLint.Proofs.Ruby.Ends
import RecipeLint.Proofs.Ruby.Following

namespace RecipeLint.Ruby

/-! ### Names -/

/-- The words that are read as something else than a name. -/
def keywords : List String :=
  ["nil", "NIL", "true", "TRUE", "false", "FALSE", "self", "super", "if", "unless", "while",
    "until", "for", "case", "begin", "def", "class", "module", "redo", "retry", "return", "break",
    "next", "yield", "alias", "undef", "BEGIN", "END", "not", "defined?"]

/-- **A name of a method** that starts with a small letter, with the mark that may belong to it. -/
structure MethodName where
  /-- The name without its mark. -/
  word : List Char
  /-- The mark. -/
  mark : Option Char := none
  plain : word.all isPlainWordPart = true
  starts : word.head?.any Char.isLower = true
  marks : ∀ c ∈ mark, c = '!' ∨ c = '?'
  free : keywords.contains (String.ofList (word ++ mark.toList)) = false

/-- A name without a mark has none of the wrong ones. -/
theorem MethodName.unmarked : ∀ c ∈ (none : Option Char), c = '!' ∨ c = '?' := nofun

/-- Whether a name ends before a text. -/
def EndsName (text : List Char) : Prop :=
  ∀ c ∈ text.head?, isWordPart c = false ∧ c ≠ '?' ∧ c ≠ '!' ∧ c ≠ '='

theorem endsName_of_ends {rest : List Char} (ends : ∀ c ∈ rest.head?, endsExpression c = true) :
    EndsName rest := by
  intro c first
  have other {sign : Char} (inside : endsExpression sign = false) : c ≠ sign := by
    rintro rfl
    rw [ends c first] at inside
    cases inside
  exact ⟨not_isWordPart_of_ends (ends c first), other rfl, other rfl, other rfl⟩

theorem isWordPart_of_plain {c : Char} (plain : isPlainWordPart c = true) :
    isWordPart c = true := by
  have noSign : signs.contains c = false := by
    refine Bool.eq_false_iff.mpr fun sign => ?_
    have none : (signs.all fun c => !isPlainWordPart c) = true := by decide
    have foreign : (!isPlainWordPart c) = true :=
      List.all_eq_true.mp none c (List.contains_iff_mem.mp sign)
    rw [plain] at foreign
    cases foreign
  have big : 32 < c.toNat := by
    unfold isPlainWordPart Char.isAlphanum Char.isAlpha Char.isUpper Char.isLower Char.isDigit
      at plain
    simp only [Bool.or_eq_true, Bool.and_eq_true, decide_eq_true_eq, beq_iff_eq] at plain
    show 32 < c.val.toNat
    rcases plain with ((⟨upper, -⟩ | ⟨lower, -⟩) | ⟨digit, -⟩) | rfl
    · exact Nat.lt_of_lt_of_le (by decide) (show 65 ≤ c.val.toNat from upper)
    · exact Nat.lt_of_lt_of_le (by decide) (show 97 ≤ c.val.toNat from lower)
    · exact Nat.lt_of_lt_of_le (by decide) (show 48 ≤ c.val.toNat from digit)
    · decide
  rw [isWordPart, noSign, decide_eq_true big]
  rfl

/-- A small letter is neither a large one nor a digit. -/
theorem not_upper_of_lower {c : Char} (small : c.isLower = true) :
    c.isUpper = false ∧ c.isDigit = false := by
  have first : 97 ≤ c.val.toNat := of_decide_eq_true ((Bool.and_eq_true _ _).mp small).1
  refine ⟨Bool.eq_false_iff.mpr fun upper => ?_, Bool.eq_false_iff.mpr fun digit => ?_⟩
  · have last : c.val.toNat ≤ 90 := (of_decide_eq_true upper).2
    exact absurd (Nat.le_trans first last) (by decide)
  · have last : c.val.toNat ≤ 57 := of_decide_eq_true ((Bool.and_eq_true _ _).mp digit).2
    exact absurd (Nat.le_trans first last) (by decide)

section Small

variable {c : Char} (small : c.isLower = true)

include small

/-- A small letter is no sign. -/
theorem ne_of_lower {sign : Char} (large : sign.isLower = false) : c ≠ sign := by
  rintro rfl
  rw [small] at large
  cases large

theorem not_contains_of_lower {signs : List Char}
    (large : (signs.all fun sign => !sign.isLower) = true) : signs.contains c = false := by
  refine Bool.eq_false_iff.mpr fun member => ?_
  have other : (!c.isLower) = true := List.all_eq_true.mp large c (List.contains_iff_mem.mp member)
  rw [small] at other
  cases other

theorem not_isGap_of_lower : isGap c = false := by
  have other {sign : Char} (large : sign.isLower = false) : (c == sign) = false :=
    beq_false_of_ne (ne_of_lower small large)
  simp only [isGap, Bool.or_eq_false_iff]
  exact ⟨⟨⟨other rfl, other rfl⟩, other rfl⟩, other rfl⟩

end Small

/-! ### Words -/

section Words

variable {word rest : List Char} (starts : word.head?.any isWordStart = true)
  (plain : word.all isPlainWordPart = true)

include starts plain

/-- A word goes on as far as its characters do. -/
theorem wordOf_of_plain (ends : ∀ c ∈ rest.head?, isWordPart c = false) :
    wordOf (word ++ rest) = word := by
  have all : ∀ c ∈ word, isWordPart c = true := fun c member =>
    isWordPart_of_plain (List.all_eq_true.mp plain c member)
  have behind : rest.takeWhile isWordPart = [] := by
    cases rest with
    | nil => rfl
    | cons c rest => exact List.takeWhile_cons_of_neg (by rw [ends c rfl]; nofun)
  have run : (word ++ rest).takeWhile isWordPart = word := by
    rw [List.takeWhile_append_of_pos all, behind, List.append_nil]
  cases word with
  | nil => cases starts
  | cons c more =>
    change isWordStart c = true at starts
    unfold wordOf
    rw [List.cons_append] at run ⊢
    simp only [starts, if_true, run]

/-- Without a mark behind it a word is the whole name. -/
theorem nameOf_of_plain (ends : EndsName rest) : nameOf (word ++ rest) = word := by
  have whole := wordOf_of_plain starts plain fun c first => (ends c first).1
  have checked : (word.isEmpty || !word.all isPlainWordPart) = false := by
    rw [plain, List.isEmpty_eq_false_iff.mpr (by rintro rfl; cases starts)]
    rfl
  unfold nameOf
  simp only [whole, checked, List.drop_left, Bool.false_eq_true, if_false]
  cases rest with
  | nil => rfl
  | cons c rest =>
    obtain ⟨-, noQuestion, noBang, -⟩ := ends c rfl
    split
    next same => exact absurd (List.cons.inj same).1 noQuestion
    next same => exact absurd (List.cons.inj same).1 noBang
    next same => exact absurd (List.cons.inj same).1 noBang
    next => rfl

end Words

namespace MethodName

variable (name : MethodName)

/-- How a name is written. -/
def text : List Char :=
  name.word ++ name.mark.toList

/-- The concrete tree of a name alone: with a mark it is a call. -/
def tree : Tree :=
  let plain := Tree.leaf .identifier ⟨0, Text.size name.text⟩
  match name.mark with
  | none => plain
  | some _ => .of .call plain.span [plain.as .method]

theorem word_eq_cons : ∃ c more, name.word = c :: more ∧ isWordStart c = true ∧
    c.isLower = true := by
  have starts := name.starts
  have plain := name.plain
  cases same : name.word with
  | nil =>
    rw [same] at starts
    cases starts
  | cons c more =>
    rw [same] at starts plain
    have small : c.isLower = true := starts
    have noDigit : c.isDigit = false := (not_upper_of_lower small).2
    have part := isWordPart_of_plain (List.all_eq_true.mp plain c List.mem_cons_self)
    exact ⟨c, more, rfl, by rw [isWordStart, part, noDigit]; rfl, small⟩

theorem startsWord : name.word.head?.any isWordStart = true := by
  obtain ⟨c, more, same, starts, -⟩ := name.word_eq_cons
  rw [same]
  exact starts

theorem text_eq_cons : ∃ c more, name.text = c :: more ∧ isWordStart c = true ∧
    c.isLower = true := by
  obtain ⟨c, more, same, starts, small⟩ := name.word_eq_cons
  exact ⟨c, more ++ name.mark.toList, by rw [text, same]; rfl, starts, small⟩

theorem nameKind_text : nameKind name.text = .identifier := by
  obtain ⟨c, more, same, -, small⟩ := name.word_eq_cons
  rw [nameKind, text, same]
  show (if (some c).any Char.isUpper then Kind.constant else .identifier) = _
  rw [Option.any_some, (not_upper_of_lower small).1]
  rfl

theorem within_tree : name.tree.Within name.text := by
  have cuts : Span.CutsOut name.text ⟨0, Text.size name.text⟩ :=
    ⟨[], name.text, [], (List.append_nil _).symm, rfl, Nat.zero_add _⟩
  unfold tree
  split
  next => exact .node cuts (List.forall_mem_nil _)
  next =>
    exact .node cuts (List.forall_mem_singleton.mpr (.node cuts (List.forall_mem_nil _)))

variable {name} {rest : List Char} (ends : EndsName rest)

include ends

theorem wordOf_append : wordOf (name.text ++ rest) = name.word := by
  rw [text, List.append_assoc]
  refine wordOf_of_plain name.startsWord name.plain fun c first => ?_
  cases marked : name.mark with
  | none =>
    rw [marked] at first
    exact (ends c first).1
  | some d =>
    rw [marked] at first
    obtain rfl : d = c := Option.some.inj first
    rcases name.marks d marked with rfl | rfl <;> decide

/-- **A name ends where its characters end.** -/
theorem nameOf_append : nameOf (name.text ++ rest) = name.text := by
  cases marked : name.mark with
  | none =>
    have whole : name.text = name.word := by
      rw [text, marked, Option.toList_none, List.append_nil]
    rw [whole]
    exact nameOf_of_plain name.startsWord name.plain ends
  | some d =>
    have checked : (name.word.isEmpty || !name.word.all isPlainWordPart) = false := by
      obtain ⟨c, more, same, -⟩ := name.word_eq_cons
      rw [name.plain, same]
      rfl
    have behind : (name.text ++ rest).drop name.word.length = name.mark.toList ++ rest := by
      rw [text, List.append_assoc, List.drop_left]
    unfold nameOf
    simp only [wordOf_append ends, checked, behind, Bool.false_eq_true, if_false]
    rw [text, marked, Option.toList_some]
    rcases name.marks d marked with rfl | rfl
    · cases rest with
      | nil => rfl
      | cons d rest =>
        obtain ⟨-, -, -, noEquals⟩ := ends d rfl
        split
        next same => cases same
        next same =>
          obtain ⟨-, behind⟩ := List.cons.inj same
          exact absurd (List.cons.inj behind).1 noEquals
        next => rfl
        next _ _ other => exact (other _ rfl).elim
    · rfl

end MethodName

/-! ### Reading names -/

namespace Reader

section Atoms

variable {setting : Setting} {cursor : Cursor} {name : MethodName} {rest : List Char}
  (here : cursor.rest = name.text ++ rest) (ends : EndsName rest)

include here ends

theorem ofList_nameOf_ne {word : String} (keyword : word ∈ keywords) :
    String.ofList (nameOf cursor.rest) ≠ word := by
  rintro rfl
  rw [here, name.nameOf_append ends] at keyword
  have free := name.free
  rw [← MethodName.text] at free
  rw [List.contains_iff_mem.mpr keyword] at free
  cases free

variable (free : cursor.heredocs = [])

include free

theorem plainName_ok (unreserved : setting.reserved = none) :
    ∃ after, plainName setting cursor = .ok (name.tree.shift cursor.offset, after) ∧
      cursor.Takes name.text after := by
  obtain ⟨takes, -⟩ := Cursor.eat_takes here free
  refine ⟨cursor.eat name.text.length, ?_, takes⟩
  have named : nameOf cursor.rest = name.text := here ▸ name.nameOf_append ends
  have word : wordOf cursor.rest = name.word := here ▸ name.wordOf_append ends
  have long : name.text.isEmpty = false := by
    obtain ⟨c, more, same, -⟩ := name.text_eq_cons
    rw [same]
    rfl
  unfold plainName
  simp only [bind_apply, get_apply, read_apply, position_apply, ite_apply, pure_apply, leaf_apply,
    named, word, long, unreserved, name.nameKind_text, reduceCtorEq, decide_false, Bool.false_and,
    Bool.false_eq_true, if_false]
  rw [MethodName.tree, ← takes.span_shift]
  cases marked : name.mark with
  | none =>
    rw [if_pos (by rw [MethodName.text, marked, Option.toList_none, List.append_nil])]
    rfl
  | some d =>
    rw [if_neg (by rw [MethodName.text, marked, Option.toList_some, List.length_append]; simp)]
    rfl

/-- **A primary that starts with a name starts with the whole name.** -/
theorem atom_name (unreserved : setting.reserved = none) :
    ∃ after, atom setting cursor = .ok ({ tree := name.tree.shift cursor.offset }, after) ∧
      cursor.Takes name.text after := by
  obtain ⟨after, read, takes⟩ := plainName_ok here ends free unreserved
  refine ⟨after, ?_, takes⟩
  have other := fun word (keyword : word ∈ keywords) => ofList_nameOf_ne here ends keyword
  have starts : (cursor.rest.head?).any isWordStart = true := by
    obtain ⟨c, more, same, starts, -⟩ := name.text_eq_cons
    rw [here, same]
    exact starts
  have word : wordTree setting cursor = .ok (name.tree.shift cursor.offset, after) := by
    rw [← read]
    unfold wordTree
    simp only [bind_apply, get_apply]
    generalize String.ofList (nameOf cursor.rest) = named at other ⊢
    split
    all_goals first
      | rfl
      | exact absurd rfl (other _ (by decide))
  unfold atom
  simp only [bind_apply, peek_apply, starts, ite_apply, if_true]
  unfold wordAtom
  simp only [bind_apply, get_apply]
  generalize String.ofList (nameOf cursor.rest) = named at other ⊢
  split
  case h_5 => simp only [bind_apply, word, pure_apply]
  all_goals exact absurd rfl (other _ (by decide))

omit free in
/-- A name starts an operand without a sign or a word before it. -/
theorem operandHead_name : operandHead setting cursor = primary setting cursor := by
  have other := fun word (keyword : word ∈ keywords) => ofList_nameOf_ne here ends keyword
  have noWord (word : String) (keyword : word ∈ keywords) : cursor.seesWord word = false := by
    refine beq_false_of_ne fun same => other word keyword ?_
    rw [same, String.ofList_toList]
  obtain ⟨c, more, same, -, small⟩ := name.text_eq_cons
  have first : cursor.rest = c :: (more ++ rest) := by
    rw [here, same]
    rfl
  unfold operandHead
  simp only [bind_apply, get_apply]
  simp only [noWord "not" (by decide), noWord "defined?" (by decide), Bool.false_eq_true, if_false]
  generalize cursor.rest = text at first ⊢
  split
  case h_9 => rfl
  all_goals exact absurd (List.cons.inj first).1.symm (ne_of_lower small rfl)

end Atoms

end Reader

end RecipeLint.Ruby
