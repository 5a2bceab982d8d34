/-
**The lines of a text and the numbers of positions.**

A line is told here by its place in the text alone: it holds no line feed, starts at the start of
the text or right behind a line feed, and ends at the end of the text or right before one. The
number that a position gets, and the parts of the text between line feeds, are compared with it.

* `Text.IsLine` — a line by what stands before and behind it.
* `Text.LineAt`, `Text.LineAbove` — the line of a position and the line above it.
* `Text.exists_isLine_at` — every position within a text is on a line.
* `SourceFile.lineStart_of_isLine` — the number of a position counts the line feeds before its line.
* `Text.getElem?_splitAt_of_isLine` — this number leads to the line.
-/

import RecipeLint.Proofs.SourceFile.LineStarts
import RecipeLint.Text.Search

namespace RecipeLint

namespace Text

/-- **A line of a text**, between what stands before and what stands behind it. -/
structure IsLine (content before line after : List Char) : Prop where
  whole : content = before ++ (line ++ after)
  unbroken : '\n' ∉ line
  starts : before = [] ∨ ∃ front, before = front ++ ['\n']
  ends : after = [] ∨ ∃ rest, after = '\n' :: rest

/-- **The line of a position**, which may stand at its start, at its end or inside one of its
characters. -/
def LineAt (content : List Char) (offset : Nat) (line : List Char) : Prop :=
  ∃ before after, IsLine content before line after ∧
    size before ≤ offset ∧ offset ≤ size before + size line

/-- **The line right above the line of a position.** -/
def LineAbove (content : List Char) (offset : Nat) (above : List Char) : Prop :=
  ∃ before line after, IsLine content before above ('\n' :: (line ++ after)) ∧
    IsLine content (before ++ above ++ ['\n']) line after ∧
    size (before ++ above ++ ['\n']) ≤ offset ∧
    offset ≤ size (before ++ above ++ ['\n']) + size line

/-! ### Lines and the parts between line feeds -/

/-- Taking a text apart at a character is the library's `List.splitOn`. -/
theorem splitAt_eq_splitOn (separator : Char) (text : List Char) :
    splitAt separator text = text.splitOn separator := by
  induction text with
  | nil => rfl
  | cons c text ih =>
    rw [splitAt, List.splitOn_cons_eq_if_modifyHead, ih]
    by_cases same : c = separator
    · rw [if_pos same, if_pos (beq_iff_eq.mpr same)]
    · rw [if_neg same, if_neg (by simpa using same)]
      cases parts : text.splitOn separator with
      | nil => exact absurd parts (List.splitOn_ne_nil separator text)
      | cons part parts => rfl

theorem splitAt_ne_nil (separator : Char) (text : List Char) : splitAt separator text ≠ [] := by
  rw [splitAt_eq_splitOn]
  exact List.splitOn_ne_nil separator text

theorem splitAt_of_not_mem {separator : Char} {line : List Char} (unbroken : separator ∉ line) :
    splitAt separator line = [line] := by
  rw [splitAt_eq_splitOn, List.splitOn_eq_singleton unbroken]

/-- The parts on both sides of a separator are the parts of the whole. -/
theorem splitAt_append_cons (separator : Char) (first second : List Char) :
    splitAt separator (first ++ separator :: second) =
      splitAt separator first ++ splitAt separator second := by
  rw [splitAt_eq_splitOn, splitAt_eq_splitOn, splitAt_eq_splitOn, List.splitOn_append_cons_self]

theorem length_splitAt (separator : Char) (text : List Char) :
    (splitAt separator text).length = text.count separator + 1 := by
  induction text with
  | nil => rfl
  | cons c text ih =>
    rw [splitAt]
    by_cases here : c = separator
    · rw [if_pos here, here, List.length_cons, ih, List.count_cons_self]
    · rw [if_neg here, List.count_cons_of_ne here]
      cases parts : splitAt separator text with
      | nil => exact absurd parts (splitAt_ne_nil separator text)
      | cons part parts =>
        rw [parts] at ih
        exact ih

/-- **The number of line feeds before a line leads to it** among the parts between line feeds. -/
theorem getElem?_splitAt_of_isLine {content before line after : List Char}
    (isLine : IsLine content before line after) :
    (splitAt '\n' content)[before.count '\n']? = some line := by
  have head : (splitAt '\n' (line ++ after))[0]? = some line := by
    rcases isLine.ends with rfl | ⟨rest, rfl⟩
    · rw [List.append_nil, splitAt_of_not_mem isLine.unbroken]
      rfl
    · rw [splitAt_append_cons, splitAt_of_not_mem isLine.unbroken]
      rfl
  rw [isLine.whole]
  rcases isLine.starts with rfl | ⟨front, rfl⟩
  · exact head
  · have number : (front ++ ['\n']).count '\n' = (splitAt '\n' front).length := by
      rw [length_splitAt, List.count_append, List.count_singleton_self]
    rw [List.append_assoc, List.singleton_append, splitAt_append_cons, number,
      List.getElem?_append_right (Nat.le_refl _), Nat.sub_self]
    exact head

/-! ### Every position is on a line -/

/-- A character in front of a text that starts with a line: it belongs to this line, or it is a line
feed and ends an empty line of its own. -/
theorem IsLine.cons_first {rest line after : List Char} (first : IsLine rest [] line after)
    (c : Char) :
    (c ≠ '\n' ∧ IsLine (c :: rest) [] (c :: line) after) ∨
      (c = '\n' ∧ IsLine (c :: rest) [] [] (c :: rest) ∧ IsLine (c :: rest) ['\n'] line after) := by
  have whole : rest = line ++ after := first.whole
  by_cases feed : c = '\n'
  · subst feed
    refine Or.inr ⟨rfl, ⟨rfl, List.not_mem_nil, Or.inl rfl, Or.inr ⟨rest, rfl⟩⟩, ?_⟩
    exact ⟨by rw [whole]; rfl, first.unbroken, Or.inr ⟨[], rfl⟩, first.ends⟩
  · refine Or.inl ⟨feed, by rw [whole]; rfl, ?_, Or.inl rfl, first.ends⟩
    intro member
    rcases List.mem_cons.mp member with same | later
    · exact feed same.symm
    · exact first.unbroken later

/-- A character in front of a text leaves its later lines where they are. -/
theorem IsLine.cons_later {rest before line after : List Char}
    (later : IsLine rest before line after) (behind : before ≠ []) (c : Char) :
    IsLine (c :: rest) (c :: before) line after := by
  refine ⟨by rw [later.whole]; rfl, later.unbroken, ?_, later.ends⟩
  rcases later.starts with none | ⟨front, rfl⟩
  · exact absurd none behind
  · exact Or.inr ⟨c :: front, rfl⟩

/-- **Every position within a text is on a line.** -/
theorem exists_isLine_at {content : List Char} {offset : Nat} (inside : offset ≤ size content) :
    ∃ before line after, IsLine content before line after ∧
      size before ≤ offset ∧ offset ≤ size before + size line := by
  induction content generalizing offset with
  | nil =>
    have line : IsLine [] [] [] [] := ⟨rfl, List.not_mem_nil, Or.inl rfl, Or.inl rfl⟩
    exact ⟨[], [], [], line, Nat.zero_le _, inside⟩
  | cons c rest ih =>
    have positive : 0 < c.utf8Size := c.utf8Size_pos
    rw [size_cons] at inside
    have shifted : offset - c.utf8Size ≤ size rest := by omega
    obtain ⟨before, line, after, isLine, start, stop⟩ := ih shifted
    by_cases first : before = []
    · subst first
      rw [size_nil] at stop
      rcases isLine.cons_first c with ⟨-, longer⟩ | ⟨feed, own, next⟩
      · exact ⟨[], c :: line, after, longer, Nat.zero_le _, by rw [size_nil, size_cons]; omega⟩
      · have width : c.utf8Size = 1 := by rw [feed]; rfl
        by_cases atStart : offset = 0
        · exact ⟨[], [], c :: rest, own, Nat.zero_le _, by rw [atStart]; exact Nat.zero_le _⟩
        · have one : size ['\n'] = 1 := rfl
          exact ⟨['\n'], line, after, next, by omega, by omega⟩
    · have nonempty : 0 < size before := Nat.pos_of_ne_zero fun none =>
        first (eq_nil_of_size_eq_zero none)
      refine ⟨c :: before, line, after, isLine.cons_later first c, ?_, ?_⟩
      · rw [size_cons]
        omega
      · rw [size_cons]
        omega

/-- A line that is not the first one has a line above it. -/
theorem IsLine.exists_above {content front line after : List Char}
    (isLine : IsLine content (front ++ ['\n']) line after) :
    ∃ before above, front = before ++ above ∧
      IsLine content before above ('\n' :: (line ++ after)) := by
  obtain ⟨before, above, behind, last, start, stop⟩ := exists_isLine_at (Nat.le_refl (size front))
  have ended : behind = [] := by
    have measured := congrArg size last.whole
    rw [size_append, size_append] at measured
    exact eq_nil_of_size_eq_zero (by omega)
  subst ended
  have whole : front = before ++ above := by rw [last.whole, List.append_nil]
  refine ⟨before, above, whole, ?_, last.unbroken, last.starts, Or.inr ⟨line ++ after, rfl⟩⟩
  rw [isLine.whole, whole]
  simp only [List.append_assoc, List.singleton_append]

end Text

/-! ### The number of a position -/

namespace SourceFile

/-- Whole lines that end before a position add their number, and the line behind them starts where
they end. -/
theorem lineFrom_concat {offset : Nat} (front rest : List Char) {position : Nat}
    (number start : Nat) (passed : position + Text.size (front ++ ['\n']) ≤ offset) :
    lineFrom offset (front ++ ['\n'] ++ rest) position number start =
      lineFrom offset rest (position + Text.size (front ++ ['\n']))
        (number + (front ++ ['\n']).count '\n') (position + Text.size (front ++ ['\n'])) := by
  induction front generalizing position number start with
  | nil =>
    have width : Char.utf8Size '\n' = 1 := rfl
    rw [List.nil_append, Text.size_cons, Text.size_nil, Nat.add_zero] at passed ⊢
    rw [List.cons_append, List.nil_append, lineFrom, if_neg (by omega), if_pos rfl,
      List.count_singleton_self, width]
  | cons c front ih =>
    rw [List.cons_append, Text.size_cons, ← Nat.add_assoc] at passed
    rw [List.cons_append, List.cons_append, lineFrom, if_neg (by omega), Text.size_cons,
      ← Nat.add_assoc, ih _ _ passed, ih _ _ passed]
    by_cases feed : c = '\n'
    · have one : number + 1 + (front ++ ['\n']).count '\n' =
          number + ((front ++ ['\n']).count '\n' + 1) := by omega
      rw [if_pos feed, feed, List.count_cons_self, one]
    · rw [if_neg feed, List.count_cons_of_ne feed]

/-- A position that is no later than the end of a line is on it. -/
theorem lineFrom_of_line {offset : Nat} {line after : List Char} (unbroken : '\n' ∉ line)
    (ends : after = [] ∨ ∃ rest, after = '\n' :: rest) {position : Nat} (number start : Nat)
    (upTo : offset ≤ position + Text.size line) :
    lineFrom offset (line ++ after) position number start = (number, start) := by
  induction line generalizing position with
  | nil =>
    rw [Text.size_nil] at upTo
    rcases ends with rfl | ⟨rest, rfl⟩
    · rfl
    · have width : Char.utf8Size '\n' = 1 := rfl
      rw [List.nil_append, lineFrom, if_pos (by omega)]
  | cons c line ih =>
    rw [Text.size_cons] at upTo
    have different : c ≠ '\n' := fun same => unbroken (same ▸ List.mem_cons_self)
    rw [List.cons_append, lineFrom, if_neg different]
    by_cases inside : offset < position + c.utf8Size
    · rw [if_pos inside]
    · rw [if_neg inside]
      exact ih (fun member => unbroken (List.mem_cons_of_mem _ member)) (by omega)

/-- **The number of a position counts the line feeds before its line**, which starts where the text
before it ends. -/
theorem lineStart_of_isLine {file : SourceFile} {offset : Nat} {before line after : List Char}
    (isLine : Text.IsLine file.content before line after) (start : Text.size before ≤ offset)
    (stop : offset ≤ Text.size before + Text.size line) :
    file.lineStart offset = (before.count '\n', Text.size before) := by
  rw [lineStart_eq_lineFrom, isLine.whole]
  rcases isLine.starts with rfl | ⟨front, rfl⟩
  · rw [List.nil_append]
    exact lineFrom_of_line isLine.unbroken isLine.ends 0 0 (by simpa using stop)
  · rw [lineFrom_concat front _ _ _ (by rwa [Nat.zero_add]),
      lineFrom_of_line isLine.unbroken isLine.ends _ _ (by rwa [Nat.zero_add]), Nat.zero_add,
      Nat.zero_add]

/-- The line of a place is the number of its position, from one. -/
theorem line_of_lineColumn {file : SourceFile} {offset line column : Nat}
    (placed : file.lineColumn offset = .ok (line, column)) :
    line = (file.lineStart offset).1 + 1 := by
  unfold lineColumn at placed
  simp only [bind, Except.bind] at placed
  split at placed
  next => cases placed
  next => cases placed; rfl

theorem exists_lineAt {file : SourceFile} {offset : Nat}
    (inside : offset ≤ Text.size file.content) : ∃ text, Text.LineAt file.content offset text := by
  obtain ⟨before, line, after, isLine, start, stop⟩ := Text.exists_isLine_at inside
  exact ⟨line, before, after, isLine, start, stop⟩

/-- A position that is not on the first line has a line above it. -/
theorem exists_lineAbove {file : SourceFile} {offset : Nat}
    (inside : offset ≤ Text.size file.content) (later : (file.lineStart offset).1 ≠ 0) :
    ∃ text, Text.LineAbove file.content offset text := by
  obtain ⟨before, line, after, isLine, start, stop⟩ := Text.exists_isLine_at inside
  rcases isLine.starts with rfl | ⟨front, rfl⟩
  · rw [lineStart_of_isLine isLine start stop] at later
    exact absurd rfl later
  · obtain ⟨before, above, rfl, isAbove⟩ := isLine.exists_above
    exact ⟨above, before, line, after, isAbove, isLine, start, stop⟩

end SourceFile

end RecipeLint
