/-
**Which positions a directive covers.**

Directives are numbered by the lines of a text as a scan finds them: without the carriage return
before a line feed, and without an empty line at the end. Positions are numbered by the line feeds
before them. The two numberings agree: a rule is allowed at a position exactly if the line of the
position or the line right above it, taken between line feeds as it stands, is a directive that
names the rule.

* `Directive.read?_concat_return` — a carriage return at its end makes no difference to a line.
* `Directive.at?_of_isLine` — the directive with the number of a line is that of the line.
* `Directive.allowed_at_position` — what a rule is allowed at a position depends on.
-/

import RecipeLint.Proofs.Directive.Nearest
import RecipeLint.Proofs.Evaluation.Origin
import RecipeLint.Proofs.SourceFile.Lines
import RecipeLint.Proofs.Text.Parts

namespace RecipeLint

namespace Text

/-! ### A character at the end of a text -/

theorem strip?_concat {expected : List Char} {c : Char} (foreign : c ∉ expected)
    (text : List Char) : strip? expected (text ++ [c]) = (strip? expected text).map (· ++ [c]) := by
  induction expected generalizing text with
  | nil => rfl
  | cons e expected ih =>
    have different : e ≠ c := fun same => foreign (same ▸ List.mem_cons_self)
    cases text with
    | nil => exact if_neg different
    | cons d text =>
      rw [List.cons_append, strip?, strip?]
      split
      next => exact ih (fun member => foreign (List.mem_cons_of_mem _ member)) text
      next => rfl

/-- A marker is found in front of a character that is none of its own where it was found before. -/
theorem breakOn?_concat {marker : List Char} {c : Char} (foreign : c ∉ marker)
    (text : List Char) :
    breakOn? marker (text ++ [c]) =
      (breakOn? marker text).map fun (before, after) => (before, after ++ [c]) := by
  induction text with
  | nil =>
    have stripped := strip?_concat foreign []
    rw [List.nil_append] at stripped
    show breakOn? marker [c] = _
    rw [breakOn?.eq_2, stripped, breakOn?]
    cases strip? marker [] <;> rfl
  | cons d text ih =>
    have stripped := strip?_concat foreign (d :: text)
    rw [List.cons_append] at stripped
    rw [List.cons_append, breakOn?, stripped, breakOn?, ih]
    cases strip? marker (d :: text) with
    | some rest => rfl
    | none =>
      rw [Option.map_none, Option.map_map, Option.map_map]
      rfl

end Text

namespace Directive

/-! ### Lines with and without a carriage return -/

/-- **A carriage return at its end makes no difference to a line**: it is a blank, and no sign of a
directive. -/
theorem read?_concat_return (line : List Char) : read? (line ++ ['\r']) = read? line := by
  have foreign : '\r' ∉ marker := by decide
  have trimmed : ∀ text, Text.trim (text ++ ['\r']) = Text.trim text :=
    Text.trim_append_right (List.all_eq_true.mp (by decide))
  rw [read?, Text.breakOn?_concat foreign, read?]
  cases Text.breakOn? marker line with
  | none => rfl
  | some parts =>
    obtain ⟨before, after⟩ := parts
    simp only [Option.map_some, Option.bind_eq_bind, Option.bind_some, trimmed]

theorem read?_dropReturn (line : List Char) : read? (Text.dropReturn line) = read? line := by
  rw [Text.dropReturn]
  split
  next last =>
    obtain ⟨front, rfl⟩ := List.getLast?_eq_some_iff.mp last
    rw [List.dropLast_concat, read?_concat_return]
  next => rfl

/-- **The directive with a number is that of the part with this number between line feeds.** What
the lines of a text leave out, carriage returns and an empty last part, is no directive. -/
theorem at?_succ (content : List Char) (index : Nat) :
    at? content (index + 1) = (Text.splitAt '\n' content)[index]?.bind read? := by
  obtain ⟨front, last, parts⟩ : ∃ front last, Text.splitAt '\n' content = front ++ [last] :=
    ⟨_, _, (List.dropLast_concat_getLast (Text.splitAt_ne_nil '\n' content)).symm⟩
  have lines : Text.lines content = front.map Text.dropReturn ++ [last].filter (· ≠ []) := by
    rw [Text.lines, parts, List.dropLast_concat, List.getLast?_concat]
    rfl
  rw [at?, lines, parts]
  by_cases early : index < front.length
  · rw [List.getElem?_append_left (by rw [List.length_map]; exact early),
      List.getElem?_append_left early, List.getElem?_map]
    cases front[index]? with
    | none => rfl
    | some line => exact read?_dropReturn line
  · rw [List.getElem?_append_right (by rw [List.length_map]; omega),
      List.getElem?_append_right (by omega), List.length_map]
    by_cases empty : last = []
    · subst empty
      have nothing : [([] : List Char)].filter (· ≠ []) = [] := rfl
      rw [nothing]
      cases index - front.length with
      | zero => rfl
      | succ more => rfl
    · rw [List.filter_cons_of_pos (by simpa using empty), List.filter_nil]

/-- The directive with the number of a line is that of the line. -/
theorem at?_of_isLine {content before line after : List Char}
    (isLine : Text.IsLine content before line after) :
    at? content (before.count '\n' + 1) = read? line := by
  rw [at?_succ, Text.getElem?_splitAt_of_isLine isLine]
  rfl

/-! ### Positions -/

/-- The directive with the number of a position is that of its line. -/
theorem at?_of_lineAt {file : SourceFile} {offset : Nat} {line : List Char}
    (lineAt : Text.LineAt file.content offset line) :
    at? file.content ((file.lineStart offset).1 + 1) = read? line := by
  obtain ⟨before, after, isLine, start, stop⟩ := lineAt
  rw [SourceFile.lineStart_of_isLine isLine start stop, at?_of_isLine isLine]

/-- The directive with the number before is that of the line above. -/
theorem at?_of_lineAbove {file : SourceFile} {offset : Nat} {above : List Char}
    (lineAbove : Text.LineAbove file.content offset above) :
    at? file.content (file.lineStart offset).1 = read? above := by
  obtain ⟨before, line, after, isAbove, isLine, start, stop⟩ := lineAbove
  have number : (before ++ above ++ ['\n']).count '\n' = before.count '\n' + 1 := by
    rw [List.count_append, List.count_append, List.count_eq_zero_of_not_mem isAbove.unbroken]
    rfl
  rw [SourceFile.lineStart_of_isLine isLine start stop, number, at?_of_isLine isAbove]

/-! ### Rules that are allowed -/

/-- A directive names a rule: by its name, by its code, or with all others. -/
def Names (directive : Directive) (name code : String) : Prop :=
  "all" ∈ directive.rules ∨ name ∈ directive.rules ∨ code ∈ directive.rules

theorem covers_iff (directive : Directive) (name code : String) :
    directive.covers name code = true ↔ directive.Names name code := by
  rw [covers, Bool.or_eq_true, Bool.or_eq_true, List.contains_iff_mem, List.contains_iff_mem,
    List.contains_iff_mem, or_assoc]
  rfl

theorem isSome_filter_covers_iff (found : Option Directive) (name code : String) :
    (found.filter fun directive => directive.covers name code).isSome = true ↔
      ∃ directive, found = some directive ∧ directive.Names name code := by
  cases found with
  | none => simp
  | some directive => simp [Option.filter_some, covers_iff]

/-- A scan allows a rule on a line exactly if the directive of the line above or that of the line
itself names it. -/
theorem isAllowed_check_scan_iff (content : List Char) (line : Nat) (name code : String) :
    ((Directives.scan content).check line name code).isAllowed = true ↔
      (∃ directive, at? content (line - 1) = some directive ∧ directive.Names name code) ∨
      ∃ directive, at? content line = some directive ∧ directive.Names name code := by
  have decided : ((Directives.scan content).check line name code).isAllowed =
      (allowing? content line name code).isSome := by
    rw [Directives.check_scan]
    cases allowing? content line name code <;> rfl
  rw [decided, allowing?, Option.isSome_or, Bool.or_eq_true, isSome_filter_covers_iff,
    isSome_filter_covers_iff]

/-- **A rule is allowed at a position exactly if the line of the position or the line right above
it is a directive that names the rule.** The position has a line and a column, lines are what stands
between line feeds, and the rule is looked up under the number of the line. That the position is
below the largest machine word holds of every text in memory. -/
theorem allowed_at_position (file : SourceFile) (offset : Nat) (name code : String)
    (inside : offset ≤ Text.size file.content) (small : offset < maxWord) :
    ∃ line column, file.lineColumn offset = .ok (line, column) ∧
      (((Directives.scan file.content).check line name code).isAllowed = true ↔
        ∃ text, (Text.LineAt file.content offset text ∨ Text.LineAbove file.content offset text) ∧
          ∃ directive, read? text = some directive ∧
            ("all" ∈ directive.rules ∨ name ∈ directive.rules ∨ code ∈ directive.rules)) := by
  obtain ⟨⟨line, column⟩, placed⟩ := file.lineColumn_isOk small
  refine ⟨line, column, placed, ?_⟩
  rw [isAllowed_check_scan_iff, SourceFile.line_of_lineColumn placed, Nat.add_sub_cancel]
  constructor
  · rintro (⟨directive, found, named⟩ | ⟨directive, found, named⟩)
    · have later : (file.lineStart offset).1 ≠ 0 := fun first => by
        rw [first] at found
        cases found
      obtain ⟨text, above⟩ := SourceFile.exists_lineAbove inside later
      exact ⟨text, Or.inr above, directive, (at?_of_lineAbove above).symm.trans found, named⟩
    · obtain ⟨text, lineAt⟩ := SourceFile.exists_lineAt inside
      exact ⟨text, Or.inl lineAt, directive, (at?_of_lineAt lineAt).symm.trans found, named⟩
  · rintro ⟨text, lineAt | above, directive, read, named⟩
    · exact Or.inr ⟨directive, (at?_of_lineAt lineAt).trans read, named⟩
    · exact Or.inl ⟨directive, (at?_of_lineAbove above).trans read, named⟩

end Directive

/-! ### Samples -/

namespace Sample

/-- A file with a directive on a line that ends with a carriage return, and a last line without a
line feed. -/
def returnFile : SourceFile where
  path := "/a.rb"
  content := "x\n# cookbook-lint: allow(NC)\r\né".toList
  relativePath := "a.rb"
  year := 2024

/-- The line with the directive, and the last line below it. -/
theorem returnFile_lineAbove :
    Text.LineAbove returnFile.content 31 "# cookbook-lint: allow(NC)\r".toList := by
  refine ⟨['x', '\n'], ['é'], [], ⟨?_, ?_, Or.inr ⟨['x'], rfl⟩, Or.inr ⟨['é'], rfl⟩⟩,
    ⟨?_, ?_, Or.inr ⟨"x\n# cookbook-lint: allow(NC)\r".toList, ?_⟩, Or.inl rfl⟩, ?_, ?_⟩ <;> decide

/-- Inside the last character, below a directive that ends with a carriage return, the rule with the
code that it names is allowed. -/
theorem allowed_in_returnFile :
    31 ≤ Text.size returnFile.content ∧ 31 < maxWord ∧
      ∃ line column, returnFile.lineColumn 31 = .ok (line, column) ∧
        ((Directives.scan returnFile.content).check line "no-comments" "NC").isAllowed = true := by
  have inside : 31 ≤ Text.size returnFile.content := by decide
  have small : 31 < maxWord := by decide
  obtain ⟨line, column, placed, allowed⟩ :=
    Directive.allowed_at_position returnFile 31 "no-comments" "NC" inside small
  refine ⟨inside, small, line, column, placed, allowed.mpr ?_⟩
  exact ⟨_, Or.inr returnFile_lineAbove, ⟨["NC"], none⟩, by decide +kernel, by decide⟩

end Sample

end RecipeLint
