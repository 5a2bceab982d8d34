/-
**The lines and the columns of positions.**

The place of a position is told here by the text before it alone: its line counts the line feeds,
and its column counts the characters behind the last of them. One more character leads to a later
place, be it to the next column or to the next line, so places are in the order of the positions.

* `Text.lastLine`, `Text.place` — the place behind a text.
* `Text.toLex_place_lt_concat`, `Text.toLex_place_lt` — a longer text leads to a later place.
* `SourceFile.lineColumn_behind` — the place that is computed for a position.
* `SourceFile.lineColumn_isExact` — computed places are exact and in the order of the positions.
-/

import Mathlib.Data.List.Induction
import Mathlib.Data.Prod.Lex
import RecipeLint.Proofs.SourceFile.Lines

namespace RecipeLint

namespace Text

/-- What stands behind the last line feed of a text, or all of it if there is none. -/
def lastLine (text : List Char) : List Char := (text.reverse.takeWhile (· ≠ '\n')).reverse

/-- **The line and the column of the position behind a text**, both from one. -/
def place (text : List Char) : Nat × Nat := (1 + text.count '\n', 1 + (lastLine text).length)

/-! ### The last line of a text -/

theorem lastLine_concat_feed (text : List Char) : lastLine (text ++ ['\n']) = [] := by
  simp [lastLine]

theorem lastLine_concat {c : Char} (different : c ≠ '\n') (text : List Char) :
    lastLine (text ++ [c]) = lastLine text ++ [c] := by
  simp [lastLine, different]

/-- Behind the start of a line stands its first part. -/
theorem lastLine_append {front inside : List Char}
    (starts : front = [] ∨ ∃ earlier, front = earlier ++ ['\n']) (unbroken : '\n' ∉ inside) :
    lastLine (front ++ inside) = inside := by
  induction inside using List.reverseRecOn with
  | nil =>
    rw [List.append_nil]
    rcases starts with rfl | ⟨earlier, rfl⟩
    · rfl
    · exact lastLine_concat_feed earlier
  | append_singleton inside c ih =>
    rw [List.mem_append, not_or, List.mem_singleton] at unbroken
    rw [← List.append_assoc, lastLine_concat (Ne.symm unbroken.2), ih unbroken.1]

/-- The position behind a part of a text stands on the line that ends this part. -/
theorem exists_isLine_behind {content before after : List Char}
    (whole : content = before ++ after) :
    ∃ front line rest behind, before = front ++ lastLine before ∧
      line = lastLine before ++ rest ∧ before.count '\n' = front.count '\n' ∧
      IsLine content front line behind := by
  have inside : size before ≤ size content := by
    rw [whole, size_append]
    exact Nat.le_add_right _ _
  obtain ⟨front, line, behind, isLine, start, stop⟩ := exists_isLine_at inside
  have cuts : front ++ (line ++ behind) = before ++ after := isLine.whole.symm.trans whole
  obtain ⟨first, split, remains⟩ := exists_between cuts start
  have short : size first ≤ size line := by
    rw [split, size_append] at stop
    exact Nat.le_of_add_le_add_left stop
  obtain ⟨rest, longer, -⟩ := exists_between remains.symm short
  have unbroken : '\n' ∉ first := fun member =>
    isLine.unbroken (longer ▸ List.mem_append_left rest member)
  have last : lastLine before = first := by
    rw [split, lastLine_append isLine.starts unbroken]
  refine ⟨front, line, rest, behind, by rw [last, split], by rw [last, longer], ?_, isLine⟩
  rw [split, List.count_append, List.count_eq_zero.mpr unbroken, Nat.add_zero]

/-! ### The order of places -/

/-- One more character leads to a later place. -/
theorem toLex_place_lt_concat (text : List Char) (c : Char) :
    toLex (place text) < toLex (place (text ++ [c])) := by
  rw [Prod.Lex.toLex_lt_toLex, place, place]
  by_cases feed : c = '\n'
  · refine Or.inl ?_
    rw [feed, List.count_append, List.count_singleton_self]
    exact Nat.lt_succ_self _
  · refine Or.inr ⟨?_, ?_⟩
    · rw [List.count_append, List.count_singleton, if_neg (by simpa using feed), Nat.add_zero]
    · rw [lastLine_concat feed, List.length_append, List.length_singleton]
      exact Nat.lt_succ_self _

/-- **A longer text leads to a later place.** -/
theorem toLex_place_lt {more : List Char} (nonempty : more ≠ []) (text : List Char) :
    toLex (place text) < toLex (place (text ++ more)) := by
  induction more generalizing text with
  | nil => exact absurd rfl nonempty
  | cons c more ih =>
    have step := toLex_place_lt_concat text c
    by_cases last : more = []
    · rwa [last]
    · have later := ih last (text ++ [c])
      rw [List.append_assoc, List.singleton_append] at later
      exact lt_trans step later

end Text

namespace SourceFile

variable {file : SourceFile}

/-! ### Computed places -/

/-- **The place that is computed for a position is the one behind the text before it.** -/
theorem lineColumn_behind {before after : List Char} (small : Text.size file.content < maxWord)
    (whole : file.content = before ++ after) :
    file.lineColumn (Text.size before) = .ok (Text.place before) := by
  obtain ⟨front, line, rest, behind, split, longer, number, isLine⟩ :=
    Text.exists_isLine_behind whole
  have width : Text.size before = Text.size front + Text.size (Text.lastLine before) := by
    rw [← Text.size_append, ← split]
  have start : file.lineStart (Text.size before) = (before.count '\n', Text.size front) := by
    rw [number]
    refine lineStart_of_isLine isLine (by omega) ?_
    rw [width, longer, Text.size_append, ← Nat.add_assoc]
    exact Nat.le_add_right _ _
  have slice : Text.slice? file.content (Text.size front) (Text.size before) =
      some (Text.lastLine before) := by
    rw [width, isLine.whole, longer, List.append_assoc, Text.slice?_append]
  have fits : addWords (Text.lastLine before).length 1 =
      .ok ((Text.lastLine before).length + 1) := by
    have short := Text.length_le_size (Text.lastLine before)
    rw [whole, Text.size_append] at small
    exact if_pos (by omega)
  simp only [lineColumn, start, slice, fits]
  show Except.ok (before.count '\n' + 1, (Text.lastLine before).length + 1) = _
  rw [Text.place, Nat.add_comm 1, Nat.add_comm 1]

/-- A position that is a place to cut has a place, the one behind the text before it. -/
theorem exists_behind {offset : Nat} (small : Text.size file.content < maxWord)
    (boundary : Text.isBoundary file.content offset = true) :
    ∃ before after, file.content = before ++ after ∧ Text.size before = offset ∧
      file.lineColumn offset = .ok (Text.place before) := by
  obtain ⟨before, after, whole, rfl⟩ := (Text.isBoundary_iff _ _).mp boundary
  exact ⟨before, after, whole, rfl, lineColumn_behind small whole⟩

/-- A later position has a later place. -/
theorem toLex_lt_of_lt {first second : Nat} {place other : Nat × Nat}
    (small : Text.size file.content < maxWord)
    (boundary : Text.isBoundary file.content first = true)
    (boundary' : Text.isBoundary file.content second = true)
    (placed : file.lineColumn first = .ok place) (placed' : file.lineColumn second = .ok other)
    (earlier : first < second) : toLex place < toLex other := by
  obtain ⟨before, after, whole, rfl, found⟩ := exists_behind small boundary
  obtain ⟨longer, rest, whole', rfl, found'⟩ := exists_behind small boundary'
  obtain ⟨between, rfl, -⟩ := Text.exists_between (whole.symm.trans whole') (Nat.le_of_lt earlier)
  have nonempty : between ≠ [] := by
    rintro rfl
    rw [List.append_nil] at earlier
    exact Nat.lt_irrefl _ earlier
  cases found.symm.trans placed
  cases found'.symm.trans placed'
  exact Text.toLex_place_lt nonempty before

/-- **Places are in the order of the positions.** -/
theorem lt_iff_toLex_lt {first second : Nat} {place other : Nat × Nat}
    (small : Text.size file.content < maxWord)
    (boundary : Text.isBoundary file.content first = true)
    (boundary' : Text.isBoundary file.content second = true)
    (placed : file.lineColumn first = .ok place) (placed' : file.lineColumn second = .ok other) :
    first < second ↔ toLex place < toLex other := by
  refine ⟨toLex_lt_of_lt small boundary boundary' placed placed', fun ordered => ?_⟩
  rcases Nat.lt_trichotomy first second with earlier | rfl | later
  · exact earlier
  · cases placed.symm.trans placed'
    exact absurd ordered (lt_irrefl _)
  · have turned := toLex_lt_of_lt small boundary' boundary placed' placed later
    exact absurd turned (lt_asymm ordered)

/-! ### Places of ranges -/

/-- The place of a range has the line and the column of its start. -/
theorem lineColumn_of_location {span : Span} {location : Location}
    (located : file.location span = .ok location) :
    location.offset = span.start ∧
      file.lineColumn span.start = .ok (location.line, location.column) := by
  unfold SourceFile.location at located
  cases placed : file.lineColumn span.start with
  | error overflow => rw [placed] at located; cases located
  | ok place =>
    cases measured : span.length with
    | error overflow => rw [placed, measured] at located; cases located
    | ok length =>
      rw [placed, measured] at located
      cases located
      exact ⟨rfl, rfl⟩

/-- **A place was computed for a range of the file** that starts where the text can be cut. -/
def Locates (file : SourceFile) (location : Location) : Prop :=
  ∃ span, Text.isBoundary file.content span.start = true ∧ file.location span = .ok location

/-- Of two places that were computed, the one with the smaller position comes first. -/
theorem Locates.le_iff {location other : Location} (small : Text.size file.content < maxWord)
    (located : file.Locates location) (located' : file.Locates other) :
    location.offset ≤ other.offset ↔
      toLex (location.line, location.column) ≤ toLex (other.line, other.column) := by
  obtain ⟨span, boundary, found⟩ := located
  obtain ⟨span', boundary', found'⟩ := located'
  obtain ⟨start, placed⟩ := lineColumn_of_location found
  obtain ⟨start', placed'⟩ := lineColumn_of_location found'
  rw [← not_lt, ← not_lt, start, start', lt_iff_toLex_lt small boundary' boundary placed' placed]

/-- **Lines and columns are exact, and in the order of the positions.** The line of a position
counts the line feeds before it, and its column the characters behind the last of them; two
positions are in the same order as their places; and offenses that are sorted by their positions are
sorted by their places. -/
theorem lineColumn_isExact (file : SourceFile) (small : Text.size file.content < maxWord) :
    (∀ before after, file.content = before ++ after →
      file.lineColumn (Text.size before) =
        .ok (1 + before.count '\n', 1 + (Text.lastLine before).length)) ∧
    (∀ first second place other,
      Text.isBoundary file.content first = true → Text.isBoundary file.content second = true →
      file.lineColumn first = .ok place → file.lineColumn second = .ok other →
      (first < second ↔ toLex place < toLex other)) ∧
    ∀ offenses : List Offense, (∀ offense ∈ offenses, file.Locates offense.location) →
      (offenses.Pairwise (fun offense other => offense.location.offset ≤ other.location.offset) ↔
        offenses.Pairwise fun offense other =>
          toLex (offense.location.line, offense.location.column) ≤
            toLex (other.location.line, other.location.column)) := by
  refine ⟨fun before after => lineColumn_behind small,
    fun first second place other => lt_iff_toLex_lt small, fun offenses located => ?_⟩
  exact List.Pairwise.iff_of_mem fun member member' =>
    (located _ member).le_iff small (located _ member')

end SourceFile

/-! ### Samples -/

namespace Sample

/-- A file with a first line of one wide character, an empty line, and a last line behind which a
line feed stands. -/
def wideFile : SourceFile where
  path := "/a.rb"
  content := ['é', '\n', '\n', '日', 'x', '\n']
  relativePath := "a.rb"
  year := 2024

/-- An offense at the line feed of the empty line. -/
def feedOffense : Offense :=
  ⟨"CL001", "feeds", .refactor, ⟨"a.rb", 2, 1, 3, 1⟩, "feed", none, false⟩

/-- An offense at the end of the file. -/
def endOffense : Offense :=
  ⟨"CL001", "feeds", .refactor, ⟨"a.rb", 4, 1, 9, 0⟩, "end", none, false⟩

/-- In a file with wide characters, places are those behind the text before the position, on an
empty line and at the end of the file as well. -/
theorem wideFile_places :
    Text.size wideFile.content < maxWord ∧ wideFile.lineColumn 7 = .ok (3, 2) ∧
      (3 < 7 ↔ toLex (2, 1) < toLex (3, 2)) ∧
      [feedOffense, endOffense].Pairwise fun offense other =>
        toLex (offense.location.line, offense.location.column) ≤
          toLex (other.location.line, other.location.column) := by
  have small : Text.size wideFile.content < maxWord := by decide
  obtain ⟨exact, ordered, sorted⟩ := SourceFile.lineColumn_isExact wideFile small
  have second : wideFile.lineColumn 3 = .ok (2, 1) := exact ['é', '\n'] ['\n', '日', 'x', '\n'] rfl
  have third : wideFile.lineColumn 7 = .ok (3, 2) := exact ['é', '\n', '\n', '日'] ['x', '\n'] rfl
  refine ⟨small, third, ordered 3 7 _ _ (by decide) (by decide) second third,
    (sorted _ ?_).mp (by decide)⟩
  have last : wideFile.lineColumn 9 = .ok (4, 1) := exact wideFile.content [] rfl
  rw [List.forall_mem_cons, List.forall_mem_singleton]
  refine ⟨⟨⟨3, 4⟩, by decide, ?_⟩, ⟨⟨9, 9⟩, by decide, ?_⟩⟩
  · rw [SourceFile.location, second]
    rfl
  · rw [SourceFile.location, last]
    rfl

end Sample

end RecipeLint
