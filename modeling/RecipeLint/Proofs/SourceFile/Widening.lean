/-
**Ranges widened over the blanks before them.**

A range that is widened to the left takes in all blanks before it. So it reaches into another range
that ends before it exactly if that one ends in a blank and only blanks lead from there to it.

* `Span.RunsInto` — a range ends in a blank, and only blanks lead from there to another.
* `spaceToLeft_cutsOut` — a widened range is a part of the text.
* `runsInto_iff` — a widened range reaches into the ranges that run into it, and into no other.
-/

import Mathlib.Data.List.TakeWhile
import RecipeLint.Proofs.Node.Nesting
import RecipeLint.SourceFile

namespace RecipeLint

namespace Text

/-- A text is what is left without its trailing blanks, and these blanks. -/
theorem exists_trimEnd (text : List Char) :
    ∃ kept blanks, text = kept ++ blanks ∧ trimEnd text = kept ∧
      ∀ c ∈ blanks, isBlank c = true := by
  refine ⟨trimEnd text, (text.reverse.takeWhile isBlank).reverse, ?_, rfl, fun c member => ?_⟩
  · rw [trimEnd, ← List.reverse_append, List.takeWhile_append_dropWhile, List.reverse_reverse]
  · exact List.mem_takeWhile_imp (List.mem_reverse.mp member)

theorem size_trimEnd_le (text : List Char) : size (trimEnd text) ≤ size text := by
  obtain ⟨kept, blanks, rfl, trimmed, -⟩ := exists_trimEnd text
  rw [trimmed, size_append]
  exact Nat.le_add_right _ _

end Text

namespace Span

/-- **A range ends in a blank, and only blanks lead from there to another range.** -/
def RunsInto (source : List Char) (first second : Span) : Prop :=
  ∃ before blank gap after, source = before ++ blank :: (gap ++ after) ∧
    Text.isBlank blank = true ∧ (∀ c ∈ gap, Text.isBlank c = true) ∧
    Text.size before + blank.utf8Size = first.stop ∧ first.stop + Text.size gap = second.start

end Span

variable {source : List Char} {first second : Span}

/-- A widened range starts where the text before the range ends without its trailing blanks. -/
theorem spaceToLeft_of_append {before rest : List Char} {span : Span}
    (startAt : Text.size before = span.start) :
    spaceToLeft (before ++ rest) span = ⟨Text.size (Text.trimEnd before), span.stop⟩ := by
  rw [spaceToLeft, ← startAt, Text.take?_append]
  rfl

/-- A widened range is a part of the text. -/
theorem spaceToLeft_cutsOut {span : Span} (cuts : span.CutsOut source) :
    (spaceToLeft source span).CutsOut source := by
  obtain ⟨before, inside, after, rfl, startAt, stopAt⟩ := cuts
  obtain ⟨kept, blanks, rfl, trimmed, -⟩ := Text.exists_trimEnd before
  rw [spaceToLeft_of_append startAt, trimmed]
  refine ⟨kept, blanks ++ inside, after, by simp only [List.append_assoc], rfl, ?_⟩
  rw [Text.size_append, ← Nat.add_assoc, ← Text.size_append, stopAt]

theorem spaceToLeft_start_le {span : Span} (cuts : span.CutsOut source) :
    (spaceToLeft source span).start ≤ span.start := by
  obtain ⟨before, inside, after, rfl, startAt, -⟩ := cuts
  rw [spaceToLeft_of_append startAt, ← startAt]
  exact Text.size_trimEnd_le before

theorem spaceToLeft_start_lt (runs : first.RunsInto source second) :
    (spaceToLeft source second).start < first.stop := by
  obtain ⟨before, last, gap, rest, rfl, lastBlank, gapBlank, stopAt, gapAt⟩ := runs
  have blank : ∀ c ∈ last :: gap, Text.isBlank c = true :=
    List.forall_mem_cons.mpr ⟨lastBlank, gapBlank⟩
  have startAt : Text.size (before ++ last :: gap) = second.start := by
    rw [Text.size_append, Text.size_cons]
    omega
  have split : before ++ last :: (gap ++ rest) = (before ++ last :: gap) ++ rest := by simp
  rw [split, spaceToLeft_of_append startAt, Text.trimEnd_append_blank before blank]
  have kept := Text.size_trimEnd_le before
  have positive := last.utf8Size_pos
  show Text.size (Text.trimEnd before) < first.stop
  omega

/-- **A widened range reaches into the ranges before it that run into it, and into no other.** -/
theorem runsInto_iff (firstCuts : first.CutsOut source) (secondCuts : second.CutsOut source)
    (order : first.stop ≤ second.start) :
    first.RunsInto source second ↔ (spaceToLeft source second).start < first.stop := by
  refine ⟨spaceToLeft_start_lt, fun reaches => ?_⟩
  obtain ⟨upTo, inside, after, rfl, startAt, -⟩ := secondCuts
  obtain ⟨before, covered, rest, whole, -, stopAt⟩ := firstCuts
  rw [spaceToLeft_of_append startAt] at reaches
  obtain ⟨kept, blanks, rfl, trimmed, blank⟩ := Text.exists_trimEnd upTo
  rw [trimmed] at reaches
  change Text.size kept < first.stop at reaches
  rw [← Text.size_append] at stopAt
  rw [← stopAt] at reaches order
  -- What ends with the first range ends among the blanks.
  have texts : (before ++ covered) ++ rest = (kept ++ blanks) ++ (inside ++ after) := by
    rw [List.append_assoc]
    exact whole.symm
  obtain ⟨gap, upToSplit, -⟩ := Text.exists_between texts (startAt ▸ order)
  obtain ⟨reached, coveredSplit, rfl⟩ := Text.exists_between upToSplit (Nat.le_of_lt reaches)
  rcases List.eq_nil_or_concat reached with rfl | ⟨front, last, rfl⟩
  · rw [coveredSplit, List.append_nil] at reaches
    exact absurd reaches (Nat.lt_irrefl _)
  · refine ⟨kept ++ front, last, gap, inside ++ after, by simp, blank last (by simp),
      fun c member => blank c (by simp [member]), ?_, ?_⟩
    · rw [← stopAt, coveredSplit]
      simp [Nat.add_assoc]
    · rw [← startAt, ← stopAt, coveredSplit]
      simp [Nat.add_assoc]

end RecipeLint
