/-
**The order of changes.**

Changes are made in the order of their ranges, and only neighbours in that order are compared. This
module says why that is enough: among ranges that do not end before they start, being in order and
not overlapping is the same as one range ending where, or before, the next one starts
(`Span.Precedes`), and this relation passes from neighbours to all pairs.

* `Span.le_and_disjoint_iff` — in order and without overlap is `Span.Precedes`.
* `Patch.overlap?_eq_none_iff` — the test of neighbours finds nothing exactly if no two ranges of
  the whole list overlap.
* `Edit.pairwise_sorted_iff` — whether two changes overlap does not depend on the order in which
  the changes are given.
-/

import RecipeLint.Patch

namespace RecipeLint

/-! ### Two ranges -/

namespace Span

/-- A range does not end before it starts. -/
def IsOrdered (span : Span) : Prop := span.start ≤ span.stop

/-- A range ends before the other one starts, or right there, and the two are not empty at one
place. -/
def Precedes (first second : Span) : Prop :=
  first.stop ≤ second.start ∧ first.start < second.stop

/-- Two ranges overlap if they share a byte or are empty at one place. -/
theorem overlaps_iff (first second : Span) :
    first.overlaps second = true ↔
      (first.start < second.stop ∧ second.start < first.stop) ∨
        (first.start = first.stop ∧ second.start = second.stop ∧ first.start = second.start) := by
  simp only [overlaps, isEmpty, Bool.or_eq_true, Bool.and_eq_true, decide_eq_true_eq, beq_iff_eq,
    and_assoc]

/-- A range overlaps another if that one overlaps it. -/
theorem overlaps_comm (first second : Span) :
    first.overlaps second = second.overlaps first := by
  rw [Bool.eq_iff_iff, overlaps_iff, overlaps_iff]
  omega

theorem le_iff (first second : Span) :
    first.le second = true ↔
      first.start < second.start ∨ (first.start = second.start ∧ first.stop ≤ second.stop) := by
  simp only [le, Bool.or_eq_true, Bool.and_eq_true, decide_eq_true_eq, beq_iff_eq]

theorem le_trans (first second third : Span) (before : first.le second = true)
    (after : second.le third = true) : first.le third = true := by
  rw [le_iff] at before after ⊢
  omega

theorem le_total (first second : Span) : (first.le second || second.le first) = true := by
  rw [Bool.or_eq_true, le_iff, le_iff]
  omega

/-- **In order and without overlap, a range ends before the next one starts.** An empty range at
the edge of another one is on its proper side of it, and of two empty ranges at one place neither
precedes the other. -/
theorem le_and_disjoint_iff {first second : Span} (firstOrdered : first.IsOrdered)
    (secondOrdered : second.IsOrdered) :
    first.le second = true ∧ first.overlaps second = false ↔ first.Precedes second := by
  rw [← Bool.not_eq_true, overlaps_iff, le_iff]
  unfold IsOrdered at firstOrdered secondOrdered
  unfold Precedes
  omega

theorem Precedes.trans {first second third : Span} (secondOrdered : second.IsOrdered)
    (thirdOrdered : third.IsOrdered) (before : first.Precedes second)
    (after : second.Precedes third) : first.Precedes third := by
  unfold IsOrdered at secondOrdered thirdOrdered
  unfold Precedes at before after ⊢
  omega

end Span

/-! ### Changes in order -/

namespace Edit

/-- The sorted changes are in the order of their ranges. -/
theorem sorted_pairwise_le (edits : List Edit) :
    (sorted edits).Pairwise fun first second => first.range.le second.range = true :=
  List.pairwise_mergeSort
    (fun first second third => Span.le_trans first.range second.range third.range)
    (fun first second => Span.le_total first.range second.range) edits

/-- Sorting loses no change and makes up none. -/
theorem sorted_perm (edits : List Edit) : (sorted edits).Perm edits :=
  List.mergeSort_perm edits _

theorem mem_sorted {edits : List Edit} {edit : Edit} : edit ∈ sorted edits ↔ edit ∈ edits :=
  (sorted_perm edits).mem_iff

/-- The changes of a list do not overlap, each compared with every other. -/
def Disjoint (edits : List Edit) : Prop :=
  edits.Pairwise fun first second => first.range.overlaps second.range = false

/-- **Whether two changes overlap does not depend on the order in which they are given.** -/
theorem pairwise_sorted_iff (edits : List Edit) : Disjoint (sorted edits) ↔ Disjoint edits :=
  (sorted_perm edits).pairwise_iff fun {first second} apart => by
    rw [Span.overlaps_comm]
    exact apart

/-- Changes in order that do not overlap precede one another, each all that follow. -/
theorem pairwise_precedes {edits : List Edit} (ordered : ∀ edit ∈ edits, edit.range.IsOrdered)
    (inOrder : edits.Pairwise fun first second => first.range.le second.range = true)
    (disjoint : Disjoint edits) :
    edits.Pairwise fun first second => first.range.Precedes second.range :=
  (inOrder.and disjoint).imp_of_mem fun firstMember secondMember both =>
    (Span.le_and_disjoint_iff (ordered _ firstMember) (ordered _ secondMember)).mp both

end Edit

namespace Patch

/-- Neighbours that do not overlap precede each other, and so does every earlier change every later
one: the induction carries `Span.Precedes`, which passes through the neighbour. -/
theorem precedes_of_overlap?_eq_none {edits : List Edit}
    (ordered : ∀ edit ∈ edits, edit.range.IsOrdered)
    (inOrder : edits.Pairwise fun first second => first.range.le second.range = true)
    (clear : overlap? edits = none) :
    edits.Pairwise fun first second => first.range.Precedes second.range := by
  induction edits with
  | nil => exact List.Pairwise.nil
  | cons first rest ih =>
    cases rest with
    | nil => exact List.pairwise_singleton _ _
    | cons second tail =>
      rw [overlap?] at clear
      split at clear
      next => cases clear
      next apart =>
        have orderedRest : ∀ edit ∈ second :: tail, edit.range.IsOrdered :=
          fun edit member => ordered edit (List.mem_cons_of_mem _ member)
        have restPrecedes := ih orderedRest (List.Pairwise.of_cons inOrder) clear
        have neighbours : first.range.Precedes second.range :=
          (Span.le_and_disjoint_iff (ordered first List.mem_cons_self)
            (orderedRest second List.mem_cons_self)).mp
            ⟨List.rel_of_pairwise_cons inOrder List.mem_cons_self, Bool.not_eq_true _ ▸ apart⟩
        refine List.Pairwise.cons (fun edit member => ?_) restPrecedes
        rcases List.mem_cons.mp member with rfl | later
        · exact neighbours
        · exact neighbours.trans (orderedRest second List.mem_cons_self) (orderedRest edit member)
            (List.rel_of_pairwise_cons restPrecedes later)

/-- **Comparing neighbours is enough.** Of changes in order, no two neighbours overlap exactly if
no two changes do. -/
theorem overlap?_eq_none_iff {edits : List Edit}
    (ordered : ∀ edit ∈ edits, edit.range.IsOrdered)
    (inOrder : edits.Pairwise fun first second => first.range.le second.range = true) :
    overlap? edits = none ↔ Edit.Disjoint edits := by
  constructor
  · intro clear
    refine (precedes_of_overlap?_eq_none ordered inOrder clear).imp_of_mem
      fun firstMember secondMember precedes => ?_
    exact ((Span.le_and_disjoint_iff (ordered _ firstMember) (ordered _ secondMember)).mpr
      precedes).2
  · intro disjoint
    induction edits with
    | nil => rfl
    | cons first rest ih =>
      cases rest with
      | nil => rfl
      | cons second tail =>
        have apart : first.range.overlaps second.range = false :=
          List.rel_of_pairwise_cons disjoint List.mem_cons_self
        rw [overlap?, apart]
        exact ih (fun edit member => ordered edit (List.mem_cons_of_mem _ member))
          (List.Pairwise.of_cons inOrder) (List.Pairwise.of_cons disjoint)

end Patch

end RecipeLint
