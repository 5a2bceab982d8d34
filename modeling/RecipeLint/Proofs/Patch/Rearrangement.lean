/-
**The order in which corrections are given.**

Corrections are put in the order of their ranges before anything is decided. Ranges in order are the
same list however they were given, and the check looks at nothing but ranges; so the reason for a
refusal is always the same. Two corrections of one range may have changed places, but two such
corrections overlap. If the corrections are accepted there is only one order in which they precede
one another, and the changed text is the same as well.

* `Edit.sorted_ranges_perm` — the ranges in order do not depend on the order in which changes are
  given.
* `Patch.check_congr` — the check depends on the ranges only.
* `Edit.sorted_perm_of_disjoint` — nor does the order of changes that do not overlap.
* `Patch.apply_perm` — corrections in another order have the same outcome.
* `Patch.apply_of_precedes` — the changed text, if they precede one another in some order.
-/

import Mathlib
import RecipeLint.Proofs.Patch.Acceptance

namespace RecipeLint

theorem Span.le_antisymm {first second : Span} (before : first.le second = true)
    (after : second.le first = true) : first = second := by
  rw [le_iff] at before after
  have starts : first.start = second.start := by omega
  have stops : first.stop = second.stop := by omega
  cases first
  cases second
  simp_all

/-! ### Changes in order -/

namespace Edit

variable {edits rearranged : List Edit}

/-- **The ranges in order do not depend on the order in which changes are given.** -/
theorem sorted_ranges_perm (same : edits.Perm rearranged) :
    (sorted edits).map Edit.range = (sorted rearranged).map Edit.range := by
  have ranges : ((sorted edits).map Edit.range).Perm ((sorted rearranged).map Edit.range) :=
    (((sorted_perm edits).trans same).trans (sorted_perm rearranged).symm).map Edit.range
  have inOrder (changes : List Edit) : ((sorted changes).map Edit.range).Pairwise
      fun first second => first.le second = true :=
    List.pairwise_map.mpr (sorted_pairwise_le changes)
  exact ranges.eq_of_pairwise (fun _ _ _ _ => Span.le_antisymm) (inOrder edits)
    (inOrder rearranged)

/-- **Changes that do not overlap are put in one order**, however they are given: of two of them at
most one precedes the other. -/
theorem sorted_perm_of_disjoint (ordered : ∀ edit ∈ edits, edit.range.IsOrdered)
    (disjoint : Disjoint edits) (same : edits.Perm rearranged) :
    sorted edits = sorted rearranged := by
  have disjointToo : Disjoint rearranged :=
    (same.pairwise_iff fun {first second} apart => by
      rw [Span.overlaps_comm]
      exact apart).mp disjoint
  have precedes (changes : List Edit) (orderedChanges : ∀ edit ∈ changes, edit.range.IsOrdered)
      (apart : Disjoint changes) :
      (sorted changes).Pairwise fun first second => first.range.Precedes second.range :=
    pairwise_precedes (fun edit member => orderedChanges edit (mem_sorted.mp member))
      (sorted_pairwise_le changes) ((pairwise_sorted_iff changes).mpr apart)
  have sortedSame : (sorted edits).Perm (sorted rearranged) :=
    ((sorted_perm edits).trans same).trans (sorted_perm rearranged).symm
  refine sortedSame.eq_of_pairwise (fun first second _ _ before after => ?_)
    (precedes edits ordered disjoint)
    (precedes rearranged (fun edit member => ordered edit (same.mem_iff.mpr member)) disjointToo)
  unfold Span.Precedes at before after
  omega

end Edit

/-! ### The check -/

namespace Patch

variable {edits others : List Edit}

theorem overlap?_congr (same : edits.map Edit.range = others.map Edit.range) :
    overlap? edits = overlap? others := by
  induction edits generalizing others with
  | nil => rw [List.map_eq_nil_iff.mp same.symm]
  | cons first rest ih =>
    obtain ⟨other, otherRest, rfl, sameFirst, sameRest⟩ := List.map_eq_cons_iff.mp same.symm
    have later := ih sameRest.symm
    cases rest with
    | nil => rw [List.map_eq_nil_iff.mp sameRest]; rfl
    | cons second tail =>
      obtain ⟨otherSecond, otherTail, rfl, sameSecond, -⟩ := List.map_eq_cons_iff.mp sameRest
      rw [overlap?, overlap?, sameFirst, sameSecond, later]

theorem find?_range_congr (outside : Span → Bool)
    (same : edits.map Edit.range = others.map Edit.range) :
    (edits.find? fun edit => outside edit.range).map Edit.range =
      (others.find? fun edit => outside edit.range).map Edit.range := by
  have found (changes : List Edit) : (changes.find? fun edit => outside edit.range).map Edit.range =
      (changes.map Edit.range).find? outside := List.find?_map.symm
  rw [found edits, found others, same]

/-- **The check depends on the ranges only.** What it says about a refusal names ranges, never a new
text. -/
theorem check_congr (text : List Char) (same : edits.map Edit.range = others.map Edit.range) :
    check text edits = check text others := by
  have outside := find?_range_congr (fun range => !range.isWithin text) same
  unfold check
  rw [overlap?_congr same]
  cases first : edits.find? fun edit => !edit.range.isWithin text with
  | none =>
    rw [first, Option.map_none, eq_comm, Option.map_eq_none_iff] at outside
    rw [outside]
  | some edit =>
    rw [first, Option.map_some, eq_comm, Option.map_eq_some_iff] at outside
    obtain ⟨other, second, sameRange⟩ := outside
    simp only [second, sameRange]

/-- Changes in another order have the same outcome. -/
theorem applyEdits_perm (text : List Char) (ordered : ∀ edit ∈ edits, edit.range.IsOrdered)
    (same : edits.Perm others) : applyEdits text edits = applyEdits text others := by
  have sameCheck : check text (Edit.sorted edits) = check text (Edit.sorted others) :=
    check_congr text (Edit.sorted_ranges_perm same)
  simp only [applyEdits, ← sameCheck]
  cases checked : check text (Edit.sorted edits) with
  | error refusal => rfl
  | ok =>
    -- only accepted changes get their new texts written, and these have one order
    have orderedSorted : ∀ edit ∈ Edit.sorted edits, edit.range.IsOrdered :=
      fun edit member => ordered edit (Edit.mem_sorted.mp member)
    have disjoint : Edit.Disjoint edits :=
      (Edit.pairwise_sorted_iff edits).mp
        ((check_eq_ok_iff orderedSorted (Edit.sorted_pairwise_le edits)).mp checked).2
    rw [Edit.sorted_perm_of_disjoint ordered disjoint same]

/-- **The order in which corrections are given does not count.** Corrections that end at machine
words have an outcome, the changed text or the reason for a refusal, and they have the same one in
any other order. -/
theorem apply_perm (text : String) (corrections rearranged : List Correction)
    (fits : ∀ correction ∈ corrections, correction.Fits) (same : corrections.Perm rearranged) :
    ∃ outcome : Except PatchError String,
      apply text corrections = .ok outcome ∧ apply text rearranged = .ok outcome := by
  have fitsToo : ∀ correction ∈ rearranged, correction.Fits :=
    fun correction member => fits correction (same.mem_iff.mpr member)
  have ordered : ∀ edit ∈ corrections.map Correction.toEdit, edit.range.IsOrdered :=
    List.forall_mem_map.mpr fun correction _ => correction.span_isOrdered
  refine ⟨_, apply_of_fits text fits, ?_⟩
  rw [apply_of_fits text fitsToo, applyEdits_perm text.toList ordered (same.map _)]

/-- **Corrections that precede one another in some order are made in that order.** -/
theorem apply_of_precedes {text : List Char} {corrections ordered : List Correction}
    (same : corrections.Perm ordered) (fits : ∀ correction ∈ ordered, correction.Fits)
    (cuts : ∀ correction ∈ ordered, correction.span.CutsOut text)
    (precedes : ordered.Pairwise fun first second => first.span.Precedes second.span) :
    apply (String.ofList text) corrections =
      .ok (.ok (String.ofList (splice 0 text (ordered.map Correction.toEdit)))) := by
  have both := precedes.imp fun {first second} before =>
    (Span.le_and_disjoint_iff first.span_isOrdered second.span_isOrdered).mpr before
  have inOrder : (ordered.map Correction.toEdit).Pairwise fun first second =>
      first.range.le second.range = true := List.pairwise_map.mpr (both.imp And.left)
  have sorted : Edit.sorted (ordered.map Correction.toEdit) = ordered.map Correction.toEdit :=
    List.mergeSort_of_pairwise inOrder
  have accepted := (accepted_map_toEdit_iff text ordered).mpr ⟨cuts, both.imp And.right⟩
  have areOrdered (corrections : List Correction) :
      ∀ edit ∈ corrections.map Correction.toEdit, edit.range.IsOrdered :=
    List.forall_mem_map.mpr fun correction _ => correction.span_isOrdered
  have made := (applyEdits_eq_ok_iff (areOrdered ordered)).mpr ⟨accepted, rfl⟩
  rw [apply_of_fits _ fun correction member => fits correction (same.mem_iff.mp member),
    String.toList_ofList, applyEdits_perm text (areOrdered corrections) (same.map _), made, sorted]
  rfl

/-- Corrections whose changes precede one another are made in their order. -/
theorem apply_of_edits {text : List Char} {corrections : List Correction} {edits : List Edit}
    (changes : corrections.map Correction.toEdit = edits) (small : Text.size text ≤ maxWord)
    (cuts : ∀ edit ∈ edits, edit.range.CutsOut text)
    (precedes : edits.Pairwise fun first second => first.range.Precedes second.range) :
    apply (String.ofList text) corrections =
      .ok (.ok (String.ofList (splice 0 text edits))) := by
  subst changes
  rw [List.pairwise_map] at precedes
  have each (correction : Correction) (member : correction ∈ corrections) :
      correction.span.CutsOut text := cuts _ (List.mem_map_of_mem member)
  exact apply_of_precedes (List.Perm.refl _)
    (fun correction member => Nat.le_trans (each correction member).stop_le small) each precedes

/-- Two different corrections of one range are refused in either order, with the same reason. -/
theorem apply_perm_tied :
    apply "ab" [⟨⟨"a.rb", 1, 1, 0, 1⟩, "x"⟩, ⟨⟨"a.rb", 1, 1, 0, 1⟩, "y"⟩] =
        .ok (.error (.overlapping ⟨0, 1⟩ ⟨0, 1⟩)) ∧
      apply "ab" [⟨⟨"a.rb", 1, 1, 0, 1⟩, "y"⟩, ⟨⟨"a.rb", 1, 1, 0, 1⟩, "x"⟩] =
        .ok (.error (.overlapping ⟨0, 1⟩ ⟨0, 1⟩)) := by
  have refused : apply "ab" [⟨⟨"a.rb", 1, 1, 0, 1⟩, "x"⟩, ⟨⟨"a.rb", 1, 1, 0, 1⟩, "y"⟩] =
      .ok (.error (.overlapping ⟨0, 1⟩ ⟨0, 1⟩)) := by cbv
  obtain ⟨outcome, given, swapped⟩ := apply_perm "ab"
    [⟨⟨"a.rb", 1, 1, 0, 1⟩, "x"⟩, ⟨⟨"a.rb", 1, 1, 0, 1⟩, "y"⟩]
    [⟨⟨"a.rb", 1, 1, 0, 1⟩, "y"⟩, ⟨⟨"a.rb", 1, 1, 0, 1⟩, "x"⟩] (by decide) (.swap _ _ _)
  rw [refused] at given
  cases given
  exact ⟨refused, swapped⟩

end Patch

end RecipeLint
