/-
**Changes one at a time.**

Corrections are made all at once, in one walk over the text. The same comes out if they are made one
at a time, each to the text that the one before left, from the last place of the text to the first:
a correction moves only what stands behind it, so the ranges that are still to come mean the same in
the changed text. An insertion at the start of another range has the smaller end and comes after it
in this order; one at the end of another range has the larger start and comes before it.

* `Patch.applyEach` — corrections made one at a time.
* `Patch.splice_behind` — what stands before all changes is left as it is.
* `Patch.applyEach_reverse` — one at a time from behind is the one walk.
* `Patch.apply_eq_applyEach` — accepted corrections: one at a time, the size of the result, and what
  it keeps of the text.
-/

import Mathlib
import RecipeLint.Proofs.Patch.Stretch

namespace RecipeLint

/-- Corrections from the last range of the text to the first, by their starts and then by their
ends. -/
def Correction.descending (corrections : List Correction) : List Correction :=
  corrections.mergeSort fun first second => second.span.le first.span

namespace Patch

/-- The text after corrections that are made one at a time, each alone to the text that the one
before left. The first one that is refused ends it. -/
def applyEach (text : String) : List Correction → Except Overflow (Except PatchError String)
  | [] => .ok (.ok text)
  | correction :: corrections =>
    match apply text [correction] with
    | .ok (.ok changed) => applyEach changed corrections
    | refused => refused

variable {text result : String} {corrections : List Correction} {correction : Correction}

/-- Corrections that follow others are made to the text that those left. -/
theorem applyEach_append {first : List Correction} (second : List Correction) {changed : String}
    (made : applyEach text first = .ok (.ok changed)) :
    applyEach text (first ++ second) = applyEach changed second := by
  induction first generalizing text with
  | nil =>
    cases made
    rfl
  | cons correction rest ih =>
    rw [applyEach] at made
    rw [List.cons_append, applyEach]
    split at made
    next here => exact ih made
    next refused => exact absurd made (refused changed)

/-! ### One change -/

/-- Changes leave everything before them as it is. -/
theorem splice_behind (taken : List Char) {skipped rest : List Char} {edits : List Edit}
    (cuts : ∀ edit ∈ edits, edit.range.CutsOut (taken ++ (skipped ++ rest)))
    (behind : ∀ edit ∈ edits, Text.size (taken ++ skipped) ≤ edit.range.start) :
    splice (Text.size taken) (skipped ++ rest) edits =
      skipped ++ splice (Text.size (taken ++ skipped)) rest edits := by
  cases edits with
  | nil => rfl
  | cons edit edits =>
    -- the first change alone looks back: the later ones start from where it ends
    obtain ⟨before, inside, after, whole, startAt, stopAt⟩ := cuts edit List.mem_cons_self
    have reached : Text.size (taken ++ skipped) ≤ Text.size before := by
      rw [startAt]
      exact behind edit List.mem_cons_self
    obtain ⟨kept, rfl, rfl⟩ :=
      Text.exists_between ((List.append_assoc taken skipped rest).trans whole) reached
    rw [splice_cons (taken ++ skipped) kept inside after edit edits startAt stopAt]
    rw [List.append_assoc taken skipped kept] at startAt stopAt
    rw [← List.append_assoc skipped kept,
      splice_cons taken (skipped ++ kept) inside after edit edits startAt stopAt]
    simp only [List.append_assoc]

/-- **The step.** A change that stands before others finds its range where it was after these are
made, and making it then is making it together with them. -/
theorem splice_before {text : List Char} {edit : Edit} {edits : List Edit}
    (cuts : edit.range.CutsOut text) (cutsLater : ∀ later ∈ edits, later.range.CutsOut text)
    (before : ∀ later ∈ edits, edit.range.Precedes later.range) :
    edit.range.CutsOut (splice 0 text edits) ∧
      splice 0 (splice 0 text edits) [edit] = splice 0 text (edit :: edits) := by
  obtain ⟨head, inside, after, rfl, startAt, stopAt⟩ := cuts
  have headSize : Text.size (head ++ inside) = edit.range.stop := by
    rw [Text.size_append, stopAt]
  have changed : splice 0 (head ++ (inside ++ after)) edits =
      head ++ (inside ++ splice edit.range.stop after edits) := by
    rw [← List.append_assoc] at cutsLater
    have skipped : splice 0 ((head ++ inside) ++ after) edits =
        (head ++ inside) ++ splice (Text.size (head ++ inside)) after edits :=
      splice_behind [] cutsLater fun later member => headSize ▸ (before later member).1
    rw [headSize, List.append_assoc, List.append_assoc] at skipped
    exact skipped
  have together : splice 0 (head ++ (inside ++ after)) (edit :: edits) =
      head ++ edit.newText ++ splice edit.range.stop after edits :=
    splice_cons [] head inside after edit edits startAt stopAt
  have alone : splice 0 (head ++ (inside ++ splice edit.range.stop after edits)) [edit] =
      head ++ edit.newText ++ splice edit.range.stop after edits :=
    splice_cons [] head inside _ edit [] startAt stopAt
  rw [changed, together, alone]
  exact ⟨⟨head, inside, _, rfl, startAt, stopAt⟩, rfl⟩

/-- A single correction that is cut out of the text is made. -/
theorem apply_singleton (fits : correction.Fits) (cuts : correction.span.CutsOut text.toList) :
    apply text [correction] =
      .ok (.ok (String.ofList (splice 0 text.toList [correction.toEdit]))) := by
  have made : applyEdits text.toList [correction.toEdit] =
      .ok (splice 0 text.toList [correction.toEdit]) := by
    refine (applyEdits_eq_ok_iff ?_).mpr ⟨⟨?_, List.pairwise_singleton _ _⟩, ?_⟩
    · exact List.forall_mem_singleton.mpr correction.span_isOrdered
    · exact List.forall_mem_singleton.mpr cuts
    · rw [Edit.sorted, List.mergeSort_singleton]
  have fitsAll : ∀ other ∈ [correction], other.Fits := List.forall_mem_singleton.mpr fits
  rw [apply_of_fits text fitsAll, List.map_singleton, made]
  rfl

/-! ### All changes -/

/-- **The run.** Corrections that precede one another are made one at a time, from behind, as in one
walk over the text. -/
theorem applyEach_reverse (fits : ∀ correction ∈ corrections, correction.Fits)
    (cuts : ∀ correction ∈ corrections, correction.span.CutsOut text.toList)
    (precedes : corrections.Pairwise fun first second => first.span.Precedes second.span) :
    applyEach text corrections.reverse =
      .ok (.ok (String.ofList (splice 0 text.toList (corrections.map Correction.toEdit)))) := by
  induction corrections with
  | nil =>
    rw [List.map_nil, splice, String.ofList_toList]
    rfl
  | cons correction later ih =>
    have made := ih (fun other member => fits other (List.mem_cons_of_mem _ member))
      (fun other member => cuts other (List.mem_cons_of_mem _ member))
      (List.Pairwise.of_cons precedes)
    have cutsLater : ∀ edit ∈ later.map Correction.toEdit, edit.range.CutsOut text.toList :=
      List.forall_mem_map.mpr fun other member => cuts other (List.mem_cons_of_mem _ member)
    have before : ∀ edit ∈ later.map Correction.toEdit,
        correction.toEdit.range.Precedes edit.range :=
      List.forall_mem_map.mpr fun other member => List.rel_of_pairwise_cons precedes member
    obtain ⟨still, together⟩ := splice_before (cuts correction List.mem_cons_self) cutsLater before
    rw [← String.toList_ofList (l := splice 0 text.toList (later.map Correction.toEdit))] at still
    rw [List.reverse_cons, applyEach_append [correction] made, applyEach,
      apply_singleton (fits correction List.mem_cons_self) still, String.toList_ofList, together]
    rfl

/-- A correction with a range ends at a machine word. -/
theorem fits_of_edit {change : Edit} (made : edit correction = .ok change) : correction.Fits := by
  by_cases fits : correction.Fits
  · exact fits
  · have stop : correction.location.stop = .error .addition := if_neg fits
    rw [edit, Correction.range, stop] at made
    cases made

/-- Corrections that have an outcome end at machine words. -/
theorem fits_of_apply {outcome : Except PatchError String}
    (made : apply text corrections = .ok outcome) :
    ∀ correction ∈ corrections, correction.Fits := by
  have ranges : ∃ edits, corrections.mapM edit = .ok edits := by
    rw [apply] at made
    cases mapped : corrections.mapM edit with
    | error overflow =>
      rw [mapped] at made
      cases made
    | ok edits => exact ⟨edits, rfl⟩
  clear made
  induction corrections with
  | nil => exact fun correction member => (List.not_mem_nil member).elim
  | cons first rest ih =>
    obtain ⟨edits, mapped⟩ := ranges
    rw [List.mapM_cons] at mapped
    cases here : edit first with
    | error overflow =>
      rw [here] at mapped
      cases mapped
    | ok change =>
      cases later : rest.mapM edit with
      | error overflow =>
        rw [here, later] at mapped
        cases mapped
      | ok changes =>
        exact List.forall_mem_cons.mpr ⟨fits_of_edit here, ih ⟨changes, later⟩⟩

/-! ### The order from behind -/

/-- The range of a correction does not end before it starts. -/
theorem isOrdered_of_mem_map :
    ∀ edit ∈ corrections.map Correction.toEdit, edit.range.IsOrdered :=
  List.forall_mem_map.mpr fun correction _ => correction.span_isOrdered

/-- Corrections that do not overlap, from the first of the text to the last, precede one another. -/
theorem descending_reverse_precedes
    (disjoint : corrections.Pairwise fun first second =>
      first.span.overlaps second.span = false) :
    (Correction.descending corrections).reverse.Pairwise fun first second =>
      first.span.Precedes second.span := by
  have descends : (Correction.descending corrections).Pairwise fun first second =>
      second.span.le first.span = true :=
    List.pairwise_mergeSort
      (fun first second third before after =>
        Span.le_trans third.span second.span first.span after before)
      (fun first second => Span.le_total second.span first.span) corrections
  have apart : (Correction.descending corrections).Pairwise fun first second =>
      first.span.overlaps second.span = false :=
    ((List.mergeSort_perm corrections _).pairwise_iff fun {first second} clear => by
      rw [Span.overlaps_comm]
      exact clear).mpr disjoint
  rw [List.pairwise_reverse]
  refine (descends.and apart).imp fun {first second} both => ?_
  refine (Span.le_and_disjoint_iff second.span_isOrdered first.span_isOrdered).mp ⟨both.1, ?_⟩
  rw [Span.overlaps_comm]
  exact both.2

/-- There is one order in which corrections that do not overlap precede one another, so the order
from behind, reversed, is the order of the walk. -/
theorem sorted_map_toEdit
    (disjoint : corrections.Pairwise fun first second =>
      first.span.overlaps second.span = false) :
    Edit.sorted (corrections.map Correction.toEdit) =
      (Correction.descending corrections).reverse.map Correction.toEdit := by
  have ordered : ∀ edit ∈ Edit.sorted (corrections.map Correction.toEdit),
      edit.range.IsOrdered :=
    fun edit member => isOrdered_of_mem_map edit (Edit.mem_sorted.mp member)
  have walk : (Edit.sorted (corrections.map Correction.toEdit)).Pairwise fun first second =>
      first.range.Precedes second.range :=
    Edit.pairwise_precedes ordered (Edit.sorted_pairwise_le _)
      ((Edit.pairwise_sorted_iff _).mpr (List.pairwise_map.mpr disjoint))
  have reversed : ((Correction.descending corrections).reverse.map
      Correction.toEdit).Pairwise fun first second => first.range.Precedes second.range :=
    List.pairwise_map.mpr (descending_reverse_precedes disjoint)
  have same : (Edit.sorted (corrections.map Correction.toEdit)).Perm
      ((Correction.descending corrections).reverse.map Correction.toEdit) :=
    (Edit.sorted_perm _).trans
      (((List.reverse_perm _).trans (List.mergeSort_perm _ _)).map _).symm
  refine same.eq_of_pairwise (fun first second _ _ before after => ?_) walk reversed
  -- of two changes at most one precedes the other
  unfold Span.Precedes at before after
  omega

/-! ### The parts of the result -/

section InOrder

variable (cuts : ∀ correction ∈ corrections, correction.span.CutsOut text.toList)
  (precedes : corrections.Pairwise fun first second => first.span.Precedes second.span)

include cuts precedes

/-- One walk over the text finds every slice between corrections that precede one another. -/
theorem weave?_map_toEdit :
    weave? text.toList 0 (corrections.map Correction.toEdit) =
      some (splice 0 text.toList (corrections.map Correction.toEdit)) := by
  have cutsEdits : ∀ edit ∈ corrections.map Correction.toEdit,
      edit.range.CutsOut ([] ++ text.toList) := List.forall_mem_map.mpr cuts
  exact weave?_eq_splice cutsEdits (List.pairwise_map.mpr precedes) fun _ _ => Nat.zero_le _

/-- The size of the text after corrections that precede one another. -/
theorem size_splice :
    Text.size (splice 0 text.toList (corrections.map Correction.toEdit)) +
        (corrections.map (·.location.length)).sum =
      Text.size text.toList + (corrections.map fun correction =>
        Text.size correction.newText.toList).sum := by
  have measured := size_weave? isOrdered_of_mem_map (weave?_map_toEdit cuts precedes)
  have lengths : (fun edit : Edit => edit.range.stop - edit.range.start) ∘ Correction.toEdit =
      fun correction => correction.location.length :=
    funext fun correction => Nat.add_sub_cancel_left _ _
  rw [Nat.add_zero, List.map_map, List.map_map, lengths] at measured
  exact measured

/-- The text after corrections that precede one another consists of parts of the text, among them
every stretch that is left alone, and of the new texts in turn. -/
theorem splice_eq_interleave :
    ∃ (spans : List Span) (pieces : List (List Char)),
      (∀ span, IsStretch (corrections.map Correction.span) (Text.size text.toList) span →
        span ∈ spans) ∧
      spans.Pairwise (fun first second => first.stop ≤ second.start) ∧
      spans.mapM (fun span => Text.slice? text.toList span.start span.stop) = some pieces ∧
      splice 0 text.toList (corrections.map Correction.toEdit) =
        interleave pieces (corrections.map (·.newText.toList)) := by
  have bounded : ∀ edit ∈ corrections.map Correction.toEdit,
      edit.range.stop ≤ Text.size text.toList :=
    List.forall_mem_map.mpr fun correction member => (cuts correction member).stop_le
  have woven := weave?_map_toEdit cuts precedes
  obtain ⟨pieces, sliced, interleaved⟩ := weave?_pieces woven
  refine ⟨_, pieces, fun span stretch => ?_, keptSpans_pairwise isOrdered_of_mem_map woven,
    sliced, ?_⟩
  · refine mem_keptSpans_of_isStretch isOrdered_of_mem_map (List.pairwise_map.mpr precedes) bounded
      woven ?_
    rw [List.map_map]
    exact stretch
  · rw [List.map_map] at interleaved
    exact interleaved

end InOrder

/-! ### Accepted corrections -/

/-- What acceptance says of corrections: they end at machine words, are cut out of the text and do
not overlap, and one walk makes them in their order. -/
theorem of_apply_eq_ok (accepted : apply text corrections = .ok (.ok result)) :
    (∀ correction ∈ corrections, correction.Fits) ∧
      (∀ correction ∈ corrections, correction.span.CutsOut text.toList) ∧
      (corrections.Pairwise fun first second => first.span.overlaps second.span = false) ∧
      result = String.ofList (splice 0 text.toList
        ((Correction.descending corrections).reverse.map Correction.toEdit)) := by
  have fits := fits_of_apply accepted
  rw [apply_of_fits text fits] at accepted
  cases outcome : applyEdits text.toList (corrections.map Correction.toEdit) with
  | error refusal =>
    rw [outcome] at accepted
    cases accepted
  | ok changed =>
    rw [outcome] at accepted
    cases accepted
    obtain ⟨conditions, rfl⟩ := (applyEdits_eq_ok_iff isOrdered_of_mem_map).mp outcome
    obtain ⟨cuts, disjoint⟩ := (accepted_map_toEdit_iff _ _).mp conditions
    exact ⟨fits, cuts, disjoint, by rw [sorted_map_toEdit disjoint]⟩

/-- **Accepted corrections are made as one at a time, from the last of the text to the first.** The
size of the result is that of the text less the sizes of the ranges and with those of the new texts,
and the result consists of parts of the text and of the new texts in turn: every stretch of the text
that the corrections leave alone is one of these parts, unchanged, and the parts are in their
order. -/
theorem apply_eq_applyEach (accepted : apply text corrections = .ok (.ok result)) :
    applyEach text (Correction.descending corrections) = .ok (.ok result) ∧
      Text.size result.toList + (corrections.map (·.location.length)).sum =
        Text.size text.toList + (corrections.map fun correction =>
          Text.size correction.newText.toList).sum ∧
      ∃ (spans : List Span) (pieces : List (List Char)),
        (∀ span, IsStretch (corrections.map Correction.span) (Text.size text.toList) span →
          span ∈ spans) ∧
        spans.Pairwise (fun first second => first.stop ≤ second.start) ∧
        spans.mapM (fun span => Text.slice? text.toList span.start span.stop) = some pieces ∧
        result.toList = interleave pieces
          ((Correction.descending corrections).reverse.map (·.newText.toList)) := by
  obtain ⟨fits, cuts, disjoint, rfl⟩ := of_apply_eq_ok accepted
  have perm : (Correction.descending corrections).reverse.Perm corrections :=
    (List.reverse_perm _).trans (List.mergeSort_perm _ _)
  have precedes := descending_reverse_precedes disjoint
  have fitsInOrder := fun correction member => fits correction (perm.mem_iff.mp member)
  have cutsInOrder := fun correction member => cuts correction (perm.mem_iff.mp member)
  have each := applyEach_reverse fitsInOrder cutsInOrder precedes
  rw [List.reverse_reverse] at each
  have measured := size_splice cutsInOrder precedes
  rw [(perm.map _).sum_nat, (perm.map _).sum_nat] at measured
  obtain ⟨spans, pieces, kept, inOrder, sliced, interleaved⟩ :=
    splice_eq_interleave cutsInOrder precedes
  rw [String.toList_ofList]
  refine ⟨each, measured, spans, pieces, fun span stretch => ?_, inOrder, sliced, interleaved⟩
  exact kept span (stretch.of_perm (perm.map _).symm)

/-- The insertions at the edges of another range are made one at a time as well. -/
theorem edgeCorrections_applyEach :
    apply "aéb" edgeCorrections = .ok (.ok "^a<e>b") ∧
      applyEach "aéb" (Correction.descending edgeCorrections) = .ok (.ok "^a<e>b") := by
  have accepted : apply "aéb" edgeCorrections = .ok (.ok "^a<e>b") := by cbv
  exact ⟨accepted, (apply_eq_applyEach accepted).1⟩

end Patch

end RecipeLint
