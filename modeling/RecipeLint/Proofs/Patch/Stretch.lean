/-
**What changes leave of a text.**

The changed text consists of parts of the text as it was and of new texts in turn. The parts are
what lies between the ranges of the changes, in order; every stretch of the text that no change
touches or divides, and that cannot be made longer, is one of them. So the size of the changed text
is known from the sizes of the ranges and of the new texts.

* `Patch.interleave` — parts and new texts in turn.
* `Patch.weave?_pieces` — the changed text from its parts.
* `Patch.size_weave?` — the size of the changed text.
* `Patch.IsStretch` — a stretch of a text that ranges leave alone.
* `Patch.mem_keptSpans_of_isStretch` — every such stretch is kept.
-/

import Mathlib.Algebra.GroupWithZero.Nat
import RecipeLint.Proofs.Patch.Acceptance

namespace RecipeLint.Patch

variable {text result : List Char} {cursor : Nat} {edit : Edit} {edits : List Edit}

/-! ### Parts and new texts -/

/-- Parts of a text and new texts in turn, a part first. -/
def interleave : List (List Char) → List (List Char) → List Char
  | [], _ => []
  | piece :: pieces, [] => piece ++ interleave pieces []
  | piece :: pieces, newText :: newTexts => piece ++ newText ++ interleave pieces newTexts

/-- The first change of a changed text: a part before it, its new text, and the rest. -/
theorem weave?_cons_eq_some (woven : weave? text cursor (edit :: edits) = some result) :
    ∃ kept rest, Text.slice? text cursor edit.range.start = some kept ∧
      weave? text edit.range.stop edits = some rest ∧ result = kept ++ edit.newText ++ rest := by
  rw [weave?] at woven
  obtain ⟨kept, slice, woven⟩ := Option.bind_eq_some_iff.mp woven
  obtain ⟨rest, later, woven⟩ := Option.bind_eq_some_iff.mp woven
  cases woven
  exact ⟨kept, rest, slice, later, rfl⟩

/-- **The changed text consists of the parts between the changes and of the new texts in turn.** -/
theorem weave?_pieces (woven : weave? text cursor edits = some result) :
    ∃ pieces, (keptSpans cursor (Text.size text) edits).mapM
        (fun span => Text.slice? text span.start span.stop) = some pieces ∧
      result = interleave pieces (edits.map (·.newText)) := by
  induction edits generalizing cursor result with
  | nil =>
    refine ⟨[result], ?_, (List.append_nil result).symm⟩
    rw [keptSpans, List.mapM_cons, List.mapM_nil]
    rw [weave?] at woven
    rw [woven]
    rfl
  | cons edit edits ih =>
    obtain ⟨kept, rest, slice, later, rfl⟩ := weave?_cons_eq_some woven
    obtain ⟨pieces, sliced, rfl⟩ := ih later
    refine ⟨kept :: pieces, ?_, rfl⟩
    rw [keptSpans, List.mapM_cons, slice, sliced]
    rfl

/-- **The size of the changed text**: what is replaced goes, what replaces it comes. -/
theorem size_weave? (ordered : ∀ edit ∈ edits, edit.range.IsOrdered)
    (woven : weave? text cursor edits = some result) :
    Text.size result + cursor + (edits.map fun edit => edit.range.stop - edit.range.start).sum =
      Text.size text + (edits.map fun edit => Text.size edit.newText).sum := by
  induction edits generalizing cursor result with
  | nil =>
    have measured := Text.size_of_slice? woven
    simp only [List.map_nil, List.sum_nil]
    omega
  | cons edit edits ih =>
    obtain ⟨kept, rest, slice, later, rfl⟩ := weave?_cons_eq_some woven
    have measured := Text.size_of_slice? slice
    have remaining := ih (fun other member => ordered other (List.mem_cons_of_mem _ member)) later
    have here : edit.range.start ≤ edit.range.stop := ordered edit List.mem_cons_self
    simp only [List.map_cons, List.sum_cons, Text.size_append]
    omega

/-! ### The ranges that are kept -/

/-- What is kept from a cursor on starts there or later. -/
theorem le_start_of_mem_keptSpans (ordered : ∀ edit ∈ edits, edit.range.IsOrdered)
    (woven : weave? text cursor edits = some result) :
    ∀ span ∈ keptSpans cursor (Text.size text) edits, cursor ≤ span.start := by
  induction edits generalizing cursor result with
  | nil =>
    intro span member
    rw [keptSpans, List.mem_singleton] at member
    subst member
    exact Nat.le_refl cursor
  | cons edit edits ih =>
    obtain ⟨kept, rest, slice, later, -⟩ := weave?_cons_eq_some woven
    have before := (Text.size_of_slice? slice).1
    have here : edit.range.start ≤ edit.range.stop := ordered edit List.mem_cons_self
    intro span member
    rcases List.mem_cons.mp member with rfl | behind
    · exact Nat.le_refl cursor
    · have behindEdit := ih (fun other member => ordered other (List.mem_cons_of_mem _ member))
        later span behind
      omega

/-- What is kept is kept in its order. -/
theorem keptSpans_pairwise (ordered : ∀ edit ∈ edits, edit.range.IsOrdered)
    (woven : weave? text cursor edits = some result) :
    (keptSpans cursor (Text.size text) edits).Pairwise fun first second =>
      first.stop ≤ second.start := by
  induction edits generalizing cursor result with
  | nil => exact List.pairwise_singleton _ _
  | cons edit edits ih =>
    obtain ⟨kept, rest, -, later, -⟩ := weave?_cons_eq_some woven
    have orderedRest : ∀ other ∈ edits, other.range.IsOrdered :=
      fun other member => ordered other (List.mem_cons_of_mem _ member)
    refine List.Pairwise.cons (fun span member => ?_) (ih orderedRest later)
    have behind := le_start_of_mem_keptSpans orderedRest later span member
    exact Nat.le_trans (ordered edit List.mem_cons_self) behind

/-! ### Stretches that are left alone -/

/-- No range touches or divides another one: it ends where that one starts, or before, or it starts
where that one ends, or later. -/
def IsFree (ranges : List Span) (span : Span) : Prop :=
  ∀ range ∈ ranges, range.stop ≤ span.start ∨ span.stop ≤ range.start

/-- **A stretch of a text of some size that ranges leave alone**, as long as it can be. -/
structure IsStretch (ranges : List Span) (size : Nat) (span : Span) : Prop where
  /-- It has bytes. -/
  nonempty : span.start < span.stop
  /-- It is a part of the text. -/
  within : span.stop ≤ size
  /-- No range touches or divides it. -/
  free : IsFree ranges span
  /-- There is no longer one around it. -/
  maximal : ∀ other : Span, other.stop ≤ size → IsFree ranges other →
    other.start ≤ span.start → span.stop ≤ other.stop → other = span

/-- The order of the ranges does not matter. -/
theorem IsStretch.of_perm {ranges others : List Span} {size : Nat} {span : Span}
    (perm : ranges.Perm others) (stretch : IsStretch ranges size span) :
    IsStretch others size span where
  nonempty := stretch.nonempty
  within := stretch.within
  free := fun range member => stretch.free range (perm.mem_iff.mpr member)
  maximal := fun other within free => stretch.maximal other within fun range member =>
    free range (perm.mem_iff.mp member)

/-- What no change touches or divides lies in a range that is kept. -/
theorem exists_keptSpan_around {span : Span} {size : Nat} (ahead : cursor ≤ span.start)
    (within : span.stop ≤ size) (free : IsFree (edits.map (·.range)) span) :
    ∃ kept ∈ keptSpans cursor size edits, kept.start ≤ span.start ∧ span.stop ≤ kept.stop := by
  induction edits generalizing cursor with
  | nil => exact ⟨⟨cursor, size⟩, List.mem_singleton_self _, ahead, within⟩
  | cons edit edits ih =>
    rcases free edit.range List.mem_cons_self with behind | before
    · obtain ⟨kept, member, around⟩ := ih behind
        fun range member => free range (List.mem_cons_of_mem _ member)
      exact ⟨kept, List.mem_cons_of_mem _ member, around⟩
    · exact ⟨⟨cursor, edit.range.start⟩, List.mem_cons_self, ahead, before⟩

/-- A range that is kept is a part of the text that no change touches or divides. -/
theorem isFree_of_mem_keptSpans (ordered : ∀ edit ∈ edits, edit.range.IsOrdered)
    (precedes : edits.Pairwise fun first second => first.range.Precedes second.range)
    (bounded : ∀ edit ∈ edits, edit.range.stop ≤ Text.size text)
    (woven : weave? text cursor edits = some result) :
    ∀ span ∈ keptSpans cursor (Text.size text) edits,
      span.stop ≤ Text.size text ∧ IsFree (edits.map (·.range)) span := by
  induction edits generalizing cursor result with
  | nil =>
    intro span member
    rw [keptSpans, List.mem_singleton] at member
    rw [member]
    exact ⟨Nat.le_refl _, fun range none => (List.not_mem_nil none).elim⟩
  | cons edit edits ih =>
    obtain ⟨kept, rest, -, later, -⟩ := weave?_cons_eq_some woven
    have orderedRest : ∀ other ∈ edits, other.range.IsOrdered :=
      fun other member => ordered other (List.mem_cons_of_mem _ member)
    have here : edit.range.start ≤ edit.range.stop := ordered edit List.mem_cons_self
    have stop := bounded edit List.mem_cons_self
    intro span member
    rcases List.mem_cons.mp member with rfl | behind
    · refine ⟨Nat.le_trans here stop, fun range listed => Or.inr ?_⟩
      rcases List.mem_cons.mp listed with rfl | laterRange
      · exact Nat.le_refl _
      · obtain ⟨other, otherMember, rfl⟩ := List.mem_map.mp laterRange
        exact Nat.le_trans here (List.rel_of_pairwise_cons precedes otherMember).1
    · obtain ⟨within, free⟩ := ih orderedRest (List.Pairwise.of_cons precedes)
        (fun other listed => bounded other (List.mem_cons_of_mem _ listed)) later span behind
      refine ⟨within, fun range listed => ?_⟩
      rcases List.mem_cons.mp listed with rfl | laterRange
      · exact Or.inl (le_start_of_mem_keptSpans orderedRest later span behind)
      · exact free range laterRange

/-- **Every stretch that changes leave alone is kept.** -/
theorem mem_keptSpans_of_isStretch (ordered : ∀ edit ∈ edits, edit.range.IsOrdered)
    (precedes : edits.Pairwise fun first second => first.range.Precedes second.range)
    (bounded : ∀ edit ∈ edits, edit.range.stop ≤ Text.size text)
    (woven : weave? text 0 edits = some result) {span : Span}
    (stretch : IsStretch (edits.map (·.range)) (Text.size text) span) :
    span ∈ keptSpans 0 (Text.size text) edits := by
  obtain ⟨kept, member, before, after⟩ :=
    exists_keptSpan_around (Nat.zero_le _) stretch.within stretch.free
  obtain ⟨within, free⟩ := isFree_of_mem_keptSpans ordered precedes bounded woven kept member
  rw [← stretch.maximal kept within free before after]
  exact member

end RecipeLint.Patch
