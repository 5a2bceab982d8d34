/-
**Which changes are accepted, and how the changed text is put together.**

Changes are accepted if each range is cut out of the text, between characters, and no two of them
overlap. The changed text then consists of slices of the text as it was and of new texts in turn. A
slice that starts after its end, or that starts or ends inside a character, would have no value;
for accepted changes there is none.

* `Span.CutsOut` — a range that starts and ends between characters of a text.
* `Patch.applyEdits_eq_ok_iff` — acceptance, for changes in any order.
* `Patch.weave?` — the changed text from slices of the whole text, without a value if a slice has
  none.
* `Patch.weave?_eq_splice` — for changes that precede one another every slice has a value, and the
  result is that of `Patch.splice`.
-/

import RecipeLint.Proofs.Patch.Order

namespace RecipeLint

/-! ### Ranges of a text -/

namespace Span

/-- A range starts and ends between characters of a text. -/
def CutsOut (text : List Char) (span : Span) : Prop :=
  ∃ before inside after, text = before ++ (inside ++ after) ∧
    Text.size before = span.start ∧ Text.size before + Text.size inside = span.stop

theorem CutsOut.stop_le {text : List Char} {span : Span} (cuts : span.CutsOut text) :
    span.stop ≤ Text.size text := by
  obtain ⟨before, inside, after, rfl, -, stopAt⟩ := cuts
  rw [Text.size_append, Text.size_append]
  omega

/-- **The test of a range tells whether it is cut out of the text.** -/
theorem isWithin_iff {text : List Char} {span : Span} (ordered : span.IsOrdered) :
    span.isWithin text = true ↔ span.CutsOut text := by
  rw [isWithin, Bool.and_eq_true, Bool.and_eq_true, decide_eq_true_eq, Text.isBoundary_iff,
    Text.isBoundary_iff]
  constructor
  · rintro ⟨⟨-, before, rest, whole, startAt⟩, upTo, after, whole', stopAt⟩
    have earlier : Text.size before ≤ Text.size upTo := by
      rw [startAt, stopAt]
      exact ordered
    obtain ⟨inside, rfl, rfl⟩ := Text.exists_between (whole.symm.trans whole') earlier
    exact ⟨before, inside, after, whole, startAt, by rw [← stopAt, Text.size_append]⟩
  · intro cuts
    refine ⟨⟨cuts.stop_le, ?_⟩, ?_⟩
    · obtain ⟨before, inside, after, whole, startAt, -⟩ := cuts
      exact ⟨before, inside ++ after, whole, startAt⟩
    · obtain ⟨before, inside, after, whole, -, stopAt⟩ := cuts
      exact ⟨before ++ inside, after, by rw [whole, List.append_assoc],
        by rw [Text.size_append, stopAt]⟩

end Span

/-! ### Acceptance -/

namespace Patch

theorem find?_isWithin_eq_none_iff {text : List Char} {edits : List Edit}
    (ordered : ∀ edit ∈ edits, edit.range.IsOrdered) :
    (edits.find? fun edit => !edit.range.isWithin text) = none ↔
      ∀ edit ∈ edits, edit.range.CutsOut text := by
  rw [List.find?_eq_none]
  refine forall₂_congr fun edit member => ?_
  rw [Bool.not_eq_true, Bool.not_eq_false', Span.isWithin_iff (ordered edit member)]

/-- Changes in order pass the check if their ranges are cut out of the text and do not overlap. -/
theorem check_eq_ok_iff {text : List Char} {edits : List Edit}
    (ordered : ∀ edit ∈ edits, edit.range.IsOrdered)
    (inOrder : edits.Pairwise fun first second => first.range.le second.range = true) :
    check text edits = .ok () ↔
      (∀ edit ∈ edits, edit.range.CutsOut text) ∧ Edit.Disjoint edits := by
  rw [← find?_isWithin_eq_none_iff ordered, ← overlap?_eq_none_iff ordered inOrder]
  unfold check
  cases outside : edits.find? fun edit => !edit.range.isWithin text with
  | some edit => simp
  | none =>
    cases clash : overlap? edits with
    | some pair => simp
    | none => simp

/-- **Changes are accepted exactly if their ranges are cut out of the text and no two overlap**,
in whatever order they are given. -/
theorem applyEdits_eq_ok_iff {text result : List Char} {edits : List Edit}
    (ordered : ∀ edit ∈ edits, edit.range.IsOrdered) :
    applyEdits text edits = .ok result ↔
      ((∀ edit ∈ edits, edit.range.CutsOut text) ∧ Edit.Disjoint edits) ∧
        result = splice 0 text (Edit.sorted edits) := by
  have orderedSorted : ∀ edit ∈ Edit.sorted edits, edit.range.IsOrdered :=
    fun edit member => ordered edit (Edit.mem_sorted.mp member)
  have accepted : check text (Edit.sorted edits) = .ok () ↔
      (∀ edit ∈ edits, edit.range.CutsOut text) ∧ Edit.Disjoint edits := by
    rw [check_eq_ok_iff orderedSorted (Edit.sorted_pairwise_le edits), Edit.pairwise_sorted_iff]
    simp only [Edit.mem_sorted]
  rw [← accepted, applyEdits]
  cases check text (Edit.sorted edits) with
  | error refusal => simp [bind, Except.bind]
  | ok => simp [bind, Except.bind, pure, Except.pure, eq_comm]

/-! ### The slices of the changed text -/

/-- The ranges that the changed text takes over: from the end of each change to the start of the
next one, and from the end of the last one to the end of the text. -/
def keptSpans (cursor size : Nat) : List Edit → List Span
  | [] => [⟨cursor, size⟩]
  | edit :: edits => ⟨cursor, edit.range.start⟩ :: keptSpans edit.range.stop size edits

/-- The changed text from a cursor on, put together from slices of the whole text. It has no value
if a slice starts after its end, or starts or ends inside a character. -/
def weave? (text : List Char) (cursor : Nat) : List Edit → Option (List Char)
  | [] => Text.slice? text cursor (Text.size text)
  | edit :: edits => do
    let kept ← Text.slice? text cursor edit.range.start
    let rest ← weave? text edit.range.stop edits
    return kept ++ edit.newText ++ rest

/-- Between changes that precede one another no range that is kept ends before it starts. -/
theorem keptSpans_isOrdered {cursor size : Nat} {edits : List Edit} (inside : cursor ≤ size)
    (ahead : ∀ edit ∈ edits, cursor ≤ edit.range.start)
    (bounded : ∀ edit ∈ edits, edit.range.stop ≤ size)
    (precedes : edits.Pairwise fun first second => first.range.Precedes second.range) :
    ∀ span ∈ keptSpans cursor size edits, span.IsOrdered := by
  induction edits generalizing cursor with
  | nil =>
    intro span member
    rw [keptSpans, List.mem_singleton] at member
    subst member
    exact inside
  | cons edit edits ih =>
    intro span member
    rcases List.mem_cons.mp member with rfl | later
    · exact ahead edit List.mem_cons_self
    · exact ih (bounded edit List.mem_cons_self)
        (fun next nextMember => (List.rel_of_pairwise_cons precedes nextMember).1)
        (fun next nextMember => bounded next (List.mem_cons_of_mem _ nextMember))
        (List.Pairwise.of_cons precedes) span later

/-- One step of `splice`: behind `taken`, it keeps the text up to the change and goes on behind
it. -/
theorem splice_cons (taken kept inside after : List Char) (edit : Edit) (edits : List Edit)
    (startAt : Text.size (taken ++ kept) = edit.range.start)
    (stopAt : Text.size (taken ++ kept) + Text.size inside = edit.range.stop) :
    splice (Text.size taken) (kept ++ (inside ++ after)) (edit :: edits) =
      kept ++ edit.newText ++ splice edit.range.stop after edits := by
  rw [Text.size_append] at startAt stopAt
  have keptSize : edit.range.start - Text.size taken = Text.size kept := by omega
  have droppedSize : edit.range.stop - Text.size taken = Text.size (kept ++ inside) := by
    rw [Text.size_append]
    omega
  have taking : Text.take? (kept ++ (inside ++ after)) (Text.size kept) = some kept :=
    Text.take?_append kept (inside ++ after)
  have dropping : Text.drop? (kept ++ (inside ++ after)) (Text.size (kept ++ inside)) =
      some after := by
    rw [← List.append_assoc]
    exact Text.drop?_append (kept ++ inside) after
  simp only [splice, keptSize, droppedSize, taking, dropping, Option.getD_some]

/-- **Every slice has a value.** Behind a part `taken` of the text, for changes that precede one
another and are cut out of the text, the slices of the whole text give what `splice` gives. -/
theorem weave?_eq_splice {taken rest : List Char} {edits : List Edit}
    (cuts : ∀ edit ∈ edits, edit.range.CutsOut (taken ++ rest))
    (precedes : edits.Pairwise fun first second => first.range.Precedes second.range)
    (ahead : ∀ edit ∈ edits, Text.size taken ≤ edit.range.start) :
    weave? (taken ++ rest) (Text.size taken) edits =
      some (splice (Text.size taken) rest edits) := by
  induction edits generalizing taken rest with
  | nil =>
    have slice := Text.slice?_append taken rest []
    rw [List.append_nil] at slice
    rw [weave?, splice, Text.size_append, slice]
  | cons edit edits ih =>
    obtain ⟨before, inside, after, whole, startAt, stopAt⟩ := cuts edit List.mem_cons_self
    have reached : Text.size taken ≤ Text.size before := by
      rw [startAt]
      exact ahead edit List.mem_cons_self
    obtain ⟨kept, rfl, rfl⟩ := Text.exists_between whole reached
    have slice : Text.slice? (taken ++ (kept ++ (inside ++ after))) (Text.size taken)
        edit.range.start = some kept := by
      rw [← startAt, Text.size_append]
      exact Text.slice?_append taken kept (inside ++ after)
    -- the next cursor stands behind everything up to the end of this change
    have regrouped : taken ++ (kept ++ (inside ++ after)) = (taken ++ kept ++ inside) ++ after := by
      simp only [List.append_assoc]
    have cursor : Text.size (taken ++ kept ++ inside) = edit.range.stop := by
      rw [Text.size_append, stopAt]
    have later : weave? (taken ++ (kept ++ (inside ++ after))) edit.range.stop edits =
        some (splice edit.range.stop after edits) := by
      rw [regrouped] at cuts ⊢
      rw [← cursor]
      refine ih (fun next member => cuts next (List.mem_cons_of_mem _ member))
        (List.Pairwise.of_cons precedes) fun next member => ?_
      rw [cursor]
      exact (List.rel_of_pairwise_cons precedes member).1
    rw [splice_cons taken kept inside after edit edits startAt stopAt, weave?, slice, later]
    rfl

/-- Accepted changes leave no slice without a value. -/
theorem weave?_sorted_of_accepted {text : List Char} {edits : List Edit}
    (ordered : ∀ edit ∈ edits, edit.range.IsOrdered)
    (cuts : ∀ edit ∈ edits, edit.range.CutsOut text) (disjoint : Edit.Disjoint edits) :
    (∀ span ∈ keptSpans 0 (Text.size text) (Edit.sorted edits), span.IsOrdered) ∧
      weave? text 0 (Edit.sorted edits) = some (splice 0 text (Edit.sorted edits)) := by
  have precedes := Edit.pairwise_precedes
    (fun edit member => ordered edit (Edit.mem_sorted.mp member)) (Edit.sorted_pairwise_le edits)
    ((Edit.pairwise_sorted_iff edits).mpr disjoint)
  have cutsSorted : ∀ edit ∈ Edit.sorted edits, edit.range.CutsOut text :=
    fun edit member => cuts edit (Edit.mem_sorted.mp member)
  constructor
  · exact keptSpans_isOrdered (Nat.zero_le _) (fun _ _ => Nat.zero_le _)
      (fun edit member => (cutsSorted edit member).stop_le) precedes
  · have whole : text = [] ++ text := rfl
    rw [whole] at cutsSorted
    exact weave?_eq_splice cutsSorted precedes fun _ _ => Nat.zero_le _

end Patch

/-! ### Corrections -/

namespace Correction

/-- The range of a correction in unbounded arithmetic. -/
def span (correction : Correction) : Span :=
  ⟨correction.location.offset, correction.location.offset + correction.location.length⟩

/-- The end of a correction is a machine word. -/
def Fits (correction : Correction) : Prop :=
  correction.location.offset + correction.location.length ≤ maxWord

instance (correction : Correction) : Decidable correction.Fits :=
  inferInstanceAs (Decidable (_ ≤ _))

/-- A correction as a change of its range. -/
def toEdit (correction : Correction) : Edit := ⟨correction.span, correction.newText.toList⟩

theorem span_isOrdered (correction : Correction) : correction.span.IsOrdered :=
  Nat.le_add_right _ _

end Correction

namespace Patch

theorem edit_of_fits {correction : Correction} (fits : correction.Fits) :
    edit correction = .ok correction.toEdit := by
  have stop : correction.location.stop =
      .ok (correction.location.offset + correction.location.length) := if_pos fits
  rw [edit, Correction.range, stop]
  rfl

/-- Corrections whose ends are machine words are made like the changes that they stand for. -/
theorem apply_of_fits (text : String) {corrections : List Correction}
    (fits : ∀ correction ∈ corrections, correction.Fits) :
    apply text corrections =
      .ok ((applyEdits text.toList (corrections.map Correction.toEdit)).map String.ofList) := by
  have edits : corrections.mapM edit = .ok (corrections.map Correction.toEdit) := by
    induction corrections with
    | nil => rfl
    | cons correction rest ih =>
      rw [List.mapM_cons, edit_of_fits (fits correction List.mem_cons_self),
        ih fun other member => fits other (List.mem_cons_of_mem _ member)]
      rfl
  rw [apply, edits]
  rfl

/-- What is asked of the changes of corrections, asked of the corrections. -/
theorem accepted_map_toEdit_iff (text : List Char) (corrections : List Correction) :
    ((∀ edit ∈ corrections.map Correction.toEdit, edit.range.CutsOut text) ∧
        Edit.Disjoint (corrections.map Correction.toEdit)) ↔
      (∀ correction ∈ corrections, correction.span.CutsOut text) ∧
        corrections.Pairwise fun first second => first.span.overlaps second.span = false := by
  rw [List.forall_mem_map, Edit.Disjoint, List.pairwise_map]
  rfl

/-- **Corrections are accepted exactly if each range is cut out of the text and no two of the list
overlap, and making them never breaks off**: they are refused with a reason, or all slices that the
changed text consists of start no later than they end, have a value, and make up the result. -/
theorem apply_accepts_iff (text : String) (corrections : List Correction)
    (fits : ∀ correction ∈ corrections, correction.Fits) :
    ((∃ result, apply text corrections = .ok (.ok result)) ↔
        (∀ correction ∈ corrections, correction.span.CutsOut text.toList) ∧
          corrections.Pairwise fun first second => first.span.overlaps second.span = false) ∧
      ((∃ refusal, apply text corrections = .ok (.error refusal)) ∨
        ∃ result, apply text corrections = .ok (.ok result) ∧
          (∀ slice ∈ keptSpans 0 (Text.size text.toList)
            (Edit.sorted (corrections.map Correction.toEdit)), slice.start ≤ slice.stop) ∧
          weave? text.toList 0 (Edit.sorted (corrections.map Correction.toEdit)) =
            some result.toList) := by
  have ordered : ∀ edit ∈ corrections.map Correction.toEdit, edit.range.IsOrdered := by
    rw [List.forall_mem_map]
    exact fun correction _ => correction.span_isOrdered
  rw [apply_of_fits text fits, ← accepted_map_toEdit_iff]
  cases outcome : applyEdits text.toList (corrections.map Correction.toEdit) with
  | error refusal =>
    refine ⟨⟨fun ⟨result, impossible⟩ => ?_, fun accepted => ?_⟩, Or.inl ⟨refusal, rfl⟩⟩
    · cases impossible
    · have made := (applyEdits_eq_ok_iff ordered).mpr ⟨accepted, rfl⟩
      rw [outcome] at made
      cases made
  | ok changed =>
    obtain ⟨accepted, rfl⟩ := (applyEdits_eq_ok_iff ordered).mp outcome
    refine ⟨⟨fun _ => accepted, fun _ => ⟨_, rfl⟩⟩, Or.inr ⟨_, rfl, ?_⟩⟩
    rw [String.toList_ofList]
    exact weave?_sorted_of_accepted ordered accepted.1 accepted.2

/-- In `aéb`, the second character is replaced, and something is inserted at both of its ends and at
the start of the text. -/
def edgeCorrections : List Correction :=
  [⟨⟨"a.rb", 1, 3, 3, 0⟩, ">"⟩, ⟨⟨"a.rb", 1, 2, 1, 2⟩, "e"⟩, ⟨⟨"a.rb", 1, 1, 0, 0⟩, "^"⟩,
    ⟨⟨"a.rb", 1, 2, 1, 0⟩, "<"⟩]

/-- Insertions at the edges of another range are accepted. -/
theorem apply_accepts_edgeCorrections :
    (∀ correction ∈ edgeCorrections, correction.Fits) ∧
      ∃ result, apply "aéb" edgeCorrections = .ok (.ok result) := by
  have fits : ∀ correction ∈ edgeCorrections, correction.Fits := by decide
  have within : ∀ correction ∈ edgeCorrections, correction.span.isWithin "aéb".toList = true := by
    decide
  refine ⟨fits, (apply_accepts_iff "aéb" edgeCorrections fits).1.mpr ⟨?_, by decide⟩⟩
  exact fun correction member =>
    (Span.isWithin_iff correction.span_isOrdered).mp (within correction member)

end Patch

end RecipeLint
