/-
**Removing statements from a program.**

A statement is removed with the blanks and line breaks before it, so what follows it on its line is
joined to the last line before it with a statement or a comment. What is left is again a sequence of
parts, and the ranges that are removed do not overlap.

* `Ruby.leftOver` — what is left of a program.
* `Ruby.removedSpans` — the ranges that are removed.
* `Ruby.removedSpans_eq_map` — they are those of the statements, widened over the blanks before.
* `Ruby.splice_removedSpans` — without them, the text is that of what is left.
-/

import RecipeLint.Proofs.Patch.Sequence
import RecipeLint.Proofs.Ruby.Programs
import RecipeLint.Proofs.Text.Parts

namespace RecipeLint.Ruby

/-- What happens to a part of a program when some statements are removed: a blank or a line break
waits for what follows. -/
inductive Treatment where
  | goes | waits | stays

/-- What happens to a part of a program. -/
def Item.treatment (removed : Statement → Bool) : Item → Treatment
  | .statement given => if removed given then .goes else .stays
  | .blank .. | .lineBreak => .waits
  | _ => .stays

theorem Item.statement_moves {removed : Statement → Bool} (given : Statement) :
    Item.treatment removed (.statement given) ≠ .waits := by
  rw [treatment]
  split <;> exact Treatment.noConfusion

/-- **What is left of a program** without some of its statements, and without the blanks and the
line breaks before these. -/
def leftOver (removed : Statement → Bool) : (waiting items : List Item) → List Item
  | waiting, [] => waiting
  | waiting, item :: items =>
    match item.treatment removed with
    | .goes => leftOver removed [] items
    | .waits => leftOver removed (waiting ++ [item]) items
    | .stays => waiting ++ item :: leftOver removed [] items

/-- **The ranges that are removed** from a text, where the program starts at a position, and blanks
and line breaks wait from another one on. -/
def removedSpans (removed : Statement → Bool) : (waiting position : Nat) → List Item → List Span
  | _, _, [] => []
  | waiting, position, item :: items =>
    let stop := position + Text.size item.text
    match item.treatment removed with
    | .goes => ⟨waiting, stop⟩ :: removedSpans removed stop stop items
    | .waits => removedSpans removed waiting stop items
    | .stays => removedSpans removed stop stop items

/-- The ranges of the statements that are removed themselves. -/
def statementSpans (removed : Statement → Bool) : (position : Nat) → List Item → List Span
  | _, [] => []
  | position, item :: items =>
    let stop := position + Text.size item.text
    match item.treatment removed with
    | .goes => ⟨position, stop⟩ :: statementSpans removed stop items
    | _ => statementSpans removed stop items

/-- A part of a program that ends in no blank, unless it is one. -/
def Item.IsTrimmed : Item → Prop
  | .statement given => Text.trimEnd given.text = given.text
  | .comment body _ => Text.trimEnd body = body
  | _ => True

/-- What is said of what is left is what is said of the statements that are not removed. -/
theorem flatMap_leftOver {α : Type} {removed : Statement → Bool} {said : Item → List α}
    {items : List Item} (silent : ∀ item, item.treatment removed = .waits → said item = [])
    (waiting : List Item) (quiet : waiting.flatMap said = []) :
    (leftOver removed waiting items).flatMap said =
      items.flatMap fun item => match item.treatment removed with
        | .goes => []
        | _ => said item := by
  induction items generalizing waiting with
  | nil => exact quiet
  | cons item items ih =>
    rw [leftOver, List.flatMap_cons]
    cases treated : item.treatment removed with
    | goes => exact ih [] rfl
    | waits =>
      have single : [item].flatMap said = [] := by rw [List.flatMap_singleton, silent item treated]
      simp only [silent item treated, List.nil_append]
      exact ih (waiting ++ [item]) (by rw [List.flatMap_append, quiet, single]; rfl)
    | stays =>
      simp only [List.flatMap_append, List.flatMap_cons, quiet, ih [] rfl, List.nil_append]

theorem Item.text_ne_nil (item : Item) : item.text ≠ [] := by
  cases item with
  | statement given =>
    obtain ⟨first, others, same, -⟩ := given.text_eq_cons
    rw [Item.text, same]
    exact List.cons_ne_nil _ _
  | blank | lineBreak | semicolon | comment => exact List.cons_ne_nil _ _

theorem isBlank_of_isGap {c : Char} (gap : isGap c = true) : Text.isBlank c = true := by
  simp only [isGap, Bool.or_eq_true, beq_iff_eq] at gap
  rcases gap with ((rfl | rfl) | rfl) | rfl <;> rfl

/-- Where a part that does not wait ends, nothing is trimmed off. -/
theorem Item.trimEnd_append {removed : Statement → Bool} {item : Item} (trimmed : item.IsTrimmed)
    (moves : item.treatment removed ≠ .waits) (front : List Char) :
    Text.trimEnd (front ++ item.text) = front ++ item.text := by
  have own : Text.trimEnd item.text = item.text := by
    cases item with
    | blank | lineBreak => exact absurd rfl moves
    | semicolon => rfl
    | comment body _ =>
      have sign : Text.isBlank '#' = false := rfl
      have kept := Text.trimEnd_append_cons [] body sign
      rw [List.nil_append, List.nil_append, show Text.trimEnd body = body from trimmed] at kept
      exact kept
    | statement given => exact trimmed
  rw [Text.trimEnd_append, own, if_neg item.text_ne_nil]

/-- What waits is a blank. -/
theorem Item.trimEnd_of_waits {removed : Statement → Bool} {item : Item}
    (waits : item.treatment removed = .waits) (front : List Char) :
    Text.trimEnd (front ++ item.text) = Text.trimEnd front := by
  cases item with
  | blank c gap _ =>
    exact Text.trimEnd_append_blank front (List.forall_mem_singleton.mpr (isBlank_of_isGap gap))
  | lineBreak => exact Text.trimEnd_append_blank front (List.forall_mem_singleton.mpr rfl)
  | statement given => exact absurd waits (statement_moves given)
  | semicolon | comment => cases waits

section Spans

variable {removed : Statement → Bool}

/-- **What is removed are the statements, each widened over the blanks before it.** -/
theorem removedSpans_eq_map {items : List Item} (trimmed : ∀ item ∈ items, item.IsTrimmed)
    (front : List Char) {kept : List Char} (solid : Text.trimEnd front = kept) :
    removedSpans removed (Text.size kept) (Text.size front) items =
      (statementSpans removed (Text.size front) items).map
        (spaceToLeft (front ++ layoutText items)) := by
  induction items generalizing front kept with
  | nil => rfl
  | cons item items ih =>
    obtain ⟨here, others⟩ := List.forall_mem_cons.mp trimmed
    have stop : Text.size front + Text.size item.text = Text.size (front ++ item.text) :=
      (Text.size_append _ _).symm
    have later {kept : List Char} := @ih others (front ++ item.text) kept
    rw [List.append_assoc, ← layoutText_cons] at later
    rw [removedSpans, statementSpans]
    simp only [stop]
    cases treated : item.treatment removed with
    | goes =>
      have ends :=
        Item.trimEnd_append here (treated ▸ nofun : item.treatment removed ≠ .waits) front
      have widened : spaceToLeft (front ++ layoutText (item :: items))
          ⟨Text.size front, Text.size (front ++ item.text)⟩ =
            ⟨Text.size kept, Text.size (front ++ item.text)⟩ := by
        rw [spaceToLeft_of_append rfl, solid]
      simp only [List.map_cons, widened, later ends]
    | waits => exact later (by rw [Item.trimEnd_of_waits treated, solid])
    | stays =>
      exact later
        (Item.trimEnd_append here (treated ▸ nofun : item.treatment removed ≠ .waits) front)

/-- What is removed starts no earlier than the blanks that wait. -/
theorem removedSpans_cuts {items : List Item} (kept gap : List Char) :
    ∀ span ∈ removedSpans removed (Text.size kept) (Text.size (kept ++ gap)) items,
      span.CutsOut (kept ++ (gap ++ layoutText items)) ∧ Text.size kept ≤ span.start := by
  induction items generalizing kept gap with
  | nil => exact nofun
  | cons item items ih =>
    have stop : Text.size (kept ++ gap) + Text.size item.text =
        Text.size (kept ++ (gap ++ item.text)) := by
      simp only [Text.size_append, Nat.add_assoc]
    have text : kept ++ (gap ++ layoutText (item :: items)) =
        (kept ++ (gap ++ item.text)) ++ layoutText items := by
      simp only [layoutText_cons, List.append_assoc]
    have below : Text.size kept ≤ Text.size (kept ++ (gap ++ item.text)) := by
      rw [Text.size_append]
      exact Nat.le_add_right _ _
    have later := ih (kept ++ (gap ++ item.text)) []
    rw [List.append_nil, List.nil_append, ← text] at later
    have onward : ∀ span ∈ removedSpans removed (Text.size (kept ++ (gap ++ item.text)))
        (Text.size (kept ++ (gap ++ item.text))) items,
        span.CutsOut (kept ++ (gap ++ layoutText (item :: items))) ∧
          Text.size kept ≤ span.start := fun span member =>
      ⟨(later span member).1, Nat.le_trans below (later span member).2⟩
    rw [removedSpans]
    simp only [stop]
    split
    next =>
      refine List.forall_mem_cons.mpr ⟨⟨⟨kept, gap ++ item.text, layoutText items, ?_, rfl, ?_⟩,
        Nat.le_refl _⟩, onward⟩
      · rw [text, List.append_assoc]
      · rw [← Text.size_append]
    next =>
      have wider := ih kept (gap ++ item.text)
      rwa [List.append_assoc gap, ← layoutText_cons] at wider
    next => exact onward

/-- What is removed first ends before the next part that is removed. -/
theorem removedSpans_precede {items : List Item} (kept gap : List Char) :
    (removedSpans removed (Text.size kept) (Text.size (kept ++ gap)) items).Pairwise
      fun first second => first.Precedes second := by
  induction items generalizing kept gap with
  | nil => exact .nil
  | cons item items ih =>
    have stop : Text.size (kept ++ gap) + Text.size item.text =
        Text.size (kept ++ (gap ++ item.text)) := by
      simp only [Text.size_append, Nat.add_assoc]
    have later := ih (kept ++ (gap ++ item.text)) []
    have cuts := @removedSpans_cuts removed items (kept ++ (gap ++ item.text)) []
    rw [List.append_nil] at later cuts
    rw [removedSpans]
    simp only [stop]
    split
    next =>
      refine List.pairwise_cons.mpr ⟨fun span member => ?_, later⟩
      obtain ⟨cut, behind⟩ := cuts span member
      have ordered := cut.isOrdered
      have positive : 0 < Text.size item.text := by
        have long := Text.length_le_size item.text
        have some := List.length_pos_iff.mpr item.text_ne_nil
        omega
      unfold Span.IsOrdered at ordered
      simp only [Text.size_append] at behind
      refine ⟨?_, ?_⟩
      · simpa only [Text.size_append] using behind
      · show Text.size kept < span.stop
        omega
    next => exact ih kept (gap ++ item.text)
    next => exact later

/-- **Without the ranges that are removed, the text is that of what is left.** -/
theorem splice_removedSpans {items : List Item} (kept : List Char) (waiting : List Item) :
    Patch.splice (Text.size kept) (layoutText waiting ++ layoutText items)
        ((removedSpans removed (Text.size kept) (Text.size (kept ++ layoutText waiting)) items).map
          fun span => ⟨span, []⟩) =
      layoutText (leftOver removed waiting items) := by
  induction items generalizing kept waiting with
  | nil => exact List.append_nil _
  | cons item items ih =>
    have stop : Text.size (kept ++ layoutText waiting) + Text.size item.text =
        Text.size (kept ++ (layoutText waiting ++ item.text)) := by
      simp only [Text.size_append, Nat.add_assoc]
    have later := ih (kept ++ (layoutText waiting ++ item.text)) []
    have cuts := @removedSpans_cuts removed items (kept ++ (layoutText waiting ++ item.text)) []
    rw [show layoutText [] = [] from rfl, List.nil_append, List.append_nil] at later
    rw [List.nil_append, List.append_nil] at cuts
    rw [removedSpans, leftOver]
    simp only [stop]
    split
    next =>
      have step := Patch.splice_cons kept [] (layoutText waiting ++ item.text) (layoutText items)
        ⟨⟨Text.size kept, Text.size (kept ++ (layoutText waiting ++ item.text))⟩, []⟩
        ((removedSpans removed (Text.size (kept ++ (layoutText waiting ++ item.text)))
          (Text.size (kept ++ (layoutText waiting ++ item.text))) items).map fun span => ⟨span, []⟩)
        (by rw [List.append_nil]) (by rw [List.append_nil, Text.size_append kept])
      rw [List.nil_append, later, List.append_assoc, ← layoutText_cons] at step
      exact step
    next =>
      have wider := ih kept (waiting ++ [item])
      have single : layoutText [item] = item.text := List.append_nil _
      rw [layoutText_append, single] at wider
      rw [layoutText_cons, ← List.append_assoc, wider]
    next =>
      have skipped := @Patch.splice_behind kept (layoutText waiting ++ item.text) (layoutText items)
        ((removedSpans removed (Text.size (kept ++ (layoutText waiting ++ item.text)))
          (Text.size (kept ++ (layoutText waiting ++ item.text))) items).map fun span => ⟨span, []⟩)
        (List.forall_mem_map.mpr fun span member => by
          have cut := (cuts span member).1
          rwa [List.append_assoc] at cut)
        (List.forall_mem_map.mpr fun span member => (cuts span member).2)
      rw [layoutText_cons, ← List.append_assoc, skipped, later, layoutText_append,
        layoutText_cons, List.append_assoc]

end Spans

end RecipeLint.Ruby
