/-
**The parts of a directive.**

A line that is a directive holds, in this order, a sign that starts a comment, the marker, a list of
names between parentheses, and perhaps a reason between quotes; blanks may stand between them. What
stands before the sign does not count, as long as the marker is not in it. What is read depends on
the list and on what follows it, and nothing else in the line.

* `Form` — a line taken apart; `Form.IsProper` says that the parts are cut at the right places.
* `read?_text` — what is read of a line that is put together from parts.
* `exists_form` — every directive is read of such a line.
* `reasonOf?_eq_some_iff` — the same for a reason.
-/

import RecipeLint.Directive
import RecipeLint.Proofs.SourceFile.Lines
import RecipeLint.Proofs.Text.Parts

namespace RecipeLint

namespace Text

theorem splitAt_append_left {separator : Char} {front : List Char} (fresh : separator ∉ front)
    (text : List Char) :
    ∃ part parts, splitAt separator text = part :: parts ∧
      splitAt separator (front ++ text) = (front ++ part) :: parts := by
  induction front with
  | nil =>
    obtain ⟨part, parts, split⟩ := List.exists_cons_of_ne_nil (splitAt_ne_nil separator text)
    exact ⟨part, parts, split, split⟩
  | cons c front ih =>
    have different : c ≠ separator := (List.ne_of_not_mem_cons fresh).symm
    obtain ⟨part, parts, split, later⟩ := ih (List.not_mem_of_not_mem_cons fresh)
    refine ⟨part, parts, split, ?_⟩
    rw [List.cons_append, splitAt, if_neg different, later]
    rfl

end Text

namespace Directive

/-! ### Reasons -/

/-- What starts a reason. -/
def reasonSign : List Char := "reason=".toList

/-- What is read of a text that starts with the sign and holds two quotes. -/
theorem reasonOf?_text {gap lead reason : List Char} (tail : List Char)
    (blankGap : ∀ c ∈ gap, Text.isBlank c = true) (blankLead : ∀ c ∈ lead, Text.isBlank c = true)
    (fresh : '"' ∉ reason) :
    reasonOf? (gap ++ (reasonSign ++ (lead ++ '"' :: (reason ++ '"' :: tail)))) =
      if Text.isBlankText reason then none else some (String.ofList reason) := by
  have solidQuote : Text.isBlank '"' = false := by decide
  have trimmed : Text.trim (gap ++ (reasonSign ++ (lead ++ '"' :: (reason ++ '"' :: tail)))) =
      reasonSign ++ (lead ++ '"' :: (reason ++ '"' :: Text.trimEnd tail)) := by
    have cut := Text.trim_append_cons (gap ++ (reasonSign ++ (lead ++ '"' :: reason))) tail
      solidQuote
    have sign : Text.trimStart (reasonSign ++ (lead ++ '"' :: reason)) =
        reasonSign ++ (lead ++ '"' :: reason) := Text.trimStart_cons (by decide)
    rw [Text.trimStart_append blankGap, sign] at cut
    simpa only [List.append_assoc, List.cons_append] using cut
  have opened : Text.trim (lead ++ '"' :: (reason ++ '"' :: Text.trimEnd tail)) =
      ['"'] ++ (reason ++ '"' :: Text.trimEnd (Text.trimEnd tail)) := by
    rw [Text.trim_append_cons _ _ solidQuote, (Text.trimStart_eq_nil_iff lead).mpr blankLead,
      Text.trimEnd_append_cons _ _ solidQuote]
    rfl
  have named : Text.strip? "reason=".toList
      (reasonSign ++ (lead ++ '"' :: (reason ++ '"' :: Text.trimEnd tail))) =
        some (lead ++ '"' :: (reason ++ '"' :: Text.trimEnd tail)) :=
    Text.strip?_append _ _
  have closed : Text.breakOn? ['"'] (reason ++ '"' :: Text.trimEnd (Text.trimEnd tail)) =
      some (reason, Text.trimEnd (Text.trimEnd tail)) :=
    Text.breakOn?_singleton_iff.mpr ⟨rfl, fresh⟩
  rw [reasonOf?, trimmed, named, Option.bind_eq_bind, Option.bind_some, opened,
    Text.strip?_append, Option.bind_eq_bind, Option.bind_some, closed, Option.bind_some]

/-- **A reason is what stands between the first two quotes behind its sign**, unless it is blank. -/
theorem reasonOf?_eq_some_iff {rest : List Char} {reason : String} :
    reasonOf? rest = some reason ↔
      ∃ gap lead tail,
        rest = gap ++ (reasonSign ++ (lead ++ '"' :: (reason.toList ++ '"' :: tail))) ∧
        (∀ c ∈ gap, Text.isBlank c = true) ∧ (∀ c ∈ lead, Text.isBlank c = true) ∧
        '"' ∉ reason.toList ∧ Text.isBlankText reason.toList = false := by
  constructor
  · intro read
    obtain ⟨value, named, read⟩ := Option.bind_eq_some_iff.mp read
    obtain ⟨quoted, opened, read⟩ := Option.bind_eq_some_iff.mp read
    obtain ⟨⟨inner, tail⟩, closed, read⟩ := Option.bind_eq_some_iff.mp read
    simp only at read
    split at read
    next => cases read
    next solid =>
      cases read
      obtain ⟨gap, after, whole, blankGap, -⟩ := Text.exists_trim rest
      obtain ⟨lead, after', whole', blankLead, -⟩ := Text.exists_trim value
      obtain ⟨split, fresh⟩ := Text.breakOn?_singleton_iff.mp closed
      have signed : Text.trim rest = reasonSign ++ value := Text.strip?_eq_some named
      rw [signed, whole', Text.strip?_eq_some opened, split] at whole
      refine ⟨gap, lead, tail ++ (after' ++ after), ?_, blankGap, blankLead, ?_, ?_⟩
      · rw [whole, String.toList_ofList]
        simp only [List.append_assoc, List.cons_append, List.nil_append]
      · rwa [String.toList_ofList]
      · rw [String.toList_ofList]
        exact Bool.eq_false_iff.mpr solid
  · rintro ⟨gap, lead, tail, rfl, blankGap, blankLead, fresh, solid⟩
    rw [reasonOf?_text tail blankGap blankLead fresh, solid, String.ofList_toList]
    rfl

theorem reasonOf?_trimEnd (rest : List Char) : reasonOf? (Text.trimEnd rest) = reasonOf? rest := by
  rw [reasonOf?, Text.trim_trimEnd, reasonOf?]

/-! ### Lists of names -/

/-- Blanks before a list are not in its first name. -/
theorem names_trimStart (list : List Char) : names (Text.trimStart list) = names list := by
  obtain ⟨blanks, whole, blank⟩ := Text.exists_trimStart list
  have fresh : ',' ∉ blanks := fun member => absurd (blank ',' member) (by decide)
  obtain ⟨part, parts, short, long⟩ := Text.splitAt_append_left fresh (Text.trimStart list)
  rw [← whole] at long
  rw [names, names, short, long, List.map_cons, List.map_cons, Text.trim_append_left blank]

/-! ### Forms -/

/-- What stands before the list of a directive. -/
def opening : List Char := "allow(".toList

/-- **The parts of a line that holds a directive.** -/
structure Form where
  /-- What stands before the sign that starts the comment. -/
  before : List Char
  /-- What stands between the sign and the marker. -/
  gap : List Char
  /-- What stands behind the marker. -/
  lead : List Char
  /-- What stands between the parentheses. -/
  list : List Char
  /-- What stands behind the parentheses. -/
  rest : List Char

namespace Form

/-- The line that is put together from the parts. -/
def text (form : Form) : List Char :=
  form.before ++ '#' ::
    (form.gap ++ (marker ++ (form.lead ++ (opening ++ (form.list ++ ')' :: form.rest)))))

/-- **A line is cut at the right places**: at the first marker, at the first parenthesis behind it,
and with only blanks next to the marker. -/
structure IsProper (form : Form) : Prop where
  first : ¬ marker <:+: form.before
  gap : ∀ c ∈ form.gap, Text.isBlank c = true
  lead : ∀ c ∈ form.lead, Text.isBlank c = true
  closed : ')' ∉ form.list

end Form

/-- The marker of the form is the first one of the line. -/
theorem breakOn?_text {form : Form} (proper : form.IsProper) :
    Text.breakOn? marker form.text = some (form.before ++ '#' :: form.gap,
      form.lead ++ (opening ++ (form.list ++ ')' :: form.rest))) := by
  have sign : 'c' ∉ '#' :: form.gap := by
    rw [List.mem_cons, not_or]
    exact ⟨by decide, fun member => absurd (proper.gap 'c' member) (by decide)⟩
  have behind : Text.breakOn? marker (('#' :: form.gap) ++ (marker ++
      (form.lead ++ (opening ++ (form.list ++ ')' :: form.rest))))) =
      some ('#' :: form.gap, form.lead ++ (opening ++ (form.list ++ ')' :: form.rest))) := by
    show Text.breakOn? ('c' :: "ookbook-lint:".toList) _ = _
    rw [Text.breakOn?_append_left sign]
    show (Text.breakOn? marker _).map _ = _
    simp [Text.breakOn?_append]
  rw [List.cons_append] at behind
  rw [Form.text, Text.breakOn?_append_cons (by decide) proper.first, behind]
  rfl

/-- **What is read of a line that is put together from parts**: the names of the list and the reason
behind it. -/
theorem read?_text {form : Form} (proper : form.IsProper) :
    read? form.text =
      if names form.list = [] then none else some ⟨names form.list, reasonOf? form.rest⟩ := by
  have starts : (Text.trimEnd (form.before ++ '#' :: form.gap)).getLast? = some '#' := by
    rw [Text.trimEnd_append_cons _ _ (by decide), Text.trimEnd_of_blank proper.gap,
      List.getLast?_concat]
  have opened : Text.trim (form.lead ++ (opening ++ (form.list ++ ')' :: form.rest))) =
      opening ++ (form.list ++ ')' :: Text.trimEnd form.rest) := by
    have cut := Text.trim_append_cons (form.lead ++ (opening ++ form.list)) form.rest
      (by decide : Text.isBlank ')' = false)
    have sign : Text.trimStart (opening ++ form.list) = opening ++ form.list :=
      Text.trimStart_cons (by decide)
    rw [Text.trimStart_append proper.lead, sign] at cut
    simpa only [List.append_assoc] using cut
  have closed : Text.breakOn? [')'] (Text.trim (form.list ++ ')' :: Text.trimEnd form.rest)) =
      some (Text.trimStart form.list, Text.trimEnd (Text.trimEnd form.rest)) := by
    rw [Text.trim_append_cons _ _ (by decide), Text.breakOn?_singleton_iff]
    exact ⟨rfl, fun member => proper.closed ((List.dropWhile_suffix _).subset member)⟩
  have listed : Text.strip? "allow(".toList
      (opening ++ (form.list ++ ')' :: Text.trimEnd form.rest)) =
      some (form.list ++ ')' :: Text.trimEnd form.rest) := Text.strip?_append _ _
  have unblocked : ¬ (some '#' ≠ some '#') := not_not.mpr rfl
  rw [read?, breakOn?_text proper, Option.bind_eq_bind, Option.bind_some]
  simp only [starts, if_neg unblocked, opened, listed, Option.bind_eq_bind, Option.bind_some,
    closed, names_trimStart, reasonOf?_trimEnd, List.isEmpty_iff]
  rfl

/-- What stands before a line does not count, unless the marker can start in it or its last sign
starts a comment. -/
theorem read?_append {front : List Char} (fresh : 'c' ∉ front)
    (other : (Text.trimEnd front).getLast? ≠ some '#') (line : List Char) :
    read? (front ++ line) = read? line := by
  have starts (before : List Char) :
      ((Text.trimEnd (front ++ before)).getLast? ≠ some '#') =
        ((Text.trimEnd before).getLast? ≠ some '#') := by
    rw [Text.trimEnd_append]
    split
    next nothing => simp [nothing, other]
    next something => rw [List.getLast?_append_of_ne_nil _ something]
  have found : Text.breakOn? marker (front ++ line) =
      (Text.breakOn? marker line).map fun parts => (front ++ parts.1, parts.2) :=
    Text.breakOn?_append_left fresh line
  rw [read?, read?, found]
  cases Text.breakOn? marker line with
  | none => rfl
  | some parts =>
    obtain ⟨before, after⟩ := parts
    show (if (Text.trimEnd (front ++ before)).getLast? ≠ some '#' then none else _) =
      if (Text.trimEnd before).getLast? ≠ some '#' then none else _
    exact if_congr (iff_of_eq (starts before)) rfl rfl

/-- **Every directive is read of a line with proper parts.** -/
theorem exists_form {line : List Char} {directive : Directive}
    (read : read? line = some directive) : ∃ form : Form, form.IsProper ∧ form.text = line := by
  obtain ⟨⟨front, after⟩, found, read⟩ := Option.bind_eq_some_iff.mp read
  simp only at read
  split at read
  next => cases read
  next starts =>
    obtain ⟨content, opened, read⟩ := Option.bind_eq_some_iff.mp read
    obtain ⟨⟨list, rest⟩, closed, -⟩ := Option.bind_eq_some_iff.mp read
    -- each cut leaves blanks on the outside, which belong to the part that is next to them
    obtain ⟨kept, gap, rfl, trimmed, blankGap⟩ := Text.exists_trimEnd front
    obtain ⟨lead, last, whole, blankLead, -⟩ := Text.exists_trim after
    obtain ⟨inner, behind, within, blankInner, -⟩ := Text.exists_trim content
    rw [trimmed, not_not, List.getLast?_eq_some_iff] at starts
    obtain ⟨before, rfl⟩ := starts
    obtain ⟨split, fresh⟩ := Text.breakOn?_singleton_iff.mp closed
    rw [Text.strip?_eq_some opened] at whole
    rw [split] at within
    refine ⟨⟨before, gap, lead, inner ++ list, rest ++ (behind ++ last)⟩,
      ⟨fun occurs => ?_, blankGap, blankLead, fun member => ?_⟩, ?_⟩
    · have earlier : marker <:+: before ++ ['#'] ++ gap :=
        List.infix_append_of_infix_left (List.infix_append_of_infix_left occurs)
      exact Text.not_infix_of_breakOn? found earlier
    · rcases List.mem_append.mp member with blank | listed
      · exact absurd (blankInner ')' blank) (by decide)
      · exact fresh listed
    · have sign : "allow(".toList = opening := rfl
      rw [Text.breakOn?_eq_some found, whole, sign, within]
      simp only [Form.text, List.append_assoc, List.cons_append, List.nil_append]

end Directive

end RecipeLint
