/-
**What is cut off a text, and where a marker is found in it.**

A text keeps what it holds from its first to its last character that is no blank when it is trimmed.
A marker is found behind a text in which it does not occur, as long as it cannot begin in that text
and end behind it.

* `trimEnd_append_cons`, `trim_append_cons` — trimming stops at a character that is no blank.
* `exists_trim` — a text is its trimmed part between blanks.
* `splitAt_intercalate`, `intercalate_splitAt` — taking a text apart and joining its parts.
* `breakOn?_append_left`, `breakOn?_append_cons` — a marker is looked for behind a text without it.
* `not_infix_of_breakOn?` — it does not occur before the place where it is found.
* `breakOn?_singleton_iff` — the first occurrence of a character.
-/

import Mathlib.Data.List.Infix
import RecipeLint.Proofs.SourceFile.Lines
import RecipeLint.Proofs.SourceFile.Widening

namespace RecipeLint.Text

variable {c first : Char} {front rest text blanks marker before after : List Char}

/-! ### Blanks -/

theorem trimStart_append (blank : ∀ c ∈ blanks, isBlank c = true) :
    trimStart (blanks ++ text) = trimStart text :=
  List.dropWhile_append_of_pos blank

theorem trimStart_cons (solid : isBlank c = false) : trimStart (c :: rest) = c :: rest :=
  List.dropWhile_cons_of_neg (by rw [solid]; exact Bool.false_ne_true)

/-- Trimming an end stops at a character that is no blank. -/
theorem trimEnd_append_cons (front rest : List Char) (solid : isBlank c = false) :
    trimEnd (front ++ c :: rest) = front ++ c :: trimEnd rest := by
  have kept : (c :: front.reverse).dropWhile isBlank = c :: front.reverse := trimStart_cons solid
  have turned : (front ++ c :: rest).reverse = rest.reverse ++ c :: front.reverse := by simp
  rw [trimEnd, turned, List.dropWhile_append, trimEnd]
  split
  next empty =>
    rw [List.isEmpty_iff.mp empty, kept]
    simp
  next => simp

/-- Trimming an end goes on into the text before it if nothing is left of it. -/
theorem trimEnd_append (front text : List Char) :
    trimEnd (front ++ text) =
      if trimEnd text = [] then trimEnd front else front ++ trimEnd text := by
  simp only [trimEnd, List.reverse_append, List.dropWhile_append, List.isEmpty_iff,
    List.reverse_eq_nil_iff]
  split <;> simp

/-- A text is trimmed on both sides of a character that is no blank. -/
theorem trim_append_cons (front rest : List Char) (solid : isBlank c = false) :
    trim (front ++ c :: rest) = trimStart front ++ c :: trimEnd rest := by
  rw [trim, trimStart, List.dropWhile_append, trimStart]
  split
  next empty =>
    rw [List.isEmpty_iff.mp empty, List.nil_append]
    exact (congrArg trimEnd (trimStart_cons solid)).trans (trimEnd_append_cons [] rest solid)
  next => exact trimEnd_append_cons _ rest solid

theorem trimEnd_of_blank (blank : ∀ c ∈ blanks, isBlank c = true) : trimEnd blanks = [] := by
  have nothing := trimEnd_append_blank [] blank
  rwa [List.nil_append] at nothing

theorem trim_append_left (blank : ∀ c ∈ blanks, isBlank c = true)
    (text : List Char) : trim (blanks ++ text) = trim text := by
  rw [trim, trimStart_append blank, trim]

theorem trim_append_right (blank : ∀ c ∈ blanks, isBlank c = true)
    (text : List Char) : trim (text ++ blanks) = trim text := by
  rw [trim, trimStart, List.dropWhile_append, trim, trimStart]
  split
  next empty =>
    rw [List.isEmpty_iff.mp empty, List.dropWhile_eq_nil_iff.mpr blank]
  next => exact trimEnd_append_blank _ blank

theorem trim_trimEnd (text : List Char) : trim (trimEnd text) = trim text := by
  obtain ⟨kept, blanks, rfl, trimmed, blank⟩ := exists_trimEnd text
  rw [trimmed, trim_append_right blank]

/-- **A text is its trimmed part between blanks.** -/
theorem exists_trim (text : List Char) :
    ∃ before after, text = before ++ (trim text ++ after) ∧
      (∀ c ∈ before, isBlank c = true) ∧ ∀ c ∈ after, isBlank c = true := by
  obtain ⟨kept, after, whole, trimmed, blankAfter⟩ := exists_trimEnd (trimStart text)
  have blankBefore : ∀ c ∈ text.takeWhile isBlank, isBlank c = true :=
    fun c member => List.mem_takeWhile_imp member
  refine ⟨text.takeWhile isBlank, after, ?_, blankBefore, blankAfter⟩
  rw [trim, trimmed, ← whole]
  exact List.takeWhile_append_dropWhile.symm

/-- What is cut off at the start of a text are blanks. -/
theorem exists_trimStart (text : List Char) :
    ∃ before, text = before ++ trimStart text ∧ ∀ c ∈ before, isBlank c = true :=
  ⟨text.takeWhile isBlank, List.takeWhile_append_dropWhile.symm,
    fun _ member => List.mem_takeWhile_imp member⟩

theorem trim_of_solid (solid : ∀ c ∈ text, isBlank c = false) : trim text = text := by
  have kept : ∀ text : List Char, (∀ c ∈ text, isBlank c = false) → trimStart text = text := by
    intro text solid
    cases text with
    | nil => rfl
    | cons c rest => exact trimStart_cons (solid c List.mem_cons_self)
  have turned : trimStart text.reverse = text.reverse :=
    kept _ fun c member => solid c (List.mem_reverse.mp member)
  have untouched : trimEnd text = text := by
    show (trimStart text.reverse).reverse = text
    rw [turned, List.reverse_reverse]
  rw [trim, kept text solid, untouched]

/-- What stands between blanks is trimmed as if they were not there. -/
theorem trim_between (blankBefore : ∀ c ∈ before, isBlank c = true)
    (blankAfter : ∀ c ∈ after, isBlank c = true) (text : List Char) :
    trim (before ++ (text ++ after)) = trim text := by
  rw [trim_append_left blankBefore, trim_append_right blankAfter]

/-! ### Parts between separators -/

section Separators

variable {separator : Char} {parts : List (List Char)}

/-- Parts without the separator are found again in the text that it joins them to. -/
theorem splitAt_intercalate (nonempty : parts ≠ []) (fresh : ∀ part ∈ parts, separator ∉ part) :
    splitAt separator ([separator].intercalate parts) = parts := by
  rw [splitAt_eq_splitOn, List.splitOn_intercalate separator fresh nonempty]

/-- A text is its parts with the separator between them. -/
theorem intercalate_splitAt (separator : Char) (text : List Char) :
    [separator].intercalate (splitAt separator text) = text := by
  rw [splitAt_eq_splitOn, List.intercalate_splitOn]

/-- What holds of the separator and of all parts holds throughout the text that they make up. -/
theorem forall_mem_intercalate {holds : Char → Prop} (between : holds separator)
    (each : ∀ part ∈ parts, ∀ c ∈ part, holds c) :
    ∀ c ∈ [separator].intercalate parts, holds c := by
  induction parts with
  | nil => exact fun c member => absurd member List.not_mem_nil
  | cons part parts ih =>
    have first := each part List.mem_cons_self
    have later := ih fun other member => each other (List.mem_cons_of_mem _ member)
    cases parts with
    | nil => rwa [List.intercalate_singleton]
    | cons next parts =>
      rw [List.intercalate_cons_cons, List.forall_mem_append, List.forall_mem_append,
        List.forall_mem_singleton]
      exact ⟨⟨first, between⟩, later⟩

end Separators

/-! ### Markers -/

/-- A word with a character that it does not hold behind a text starts in the text if it starts
there at all. -/
theorem prefix_of_prefix_append_cons (foreign : c ∉ marker)
    (starts : marker <+: front ++ c :: rest) : marker <+: front := by
  induction front generalizing marker with
  | nil =>
    cases marker with
    | nil => exact List.nil_prefix
    | cons m marker =>
      rw [List.nil_append, List.cons_prefix_cons] at starts
      exact absurd starts.1.symm (List.ne_of_not_mem_cons foreign)
  | cons d front ih =>
    cases marker with
    | nil => exact List.nil_prefix
    | cons m marker =>
      rw [List.cons_append, List.cons_prefix_cons] at starts
      exact List.cons_prefix_cons.mpr ⟨starts.1, ih (List.not_mem_of_not_mem_cons foreign) starts.2⟩

/-- A marker is looked for behind a text that does not hold its first character. -/
theorem breakOn?_append_left (fresh : first ∉ front) (text : List Char) :
    breakOn? (first :: marker) (front ++ text) =
      (breakOn? (first :: marker) text).map fun (before, after) => (front ++ before, after) := by
  induction front with
  | nil => simp
  | cons d front ih =>
    have different : first ≠ d := List.ne_of_not_mem_cons fresh
    rw [List.cons_append, breakOn?, strip?, if_neg different,
      ih (List.not_mem_of_not_mem_cons fresh), Option.map_map]
    rfl

/-- A marker is looked for behind a text in which it does not occur, if the text is followed by a
character that the marker does not hold. -/
theorem breakOn?_append_cons (foreign : c ∉ marker) (absent : ¬ marker <:+: front) :
    breakOn? marker (front ++ c :: rest) =
      (breakOn? marker (c :: rest)).map fun (before, after) => (front ++ before, after) := by
  induction front with
  | nil => simp
  | cons d front ih =>
    rw [List.infix_cons_iff, not_or] at absent
    have missing : strip? marker (d :: (front ++ c :: rest)) = none := by
      rw [Option.eq_none_iff_forall_ne_some]
      intro behind found
      have starts : marker <+: d :: front ++ c :: rest := ⟨behind, (strip?_eq_some found).symm⟩
      exact absent.1 (prefix_of_prefix_append_cons foreign starts)
    rw [List.cons_append, breakOn?, missing]
    show (breakOn? marker (front ++ c :: rest)).map _ = _
    rw [ih absent.2, Option.map_map]
    rfl

/-- A marker does not occur before the place where it is found. -/
theorem not_infix_of_breakOn? (found : breakOn? (first :: marker) text = some (before, after)) :
    ¬ first :: marker <:+: before := by
  induction text generalizing before with
  | nil => cases found
  | cons d text ih =>
    rw [breakOn?] at found
    split at found
    next =>
      cases found
      exact fun occurs => by cases List.infix_nil.mp occurs
    next missing =>
      simp only [Option.map_eq_some_iff, Prod.mk.injEq, Prod.exists] at found
      obtain ⟨inner, behind, later, rfl, rfl⟩ := found
      rw [List.infix_cons_iff, not_or]
      refine ⟨?_, ih later⟩
      rintro ⟨tail, starts⟩
      have whole : d :: text = first :: marker ++ (tail ++ (first :: marker) ++ behind) := by
        rw [breakOn?_eq_some later, ← List.append_assoc, ← List.append_assoc, starts]
        rfl
      rw [whole, strip?_append] at missing
      cases missing

/-- **The first occurrence of a character** splits a text into what stands before and behind it. -/
theorem breakOn?_singleton_iff :
    breakOn? [c] text = some (before, after) ↔ text = before ++ c :: after ∧ c ∉ before := by
  constructor
  · intro found
    have whole := breakOn?_eq_some found
    rw [List.append_assoc, List.singleton_append] at whole
    refine ⟨whole, fun member => not_infix_of_breakOn? found ?_⟩
    obtain ⟨earlier, later, rfl⟩ := List.append_of_mem member
    exact ⟨earlier, later, by simp⟩
  · rintro ⟨rfl, fresh⟩
    have here := breakOn?_append [c] after
    rw [breakOn?_append_left fresh]
    rw [List.singleton_append] at here
    rw [here]
    simp

end RecipeLint.Text
