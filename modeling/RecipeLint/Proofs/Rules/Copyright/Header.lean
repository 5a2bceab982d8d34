/-
**Headers read again.**

A comment about the copyright is rewritten to a header: a range of years and a holder. What is found
when the header is read again is said here. The holder is found as it was written, because it has
been renamed, is on one line and brings up no year. The range is found as it was written if it
starts with the oldest year of the comment and that year has four digits when it is written and does
not come after the current one; otherwise the header is rewritten once more.

* `Settled` — holders that are found as they are written; `holder_settled` says that every holder
  of a single line is one.
* `header?_headerText` — the header that a header is rewritten to.
* `header?_header?_iff` — the comments whose header is left alone.
-/

import Mathlib.Data.List.TakeWhile
import RecipeLint.Proofs.Rules.Copyright.Holder
import RecipeLint.Proofs.Rules.Copyright.Years

namespace RecipeLint.Rules.Copyright

/-! ### Holders -/

/-- **A holder that is found as it is written.** -/
structure Settled (name : List Char) : Prop where
  /-- It is on one line. -/
  line : '\n' ∉ name
  /-- It brings up no year. -/
  yearless : Yearless name
  /-- It is the present name. -/
  renamed : rename name = name

theorem dropSeparator_suffix (text : List Char) : dropSeparator text <:+ text := by
  have blank (c : Char) (rest : List Char) :
      (if Text.isBlank c then rest else c :: rest) <:+ c :: rest := by
    split
    · exact List.suffix_cons c rest
    · exact List.suffix_refl _
  unfold dropSeparator
  split
  case h_1 rest =>
    cases rest with
    | nil => exact List.nil_suffix
    | cons c rest => exact (blank c rest).trans (List.suffix_cons _ _)
  case h_2 =>
    cases text with
    | nil => exact List.nil_suffix
    | cons c rest => exact blank c rest

/-- A line names a part of it without a year, which is then renamed. -/
theorem exists_holder_eq_rename {text : List Char} (line : '\n' ∉ text) :
    ∃ name, holder text = rename name ∧ name <:+: text ∧ Yearless name := by
  have source : (afterYears? text).getD [] <:+: text ∧ Yearless ((afterYears? text).getD []) := by
    cases found : afterYears? text with
    | none => exact ⟨List.nil_infix, yearless_nil⟩
    | some after =>
      obtain ⟨ending, yearless⟩ := afterYears?_eq_some line found
      exact ⟨ending.isInfix, yearless⟩
  have part : lineOf (dropSeparator ((afterYears? text).getD [])) <:+: (afterYears? text).getD [] :=
    (List.takeWhile_prefix _).isInfix.trans (dropSeparator_suffix _).isInfix
  exact ⟨_, rfl, part.trans source.1, source.2.part part⟩

/-- **The holder that a single line names is settled.** -/
theorem holder_settled {text : List Char} (line : '\n' ∉ text) : Settled (holder text) := by
  obtain ⟨name, isRenamed, part, yearless⟩ := exists_holder_eq_rename line
  rw [isRenamed]
  refine ⟨fun member => ?_, fun digits isYear occurs => ?_, rename_rename name⟩
  · obtain ⟨before, after, whole⟩ := List.append_of_mem member
    have occurs : ['\n'] <:+: rename name := ⟨before, after, by simp [whole]⟩
    have given := infix_of_infix_rename (by decide) (by decide) occurs
    exact line (part.subset (given.subset List.mem_cons_self))
  · have letters : presentName.any Char.isDigit = false := by decide
    have apart : ∀ c ∈ digits, c ∉ presentName := by
      intro c member within
      exact List.any_eq_false.mp letters c within (isYear.all c member)
    cases digits with
    | nil => cases isYear.four
    | cons d more =>
      refine yearless _ isYear (infix_of_infix_rename ?_ (apart d List.mem_cons_self) occurs)
      exact fun member => apart 'C' member (by decide)

/-! ### A header -/

/-- The header with a range of years and a holder. -/
def headerText (range name : List Char) : List Char :=
  '#' :: ' ' :: keyword ++ ':' :: ':' :: ' ' :: (range ++ ',' :: ' ' :: name)

theorem headerText_eq (range name : List Char) : headerText range name =
    ('#' :: ' ' :: keyword ++ [':', ':', ' ']) ++ (range ++ ',' :: ' ' :: name) := by
  simp only [headerText, List.append_assoc, List.cons_append, List.nil_append]

/-- **A range of years on one line**, from a digit to the last digit of a year. -/
structure IsRange (range : List Char) : Prop where
  /-- The first character is a digit. -/
  starts : ∃ c rest, range = c :: rest ∧ c.isDigit = true
  /-- The last four characters are a year. -/
  ends : ∃ before digits, range = before ++ digits ∧ IsYear digits
  /-- The range is on one line. -/
  line : '\n' ∉ range

theorem lineOf_eq_self {text : List Char} (line : '\n' ∉ text) : lineOf text = text := by
  refine List.takeWhile_eq_self_iff.mpr fun c member => ?_
  rw [decide_eq_true_eq]
  exact fun same => line (same ▸ member)

theorem isWord_of_isDigit {c : Char} (digit : c.isDigit = true) : Text.isWord c = true := by
  have ascii : c.toNat < 128 := by
    have within := digit
    simp only [Char.isDigit, Bool.and_eq_true, decide_eq_true_eq, UInt32.le_iff_toNat_le] at within
    have last : c.toNat ≤ 57 := within.2
    omega
  exact Text.isWord_of_isAlphanum ascii (by rw [Char.isAlphanum, digit, Bool.or_true])

section

variable {range name : List Char} (isRange : IsRange range) (settled : Settled name)

include isRange settled

theorem line_range_holder : '\n' ∉ range ++ ',' :: ' ' :: name := by
  rw [List.mem_append, List.mem_cons, List.mem_cons]
  rintro (inRange | comma | blank | inName)
  · exact isRange.line inRange
  · cases comma
  · cases blank
  · exact settled.line inName

/-- A header says what it was made of. -/
theorem statement?_headerText :
    statement? (headerText range name) = some (range ++ ',' :: ' ' :: name) := by
  have marked : Text.breakOn? ('#' :: ' ' :: keyword) (headerText range name) =
      some ([], ':' :: ':' :: ' ' :: (range ++ ',' :: ' ' :: name)) :=
    Text.breakOn?_append _ _
  have words : dropNonWord (':' :: ':' :: ' ' :: (range ++ ',' :: ' ' :: name)) =
      range ++ ',' :: ' ' :: name := by
    obtain ⟨c, rest, rfl, digit⟩ := isRange.starts
    have signs : dropNonWord ([':', ':', ' '] ++ (c :: rest ++ ',' :: ' ' :: name)) =
        dropNonWord (c :: rest ++ ',' :: ' ' :: name) :=
      List.dropWhile_append_of_pos (List.all_eq_true.mp (by decide))
    rw [List.cons_append] at signs ⊢
    refine signs.trans (List.dropWhile_cons_of_neg ?_)
    rw [isWord_of_isDigit digit]
    decide
  rw [statement?, marked]
  show some (lineOf (dropNonWord _)) = _
  rw [words, lineOf_eq_self (line_range_holder isRange settled)]

/-- **The holder of a header is found as it is written.** -/
theorem holder_headerText : holder (headerText range name) = name := by
  have lineAll : '\n' ∉ headerText range name := by
    rw [headerText_eq, List.mem_append, not_or]
    exact ⟨by decide, line_range_holder isRange settled⟩
  obtain ⟨before, digits, rfl, isYear⟩ := isRange.ends
  have regrouped : headerText (before ++ digits) name =
      ('#' :: ' ' :: keyword ++ ':' :: ':' :: ' ' :: before) ++ (digits ++ ',' :: ' ' :: name) := by
    simp only [headerText, List.append_assoc, List.cons_append]
  have yearless : Yearless (' ' :: name) :=
    yearless_short [] (by decide) (by decide) settled.yearless
  rw [regrouped] at lineAll
  have named : afterYears? (headerText (before ++ digits) name) = some (',' :: ' ' :: name) := by
    rw [regrouped]
    exact afterYears?_year lineAll isYear (by decide) yearless
  calc holder (headerText (before ++ digits) name)
      = rename (lineOf (dropSeparator (',' :: ' ' :: name))) := by
        rw [holder, named, Option.getD_some, rename]
    _ = rename (lineOf name) := rfl
    _ = name := by rw [lineOf_eq_self settled.line, settled.renamed]

end

/-- The years of a header are those of its range. -/
theorem years_headerText (range name : List Char) :
    years (headerText range name) = years (range ++ ',' :: ' ' :: name) := by
  rw [headerText_eq, years_append (by decide)]

/-! ### Ranges of years -/

theorem isYear_toString {year : Nat} (least : 1000 ≤ year) (greatest : year ≤ 9999) :
    IsYear (toString year).toList := by
  refine ⟨?_, fun c => isDigit_of_mem_toString⟩
  have few : (toString year).toList.length ≤ 4 :=
    (length_toString_le_iff (by decide)).mpr (by omega)
  have many : ¬ (toString year).toList.length ≤ 3 := fun short =>
    absurd ((length_toString_le_iff (by decide)).mp short) (by omega)
  omega

/-- The years from an old one to the present one. -/
def pairText (oldest current : Nat) : List Char :=
  (toString oldest).toList ++ '-' :: (toString current).toList

section

variable {oldest current : Nat} {name : List Char} (least : 1000 ≤ current)
  (greatest : current ≤ 9999)

include least greatest

theorem isRange_single : IsRange (toString current).toList := by
  have isYear := isYear_toString least greatest
  obtain ⟨c, rest, whole⟩ := isYear.exists_cons
  refine ⟨⟨c, rest, whole, isYear.all c (whole ▸ List.mem_cons_self)⟩, ⟨[], _, rfl, isYear⟩, ?_⟩
  intro member
  cases isYear.all '\n' member

theorem isRange_pair : IsRange (pairText oldest current) := by
  have isYear := isYear_toString least greatest
  obtain ⟨c, rest, whole⟩ := List.exists_cons_of_ne_nil (toString_ne_nil oldest)
  refine ⟨⟨c, rest ++ '-' :: (toString current).toList, ?_, ?_⟩,
    ⟨(toString oldest).toList ++ ['-'], _, ?_, isYear⟩, ?_⟩
  · rw [pairText, whole, List.cons_append]
  · exact isDigit_of_mem_toString (whole ▸ List.mem_cons_self)
  · rw [pairText, List.append_assoc, List.singleton_append]
  · rw [pairText, List.mem_append, List.mem_cons]
    rintro (inOldest | dash | inCurrent)
    · cases isDigit_of_mem_toString inOldest
    · cases dash
    · cases isYear.all '\n' inCurrent

variable (yearless : Yearless name)

include yearless

theorem years_single : years ((toString current).toList ++ ',' :: ' ' :: name) = [current] := by
  rw [years_year (isYear_toString least greatest), ofDigitChars_toString]
  have behind : Yearless (',' :: ' ' :: name) :=
    yearless_short [] (by decide) (by decide) (yearless_short [] (by decide) (by decide) yearless)
  rw [behind.years_eq_nil]

/-- A range that starts with four digits names two years, any other one. -/
theorem years_pair (small : oldest < 10000) :
    years (pairText oldest current ++ ',' :: ' ' :: name) =
      if 1000 ≤ oldest then [oldest, current] else [current] := by
  have dashed : years ('-' :: ((toString current).toList ++ ',' :: ' ' :: name)) = [current] :=
    (years_short [] (by decide) (by decide)).trans (years_single least greatest yearless)
  rw [pairText, List.append_assoc, List.cons_append]
  split
  next long =>
    rw [years_year (isYear_toString long (by omega)), ofDigitChars_toString, dashed]
  next short =>
    have few : (toString oldest).toList.length < 4 :=
      Nat.lt_succ_of_le ((length_toString_le_iff (by decide)).mpr (by omega))
    exact (years_short _ few (by decide)).trans (years_single least greatest yearless)

end

/-! ### Rewriting a header -/

/-- Rewriting a comment, in characters. -/
theorem header?_eq (text : String) (current : Int) :
    header? text current =
      if text.toList.head? ≠ some '#' then none
      else (statement? text.toList).bind fun found =>
        if found = (yearRange text.toList current).toList ++ ',' :: ' ' :: holder text.toList then
          none
        else some (String.ofList
          (headerText (yearRange text.toList current).toList (holder text.toList))) := by
  have expected : yearRange text.toList current ++ ", " ++ String.ofList (holder text.toList) =
      String.ofList
        ((yearRange text.toList current).toList ++ ',' :: ' ' :: holder text.toList) := by
    rw [← String.toList_inj]
    simp
  have written : "# Copyright:: " ++
      String.ofList ((yearRange text.toList current).toList ++ ',' :: ' ' :: holder text.toList) =
      String.ofList (headerText (yearRange text.toList current).toList (holder text.toList)) := by
    have beginning : '#' :: ' ' :: keyword ++ [':', ':', ' '] = "# Copyright:: ".toList := by decide
    rw [← String.toList_inj, headerText_eq, beginning]
    simp only [String.toList_append, String.toList_ofList]
  unfold header?
  simp only [expected, written]
  split
  next => rfl
  next =>
    refine congrArg (Option.bind _) (funext fun found => ?_)
    exact if_congr String.ofList_inj rfl rfl

/-- A header is left alone if its range is the one that its years give, and gets that one
otherwise. -/
theorem header?_headerText {range name : List Char} (isRange : IsRange range)
    (settled : Settled name) (current : Int) :
    header? (String.ofList (headerText range name)) current =
      if range = (yearRange (headerText range name) current).toList then none
      else some (String.ofList
        (headerText (yearRange (headerText range name) current).toList name)) := by
  have starts : ¬ (headerText range name).head? ≠ some '#' := not_not.mpr rfl
  rw [header?_eq, String.toList_ofList, if_neg starts, statement?_headerText isRange settled,
    Option.bind_some, holder_headerText isRange settled]
  exact if_congr (List.append_left_inj _) rfl rfl

/-- What a comment is rewritten to. -/
theorem eq_of_header?_eq_some {text header : String} {current : Int}
    (rewritten : header? text current = some header) :
    header = String.ofList
      (headerText (yearRange text.toList current).toList (holder text.toList)) := by
  rw [header?_eq] at rewritten
  split at rewritten
  next => cases rewritten
  next =>
    obtain ⟨found, -, different⟩ := Option.bind_eq_some_iff.mp rewritten
    split at different
    next => cases different
    next => exact (Option.some.inj different).symm

/-! ### Headers that are left alone -/

/-- The range that a comment gets with its oldest year, if it names one: the years from an oldest
one that is not the present one, or the present year alone. -/
def rangeText (oldest? : Option Nat) (current : Nat) : List Char :=
  match oldest? with
  | some oldest => if oldest = current then (toString current).toList else pairText oldest current
  | none => (toString current).toList

theorem yearRange_eq (text : List Char) (current : Nat) :
    (yearRange text current).toList = rangeText (years text).min? current := by
  have alone : toString (current : Int) = toString current := rfl
  unfold yearRange rangeText
  cases (years text).min? with
  | none => rw [alone]
  | some oldest =>
    by_cases same : oldest = current
    · simp only [same, ne_eq, not_true, if_false, if_true, alone]
    · have different : (oldest : Int) ≠ current := fun equal => same (Int.ofNat_inj.mp equal)
      simp only [different, same, ne_eq, not_false_iff, if_true, if_false, alone,
        String.toList_append, pairText, List.append_assoc]
      rfl

/-- A pair of years is longer than its second year. -/
theorem pairText_ne (oldest current : Nat) :
    pairText oldest current ≠ (toString current).toList := by
  intro equal
  have lengths := congrArg List.length equal
  rw [pairText, List.length_append, List.length_cons] at lengths
  omega

section

variable {current : Nat} {name : List Char} (least : 1000 ≤ current) (greatest : current ≤ 9999)
  (settled : Settled name)

include least greatest settled

/-- A header with the present year alone is left alone. -/
theorem header?_single :
    header? (String.ofList (headerText (toString current).toList name)) current = none := by
  have found : (years (headerText (toString current).toList name)).min? = some current := by
    rw [years_headerText, years_single least greatest settled.yearless]
    rfl
  rw [header?_headerText (isRange_single least greatest) settled, yearRange_eq, found, rangeText,
    if_pos rfl, if_pos rfl]

/-- **A header with two years is left alone exactly if the first one has four digits and comes
before the present one**; otherwise it gets the present year alone. -/
theorem header?_pair {oldest : Nat} (different : oldest ≠ current) (small : oldest < 10000) :
    header? (String.ofList (headerText (pairText oldest current) name)) current =
      if 1000 ≤ oldest ∧ oldest < current then none
      else some (String.ofList (headerText (toString current).toList name)) := by
  have found : (years (headerText (pairText oldest current) name)).min? =
      some (if 1000 ≤ oldest ∧ oldest < current then oldest else current) := by
    rw [years_headerText, years_pair least greatest settled.yearless small]
    by_cases long : 1000 ≤ oldest
    · rw [if_pos long]
      show some (min oldest current) = _
      by_cases before : oldest < current
      · rw [if_pos ⟨long, before⟩, Nat.min_eq_left before.le]
      · rw [if_neg fun both => before both.2, Nat.min_eq_right (Nat.le_of_not_lt before)]
    · rw [if_neg long, if_neg fun both => long both.1]
      rfl
  rw [header?_headerText (isRange_pair least greatest) settled, yearRange_eq, found, rangeText]
  by_cases kept : 1000 ≤ oldest ∧ oldest < current
  · rw [if_pos kept, if_neg different, if_pos rfl, if_pos kept]
  · rw [if_neg kept, if_pos rfl, if_neg (pairText_ne oldest current), if_neg kept]

end

/-- **The comments whose header is left alone.** A single-line comment is rewritten to a header that
is left alone exactly if it names no year, or its oldest year is at least 1000 and not after the
present one. -/
theorem header?_header?_iff {text header : String} {current : Int} (line : '\n' ∉ text.toList)
    (least : 1000 ≤ current) (greatest : current ≤ 9999)
    (rewritten : header? text current = some header) :
    header? header current = none ↔
      ∀ oldest ∈ (years text.toList).min?, 1000 ≤ oldest ∧ (oldest : Int) ≤ current := by
  obtain ⟨current, rfl⟩ := Int.eq_ofNat_of_zero_le (by omega : 0 ≤ current)
  have least' : 1000 ≤ current := by omega
  have greatest' : current ≤ 9999 := by omega
  have settled := holder_settled line
  rw [eq_of_header?_eq_some rewritten, yearRange_eq]
  cases found : (years text.toList).min? with
  | none =>
    rw [rangeText, header?_single least' greatest' settled]
    exact ⟨fun _ oldest member => (Option.not_mem_none oldest member).elim, fun _ => rfl⟩
  | some oldest =>
    have small : oldest < 10000 := lt_of_mem_years (List.min?_mem found)
    rw [rangeText]
    by_cases same : oldest = current
    · rw [if_pos same, header?_single least' greatest' settled]
      simp only [Option.mem_some_iff, forall_eq', true_iff]
      omega
    · rw [if_neg same, header?_pair least' greatest' settled same small]
      simp only [Option.mem_some_iff, forall_eq', ite_eq_left_iff, reduceCtorEq, imp_false, not_not]
      omega

/-- The header of a comment with an old year and an old name is left alone. -/
theorem header?_header?_opscode :
    header? "# Copyright 2008-2013, Opscode, Inc." 2024 =
        some "# Copyright:: 2008-2024, Chef Software, Inc." ∧
      header? "# Copyright:: 2008-2024, Chef Software, Inc." 2024 = none := by
  have rewritten : header? "# Copyright 2008-2013, Opscode, Inc." 2024 =
      some "# Copyright:: 2008-2024, Chef Software, Inc." := by decide
  refine ⟨rewritten, (header?_header?_iff (by decide) (by decide) (by decide) rewritten).mpr ?_⟩
  decide

/-- A header whose oldest year is after the present one, or starts with a zero, is rewritten once
more. -/
theorem header?_header?_late_or_early :
    (header? "# Copyright 2030 Acme" 2024 = some "# Copyright:: 2030-2024, Acme" ∧
        header? "# Copyright:: 2030-2024, Acme" 2024 = some "# Copyright:: 2024, Acme") ∧
      header? "# Copyright 0012 Acme" 2024 = some "# Copyright:: 12-2024, Acme" ∧
        header? "# Copyright:: 12-2024, Acme" 2024 = some "# Copyright:: 2024, Acme" := by
  decide

end RecipeLint.Rules.Copyright
