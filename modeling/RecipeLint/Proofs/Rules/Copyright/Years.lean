/-
**Years of a copyright.**

A year is four digits. Years are taken from the left, and what follows the last year of a line is
found from the right; a run of fewer than four digits that something else follows is no year for
either. What follows the last year holds no four digits in a row.

* `Yearless` — texts without four digits in a row.
* `years_year`, `years_short` — the years of a text that starts with a year, or with fewer digits.
* `afterLastYear?_year` — a year after which there is none is the last one.
* `afterYears?_eq_some` — what is taken for a holder is a yearless end of the line.
-/

import Mathlib.Data.List.Infix
import RecipeLint.Proofs.Text.Numeral
import RecipeLint.Rules.Copyright

namespace RecipeLint.Rules.Copyright

variable {text rest digits : List Char} {c : Char}

/-! ### Four digits -/

/-- Four digits. -/
structure IsYear (digits : List Char) : Prop where
  /-- There are four of them. -/
  four : digits.length = 4
  /-- All of them are digits. -/
  all : ∀ c ∈ digits, c.isDigit = true

theorem IsYear.exists_cons {digits : List Char} (isYear : IsYear digits) :
    ∃ d more, digits = d :: more :=
  List.exists_cons_of_length_pos (by rw [isYear.four]; decide)

/-- A text starts with a year if its first four characters are digits. -/
theorem year?_eq_some_iff {year : Nat} :
    year? text = some (year, rest) ↔
      ∃ digits, IsYear digits ∧ text = digits ++ rest ∧ Nat.ofDigitChars 10 digits 0 = year := by
  constructor
  · intro found
    unfold year? at found
    split at found
    next a b c d after =>
      by_cases all : [a, b, c, d].all Char.isDigit = true
      · have digits : IsYear [a, b, c, d] := ⟨rfl, List.all_eq_true.mp all⟩
        simp only [all, if_true, decimal?_of_digits (List.cons_ne_nil _ _) digits.all] at found
        cases found
        exact ⟨_, digits, rfl, rfl⟩
      · simp only [all] at found
        cases found
    next => cases found
  · rintro ⟨digits, isYear, rfl, rfl⟩
    obtain ⟨a, b, c, d, rfl⟩ := List.length_eq_four.mp isYear.four
    have all : [a, b, c, d].all Char.isDigit = true := List.all_eq_true.mpr isYear.all
    simp only [year?, List.cons_append, List.nil_append, all, if_true,
      decimal?_of_digits (List.cons_ne_nil _ _) isYear.all]
    rfl

/-- Fewer than four characters before one that is no digit start no year. -/
theorem year?_short (digits : List Char) (few : digits.length < 4) (other : c.isDigit = false) :
    year? (digits ++ c :: rest) = none := by
  rw [Option.eq_none_iff_forall_ne_some]
  rintro ⟨year, after⟩ found
  obtain ⟨four, isYear, whole, -⟩ := year?_eq_some_iff.mp found
  have here : c ∈ four := by
    have place : (digits ++ c :: rest)[digits.length]? = some c := by simp
    rw [whole, List.getElem?_append_left (by rw [isYear.four]; exact few)] at place
    exact List.mem_of_getElem? place
  rw [isYear.all c here] at other
  cases other

/-! ### Texts without a year -/

/-- A text without four digits in a row. -/
def Yearless (text : List Char) : Prop :=
  ∀ digits, IsYear digits → ¬ digits <:+: text

theorem Yearless.part {part : List Char} (yearless : Yearless text) (within : part <:+: text) :
    Yearless part :=
  fun digits isYear occurs => yearless digits isYear (occurs.trans within)

theorem yearless_nil : Yearless [] := by
  intro digits isYear occurs
  have four := isYear.four
  rw [List.infix_nil.mp occurs] at four
  cases four

/-- A year is nowhere in a text if it starts neither there nor later. -/
theorem yearless_cons (here : year? (c :: rest) = none) (later : Yearless rest) :
    Yearless (c :: rest) := by
  intro digits isYear occurs
  rcases List.infix_cons_iff.mp occurs with ⟨after, whole⟩ | occurs
  · rw [year?_eq_some_iff.mpr ⟨digits, isYear, whole.symm, rfl⟩] at here
    cases here
  · exact later digits isYear occurs

theorem Yearless.year?_eq_none (yearless : Yearless text) : year? text = none := by
  rw [Option.eq_none_iff_forall_ne_some]
  rintro ⟨year, after⟩ found
  obtain ⟨digits, isYear, whole, -⟩ := year?_eq_some_iff.mp found
  exact yearless digits isYear ⟨[], after, whole.symm⟩

/-- Fewer than four characters before one that is no digit bring up no year. -/
theorem yearless_short (digits : List Char) (few : digits.length < 4) (other : c.isDigit = false)
    (later : Yearless rest) : Yearless (digits ++ c :: rest) := by
  induction digits with
  | nil => exact yearless_cons (year?_short [] (by decide) other) later
  | cons d digits ih =>
    exact yearless_cons (year?_short (d :: digits) few other)
      (ih (Nat.lt_of_succ_lt few))

/-! ### Years from the left -/

/-- A year is the first of a text, and the others are those behind it. -/
theorem years_year (isYear : IsYear digits) :
    years (digits ++ rest) = Nat.ofDigitChars 10 digits 0 :: years rest := by
  have found : year? (digits ++ rest) = some (_, rest) :=
    year?_eq_some_iff.mpr ⟨digits, isYear, rfl, rfl⟩
  obtain ⟨a, b, c, d, rfl⟩ := List.length_eq_four.mp isYear.four
  rw [List.cons_append] at found ⊢
  rw [years, yearsFrom, found]
  rfl

theorem years_cons (missing : year? (c :: rest) = none) : years (c :: rest) = years rest := by
  rw [years, yearsFrom, missing]
  rfl

/-- Fewer than four characters before one that is no digit are passed over. -/
theorem years_short (digits : List Char) (few : digits.length < 4) (other : c.isDigit = false) :
    years (digits ++ c :: rest) = years rest := by
  induction digits with
  | nil => exact years_cons (year?_short [] (by decide) other)
  | cons d digits ih =>
    exact (years_cons (year?_short (d :: digits) few other)).trans (ih (Nat.lt_of_succ_lt few))

theorem years_append {before : List Char} (others : before.any Char.isDigit = false) :
    years (before ++ rest) = years rest := by
  induction before with
  | nil => rfl
  | cons c before ih =>
    rw [List.any_cons, Bool.or_eq_false_iff] at others
    exact (years_short [] (by decide) others.1).trans (ih others.2)

theorem Yearless.years_eq_nil (yearless : Yearless text) : years text = [] := by
  induction text with
  | nil => rfl
  | cons c rest ih =>
    rw [years_cons yearless.year?_eq_none]
    exact ih (yearless.part (List.suffix_cons c rest).isInfix)

theorem lt_of_mem_yearsFrom {skip year : Nat} (member : year ∈ yearsFrom skip text) :
    year < 10000 := by
  induction text generalizing skip with
  | nil => cases skip <;> exact (List.not_mem_nil member).elim
  | cons c rest ih =>
    cases skip with
    | succ skip => exact ih member
    | zero =>
      rw [yearsFrom] at member
      split at member
      next found =>
        rcases List.mem_cons.mp member with rfl | later
        · obtain ⟨digits, isYear, -, rfl⟩ := year?_eq_some_iff.mp found
          have below := ofDigitChars_lt 0 isYear.all
          rwa [isYear.four] at below
        · exact ih later
      next => exact ih member

/-- A year has four digits. -/
theorem lt_of_mem_years {year : Nat} (member : year ∈ years text) : year < 10000 :=
  lt_of_mem_yearsFrom member

/-! ### The last year of a line -/

theorem afterLastYear?_cons (inner : c ≠ '\n') :
    afterLastYear? (c :: rest) =
      (afterLastYear? rest).or ((year? (c :: rest)).map (·.2)) := by
  rw [afterLastYear?]
  · cases afterLastYear? rest <;> rfl
  · exact inner

/-- A line has a last year unless it has no year. -/
theorem afterLastYear?_eq_none_iff (line : '\n' ∉ text) :
    afterLastYear? text = none ↔ Yearless text := by
  induction text with
  | nil => exact ⟨fun _ => yearless_nil, fun _ => rfl⟩
  | cons c rest ih =>
    have later := ih (List.not_mem_of_not_mem_cons line)
    rw [afterLastYear?_cons (List.ne_of_not_mem_cons line).symm, Option.or_eq_none_iff,
      Option.map_eq_none_iff, later]
    constructor
    · exact fun both => yearless_cons both.2 both.1
    · exact fun yearless =>
        ⟨yearless.part (List.suffix_cons c rest).isInfix, yearless.year?_eq_none⟩

/-- What follows the last year of a line is a yearless end of it. -/
theorem afterLastYear?_eq_some {after : List Char} (line : '\n' ∉ text)
    (found : afterLastYear? text = some after) : after <:+ text ∧ Yearless after := by
  induction text with
  | nil => cases found
  | cons c rest ih =>
    have restLine := List.not_mem_of_not_mem_cons line
    rw [afterLastYear?_cons (List.ne_of_not_mem_cons line).symm, Option.or_eq_some_iff] at found
    rcases found with later | ⟨missing, here⟩
    · obtain ⟨ending, yearless⟩ := ih restLine later
      exact ⟨ending.trans (List.suffix_cons c rest), yearless⟩
    · -- the year at the start is the last one, so there is none behind its first digit
      obtain ⟨⟨year, rest'⟩, found, rfl⟩ := Option.map_eq_some_iff.mp here
      obtain ⟨digits, isYear, whole, -⟩ := year?_eq_some_iff.mp found
      obtain ⟨d, more, rfl⟩ := isYear.exists_cons
      rw [List.cons_append] at whole
      injection whole with _ tail
      have ending : rest' <:+ rest := ⟨more, tail.symm⟩
      exact ⟨ending.trans (List.suffix_cons c rest),
        ((afterLastYear?_eq_none_iff restLine).mp missing).part ending.isInfix⟩

/-- **A year after which there is none is the last one**, whatever stands before it on the line. -/
theorem afterLastYear?_year {before : List Char} (line : '\n' ∉ before ++ (digits ++ c :: rest))
    (isYear : IsYear digits) (other : c.isDigit = false) (yearless : Yearless rest) :
    afterLastYear? (before ++ (digits ++ c :: rest)) = some (c :: rest) := by
  induction before with
  | nil =>
    rw [List.nil_append] at line ⊢
    have found : year? (digits ++ c :: rest) = some (_, c :: rest) :=
      year?_eq_some_iff.mpr ⟨digits, isYear, rfl, rfl⟩
    obtain ⟨d, more, rfl⟩ := isYear.exists_cons
    have few : more.length < 4 := Nat.lt_of_succ_le isYear.four.le
    have missing : afterLastYear? (more ++ c :: rest) = none :=
      (afterLastYear?_eq_none_iff (List.not_mem_of_not_mem_cons line)).mpr
        (yearless_short more few other yearless)
    rw [List.cons_append] at line found ⊢
    rw [afterLastYear?_cons (List.ne_of_not_mem_cons line).symm, missing, found]
    rfl
  | cons b before ih =>
    rw [List.cons_append] at line ⊢
    rw [afterLastYear?_cons (List.ne_of_not_mem_cons line).symm,
      ih (List.not_mem_of_not_mem_cons line)]
    rfl

/-! ### What is taken for a holder -/

theorem dropNonWord_suffix (text : List Char) : dropNonWord text <:+ text :=
  List.dropWhile_suffix _

/-- What follows the last year of a line, or the keyword, is a yearless end of the line. -/
theorem afterYears?_eq_some {after : List Char} (line : '\n' ∉ text)
    (found : afterYears? text = some after) : after <:+ text ∧ Yearless after := by
  induction text with
  | nil => cases found
  | cons c rest ih =>
    rw [afterYears?] at found
    split at found
    next last =>
      cases found
      exact afterLastYear?_eq_some line last
    next missing =>
      have yearless := (afterLastYear?_eq_none_iff line).mp missing
      split at found
      next stripped =>
        cases found
        have ending : dropNonWord _ <:+ c :: rest :=
          (dropNonWord_suffix _).trans ⟨keyword, (Text.strip?_eq_some stripped).symm⟩
        exact ⟨ending, yearless.part ending.isInfix⟩
      next =>
        obtain ⟨ending, yearlessAfter⟩ := ih (List.not_mem_of_not_mem_cons line) found
        exact ⟨ending.trans (List.suffix_cons c rest), yearlessAfter⟩

/-- After a year behind which there is none the holder is named. -/
theorem afterYears?_year {before : List Char} (line : '\n' ∉ before ++ (digits ++ c :: rest))
    (isYear : IsYear digits) (other : c.isDigit = false) (yearless : Yearless rest) :
    afterYears? (before ++ (digits ++ c :: rest)) = some (c :: rest) := by
  have last := afterLastYear?_year line isYear other yearless
  cases whole : before ++ (digits ++ c :: rest) with
  | nil => simp at whole
  | cons first others =>
    rw [whole] at last
    rw [afterYears?, last]

end RecipeLint.Rules.Copyright
