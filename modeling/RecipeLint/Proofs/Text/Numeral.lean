/-
**Numbers as digits.**

A text of digits is read as a number digit by digit. What is read is the number that the digits are
in base ten, so a number that is written is read back.

* `decimal?_of_digits`, `decimal?_eq_some_iff` — what digits are read as, and that only digits are.
* `decimal?_toString` — a number that is written is read back.
* `length_toString_le_iff`, `head?_toString_ne` — how many digits are written, and with which one
  they do not start.
-/

import Mathlib.Data.Nat.Digits.Defs
import Mathlib.Tactic.IntervalCases
import RecipeLint.Version

namespace RecipeLint

theorem decimalFrom?_of_digits {digits : List Char} (value : Nat)
    (all : ∀ c ∈ digits, c.isDigit = true) :
    decimalFrom? value digits = some (Nat.ofDigitChars 10 digits value) := by
  induction digits generalizing value with
  | nil => rfl
  | cons c rest ih =>
    have digit : digitValue? c = some (c.toNat - '0'.toNat) := if_pos (all c List.mem_cons_self)
    rw [decimalFrom?, digit, Nat.ofDigitChars_cons]
    exact ih _ fun d member => all d (List.mem_cons_of_mem _ member)

/-- Digits are read as the number that they are in base ten. -/
theorem decimal?_of_digits {digits : List Char} (nonempty : digits ≠ [])
    (all : ∀ c ∈ digits, c.isDigit = true) :
    decimal? digits = some (Nat.ofDigitChars 10 digits 0) := by
  rw [decimal?, if_neg (by simpa using nonempty), decimalFrom?_of_digits 0 all]

theorem isDigit_of_decimalFrom? {digits : List Char} {value number : Nat}
    (read : decimalFrom? value digits = some number) : ∀ c ∈ digits, c.isDigit = true := by
  induction digits generalizing value with
  | nil => exact fun c member => absurd member List.not_mem_nil
  | cons c rest ih =>
    obtain ⟨digit, found, later⟩ := Option.bind_eq_some_iff.mp read
    have first : c.isDigit = true := (Option.ite_none_right_eq_some.mp found).1
    exact List.forall_mem_cons.mpr ⟨first, ih later⟩

/-- **A text is read as a number exactly if it holds digits only, and at least one**; the number is
what they are in base ten. -/
theorem decimal?_eq_some_iff {digits : List Char} {number : Nat} :
    decimal? digits = some number ↔
      digits ≠ [] ∧ (∀ c ∈ digits, c.isDigit = true) ∧ Nat.ofDigitChars 10 digits 0 = number := by
  constructor
  · intro read
    have nonempty : digits ≠ [] := by
      rintro rfl
      cases read
    have all : ∀ c ∈ digits, c.isDigit = true := by
      rw [decimal?, if_neg (by simpa using nonempty)] at read
      exact isDigit_of_decimalFrom? read
    rw [decimal?_of_digits nonempty all] at read
    exact ⟨nonempty, all, Option.some.inj read⟩
  · rintro ⟨nonempty, all, rfl⟩
    exact decimal?_of_digits nonempty all

/-- Digits are below the power of ten with as many zeros. -/
theorem ofDigitChars_lt {digits : List Char} (value : Nat) (all : ∀ c ∈ digits, c.isDigit = true) :
    Nat.ofDigitChars 10 digits value < (value + 1) * 10 ^ digits.length := by
  induction digits generalizing value with
  | nil =>
    rw [Nat.ofDigitChars_nil, List.length_nil]
    omega
  | cons c rest ih =>
    have digit : c.toNat - '0'.toNat ≤ 9 := by
      have within := all c List.mem_cons_self
      simp only [Char.isDigit, Bool.and_eq_true, decide_eq_true_eq, ge_iff_le,
        UInt32.le_iff_toNat_le] at within
      have last : c.toNat ≤ 57 := within.2
      have zero : '0'.toNat = 48 := rfl
      omega
    have below := ih (10 * value + (c.toNat - '0'.toNat))
      fun d member => all d (List.mem_cons_of_mem _ member)
    rw [Nat.ofDigitChars_cons, List.length_cons, Nat.pow_succ']
    refine below.trans_le ?_
    rw [← Nat.mul_assoc]
    exact Nat.mul_le_mul_right _ (by omega)

theorem isDigit_of_mem_toString {n : Nat} {c : Char} (member : c ∈ (toString n).toList) :
    c.isDigit = true := by
  rw [Nat.toString_eq_repr, Nat.toList_repr] at member
  exact Nat.isDigit_of_mem_toDigits (by decide) (by decide) member

theorem toString_ne_nil (n : Nat) : (toString n).toList ≠ [] := by
  rw [Nat.toString_eq_repr, Nat.toList_repr]
  exact Nat.toDigits_ne_nil

theorem ofDigitChars_toString (n : Nat) : Nat.ofDigitChars 10 (toString n).toList 0 = n := by
  rw [Nat.toString_eq_repr, Nat.toList_repr]
  exact Nat.ofDigitChars_ten_toDigits

/-- **A number that is written is read back.** -/
theorem decimal?_toString (n : Nat) : decimal? (toString n).toList = some n := by
  rw [decimal?_of_digits (toString_ne_nil n) fun c => isDigit_of_mem_toString,
    ofDigitChars_toString]

/-- Only zero starts with the digit zero. -/
theorem head?_toString_ne {n : Nat} (positive : 0 < n) : (toString n).toList.head? ≠ some '0' := by
  induction n using Nat.strongRecOn with
  | ind n ih =>
    rw [Nat.toString_eq_repr, Nat.toList_repr]
    by_cases small : n < 10
    · rw [Nat.toDigits_of_lt_base small]
      interval_cases n <;> decide
    · have shorter : 0 < n / 10 := Nat.div_pos (Nat.le_of_not_lt small) (by decide)
      have earlier := ih (n / 10) (by omega) shorter
      rw [Nat.toString_eq_repr, Nat.toList_repr] at earlier
      obtain ⟨first, others, split⟩ := List.exists_cons_of_ne_nil
        (Nat.toDigits_ne_nil (b := 10) (n := n / 10))
      rw [Nat.toDigits_of_base_le (by decide) (Nat.le_of_not_lt small), split]
      rwa [split] at earlier

/-- A number below a power of ten has no more digits than that. -/
theorem length_toString_le_iff {n places : Nat} (positive : 0 < places) :
    (toString n).toList.length ≤ places ↔ n < 10 ^ places := by
  rw [Nat.toString_eq_repr, Nat.toList_repr]
  exact Nat.length_toDigits_le_iff (by decide) positive

end RecipeLint
