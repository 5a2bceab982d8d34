/-
**Copyright comments settle.**

A comment is rewritten to a header, the header may be rewritten again, and so on. The holder of the
first header is the one that every later header names, so only the range of years can still change.
It changes at most once: a range that the next reading does not give back gets the present year
alone, and that one is kept.

* `SettlesTo` — a comment is rewritten a number of times, and then no more.
* `exists_settlesTo` — every single line settles after two rewrites at most; what a line with a
  rewrite settles to names the holder of the line, and the present year or a range up to it.
-/

import RecipeLint.Proofs.Rules.Copyright.Header

namespace RecipeLint.Rules.Copyright

/-! ### Rewriting until nothing changes -/

/-- **A comment is rewritten a number of times, and then no more.** -/
inductive SettlesTo (current : Int) : Nat → String → String → Prop
  /-- A comment that is left alone has settled. -/
  | done {text : String} (left : header? text current = none) : SettlesTo current 0 text text
  /-- A comment that is rewritten settles to what its header settles to. -/
  | rewrite {count : Nat} {text header final : String}
    (rewritten : header? text current = some header)
    (settles : SettlesTo current count header final) : SettlesTo current (count + 1) text final

/-- A comment settles in one way. -/
theorem SettlesTo.unique {current : Int} {count count' : Nat} {text final final' : String}
    (settles : SettlesTo current count text final)
    (settles' : SettlesTo current count' text final') : count = count' ∧ final = final' := by
  induction settles generalizing count' with
  | done left =>
    cases settles' with
    | done _ => exact ⟨rfl, rfl⟩
    | rewrite rewritten _ =>
      rw [left] at rewritten
      cases rewritten
  | rewrite rewritten _ ih =>
    cases settles' with
    | done left =>
      rw [left] at rewritten
      cases rewritten
    | rewrite rewritten' settles' =>
      rw [rewritten] at rewritten'
      cases rewritten'
      obtain ⟨rfl, rfl⟩ := ih settles'
      exact ⟨rfl, rfl⟩

/-! ### Ranges of years -/

/-- **A range of years of a text**: the present year, or an earlier year that the text names and the
present one. -/
def IsRangeOf (text : String) (current : Int) (range : String) : Prop :=
  range = toString current ∨
    ∃ oldest ∈ years text.toList, (oldest : Int) < current ∧
      range = toString oldest ++ "-" ++ toString current

theorem ofList_headerText (range name : List Char) :
    String.ofList (headerText range name) =
      "# Copyright:: " ++ String.ofList range ++ ", " ++ String.ofList name := by
  have beginning : "# Copyright:: ".toList = '#' :: ' ' :: keyword ++ [':', ':', ' '] := by decide
  rw [← String.toList_inj, headerText_eq]
  simp only [String.toList_append, String.toList_ofList, beginning, List.append_assoc]
  rfl

theorem ofList_pairText (oldest current : Nat) :
    String.ofList (pairText oldest current) = toString oldest ++ "-" ++ toString current := by
  rw [← String.toList_inj, pairText]
  simp only [String.toList_append, String.toList_ofList, List.append_assoc]
  rfl

/-! ### Two rewrites at most -/

section

variable {current : Nat} (least : 1000 ≤ current) (greatest : current ≤ 9999) {name : List Char}
  (settled : Settled name)

include least greatest settled

/-- A header with the present year has settled. -/
theorem settlesTo_single :
    SettlesTo current 0 (String.ofList (headerText (toString current).toList name))
      (String.ofList (headerText (toString current).toList name)) :=
  .done (header?_single least greatest settled)

/-- A header with two years has settled, or settles to the present year alone. -/
theorem settlesTo_pair {oldest : Nat} (different : oldest ≠ current) (small : oldest < 10000) :
    oldest < current ∧
        SettlesTo current 0 (String.ofList (headerText (pairText oldest current) name))
          (String.ofList (headerText (pairText oldest current) name)) ∨
      SettlesTo current 1 (String.ofList (headerText (pairText oldest current) name))
        (String.ofList (headerText (toString current).toList name)) := by
  have next := header?_pair least greatest settled different small
  by_cases kept : 1000 ≤ oldest ∧ oldest < current
  · rw [if_pos kept] at next
    exact Or.inl ⟨kept.2, .done next⟩
  · rw [if_neg kept] at next
    exact Or.inr (.rewrite next (settlesTo_single least greatest settled))

/-- **A header settles after one rewrite at most, with its holder**: to the present year, or to the
range from an earlier year that it was made with. -/
theorem settlesTo_header {oldest? : Option Nat} (small : ∀ oldest ∈ oldest?, oldest < 10000) :
    ∃ count range, count ≤ 1 ∧
      (range = (toString current).toList ∨
        ∃ oldest ∈ oldest?, oldest < current ∧ range = pairText oldest current) ∧
      SettlesTo current count (String.ofList (headerText (rangeText oldest? current) name))
        (String.ofList (headerText range name)) := by
  have single := settlesTo_single least greatest settled
  cases oldest? with
  | none => exact ⟨0, _, by omega, Or.inl rfl, single⟩
  | some oldest =>
    rw [rangeText]
    by_cases same : oldest = current
    · rw [if_pos same]
      exact ⟨0, _, by omega, Or.inl rfl, single⟩
    · rw [if_neg same]
      rcases settlesTo_pair least greatest settled same (small oldest rfl) with
        ⟨earlier, kept⟩ | changed
      · exact ⟨0, _, by omega, Or.inr ⟨oldest, rfl, earlier, rfl⟩, kept⟩
      · exact ⟨1, _, by omega, Or.inl rfl, changed⟩

end

/-- **Every single-line comment settles after two rewrites at most.** If there is a rewrite, the
comment settles to a header with the holder that it names and a range of its years. -/
theorem exists_settlesTo {text : String} {current : Int} (line : '\n' ∉ text.toList)
    (least : 1000 ≤ current) (greatest : current ≤ 9999) :
    ∃ count final, count ≤ 2 ∧ SettlesTo current count text final ∧
      (0 < count → ∃ range, IsRangeOf text current range ∧
        final = "# Copyright:: " ++ range ++ ", " ++ String.ofList (holder text.toList)) := by
  obtain ⟨current, rfl⟩ := Int.eq_ofNat_of_zero_le (by omega : 0 ≤ current)
  have least' : 1000 ≤ current := by omega
  have greatest' : current ≤ 9999 := by omega
  cases rewritten : header? text current with
  | none => exact ⟨0, text, by omega, .done rewritten, fun positive => absurd positive (by decide)⟩
  | some header =>
    have small : ∀ oldest ∈ (years text.toList).min?, oldest < 10000 :=
      fun oldest found => lt_of_mem_years (List.min?_mem found)
    obtain ⟨count, range, few, isRange, settles⟩ :=
      settlesTo_header least' greatest' (holder_settled line) small
    have written := eq_of_header?_eq_some rewritten
    rw [yearRange_eq] at written
    rw [← written] at settles
    refine ⟨count + 1, _, by omega, .rewrite rewritten settles, fun _ => ⟨String.ofList range, ?_,
      ofList_headerText range (holder text.toList)⟩⟩
    rcases isRange with rfl | ⟨oldest, found, earlier, rfl⟩
    · exact Or.inl String.ofList_toList
    · exact Or.inr ⟨oldest, List.min?_mem found, by omega, ofList_pairText oldest current⟩

/-- A comment whose oldest year is after the present one is rewritten twice, first to its own range
and then to the present year; its holder gets the present name and keeps it. -/
theorem settlesTo_late :
    '\n' ∉ "# Copyright 2030-2031, Opscode, Inc.".toList ∧ (1000 : Int) ≤ 2024 ∧
      (2024 : Int) ≤ 9999 ∧
      SettlesTo 2024 2 "# Copyright 2030-2031, Opscode, Inc."
        "# Copyright:: 2024, Chef Software, Inc." ∧
      ∃ range, IsRangeOf "# Copyright 2030-2031, Opscode, Inc." 2024 range ∧
        "# Copyright:: 2024, Chef Software, Inc." = "# Copyright:: " ++ range ++ ", " ++
          String.ofList (holder "# Copyright 2030-2031, Opscode, Inc.".toList) := by
  have line : '\n' ∉ "# Copyright 2030-2031, Opscode, Inc.".toList := by decide
  have first : header? "# Copyright 2030-2031, Opscode, Inc." 2024 =
      some "# Copyright:: 2030-2024, Chef Software, Inc." := by decide
  have second : header? "# Copyright:: 2030-2024, Chef Software, Inc." 2024 =
      some "# Copyright:: 2024, Chef Software, Inc." := by decide
  have settles := SettlesTo.rewrite first (.rewrite second (.done (by decide)))
  obtain ⟨count, final, -, settles', names⟩ :=
    exists_settlesTo line (by decide : (1000 : Int) ≤ 2024) (by decide)
  obtain ⟨rfl, rfl⟩ := settles.unique settles'
  exact ⟨line, by decide, by decide, settles, names (by decide)⟩

end RecipeLint.Rules.Copyright
