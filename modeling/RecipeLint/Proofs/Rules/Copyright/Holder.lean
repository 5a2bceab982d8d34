/-
**Names of holders.**

The holder of a copyright gets the name that it has now: one old name is replaced wherever it
stands, and from another one on the rest of the line is replaced. Neither change brings an old name
back, so a name that has been changed is left as it is. Nor does a change bring up a line end or
four digits in a row, because all that it puts in are words of letters.

* `infix_of_infix_replaceFrom`, `infix_of_infix_renameIncorporated` — what stands in a changed text
  and shares nothing with the words put in stood in the text.
* `not_infix_replaceFrom`, `not_infix_renameIncorporated` — the old names are gone.
* `rename_rename` — a changed name is left as it is.
-/

import Mathlib.Data.List.Infix
import RecipeLint.Rules.Copyright

namespace RecipeLint

theorem Text.strip?_eq_none_iff {expected text : List Char} :
    Text.strip? expected text = none ↔ ¬ expected <+: text := by
  constructor
  · rintro missing ⟨rest, rfl⟩
    rw [Text.strip?_append] at missing
    cases missing
  · intro absent
    rw [Option.eq_none_iff_forall_ne_some]
    exact fun rest found => absent ⟨rest, (Text.strip?_eq_some found).symm⟩

theorem Text.isSome_strip?_iff {expected text : List Char} :
    (Text.strip? expected text).isSome = true ↔ expected <+: text := by
  rw [← not_iff_not, ← Text.strip?_eq_none_iff, Bool.not_eq_true, Option.isSome_eq_false_iff,
    Option.isNone_iff_eq_none]

/-- A word whose first character does not stand in the first of two texts stands in the second one
if it stands in both together. -/
theorem Text.infix_of_infix_append {first : Char} {word before after : List Char}
    (fresh : first ∉ before) (occurs : first :: word <:+: before ++ after) :
    first :: word <:+: after := by
  induction before with
  | nil => exact occurs
  | cons c before ih =>
    rw [List.cons_append] at occurs
    rcases List.infix_cons_iff.mp occurs with here | later
    · rw [List.cons_prefix_cons] at here
      exact absurd here.1 (List.ne_of_not_mem_cons fresh)
    · exact ih (List.not_mem_of_not_mem_cons fresh) later

namespace Rules.Copyright

variable {part replacement text word : List Char} {first start : Char}

/-! ### Replacing a part -/

/-- What a changed text starts with, the text started with, unless the part that is put in stands in
it. -/
theorem prefix_of_prefix_replaceFrom (foreign : first ∉ word)
    (starts : word <+: replaceFrom part (first :: replacement) 0 text) : word <+: text := by
  induction word generalizing text with
  | nil => exact List.nil_prefix
  | cons e word ih =>
    cases text with
    | nil => exact starts
    | cons c rest =>
      rw [replaceFrom] at starts
      split at starts
      next =>
        rw [List.cons_append, List.cons_prefix_cons] at starts
        exact absurd starts.1.symm (List.ne_of_not_mem_cons foreign)
      next =>
        rw [List.cons_prefix_cons] at starts ⊢
        exact ⟨starts.1, ih (List.not_mem_of_not_mem_cons foreign) starts.2⟩

/-- **What stands in a changed text stood in the text**, unless it shares a character with what is
put in. -/
theorem infix_of_infix_replaceFrom {skip : Nat} (foreign : first ∉ start :: word)
    (fresh : start ∉ first :: replacement)
    (occurs : start :: word <:+: replaceFrom part (first :: replacement) skip text) :
    start :: word <:+: text := by
  induction text generalizing skip with
  | nil => cases skip <;> exact occurs
  | cons c rest ih =>
    cases skip with
    | succ skip => exact List.infix_cons (ih occurs)
    | zero =>
      rw [replaceFrom] at occurs
      split at occurs
      next =>
        exact List.infix_cons (ih (Text.infix_of_infix_append fresh occurs))
      next missing =>
        rcases List.infix_cons_iff.mp occurs with here | later
        · have same : c :: replaceFrom part (first :: replacement) 0 rest =
              replaceFrom part (first :: replacement) 0 (c :: rest) := by
            rw [replaceFrom, missing]
          rw [same] at here
          exact (prefix_of_prefix_replaceFrom foreign here).isInfix
        · exact List.infix_cons (ih later)

/-- **The part that is replaced is gone.** -/
theorem not_infix_replaceFrom {skip : Nat} (foreign : first ∉ start :: word)
    (fresh : start ∉ first :: replacement) :
    ¬ start :: word <:+: replaceFrom (start :: word) (first :: replacement) skip text := by
  induction text generalizing skip with
  | nil => cases skip <;> simp [replaceFrom]
  | cons c rest ih =>
    cases skip with
    | succ skip => exact ih
    | zero =>
      intro occurs
      rw [replaceFrom] at occurs
      split at occurs
      next => exact ih (Text.infix_of_infix_append fresh occurs)
      next missing =>
        rcases List.infix_cons_iff.mp occurs with here | later
        · have same : c :: replaceFrom (start :: word) (first :: replacement) 0 rest =
              replaceFrom (start :: word) (first :: replacement) 0 (c :: rest) := by
            rw [replaceFrom, missing]
          rw [same] at here
          exact Text.strip?_eq_none_iff.mp missing (prefix_of_prefix_replaceFrom foreign here)
        · exact ih later

/-- A text without the part is left as it is. -/
theorem replaceFrom_eq_self (absent : ¬ part <:+: text) :
    replaceFrom part replacement 0 text = text := by
  induction text with
  | nil => rfl
  | cons c rest ih =>
    rw [List.infix_cons_iff, not_or] at absent
    rw [replaceFrom, Text.strip?_eq_none_iff.mpr absent.1]
    exact congrArg (c :: ·) (ih absent.2)

/-! ### Replacing the rest of a line -/

/-- The names of the incorporated company that are no longer used. -/
def oldNames : List (List Char) := ["Chef Inc".toList, "Chef, Inc".toList]

/-- The name of the incorporated company. -/
def presentName : List Char := "Chef Software, Inc.".toList

theorem renameIncorporated_of_starts (starts : ∃ old ∈ oldNames, old <+: text) :
    renameIncorporated text = presentName := by
  obtain ⟨old, member, here⟩ := starts
  cases text with
  | nil =>
    rw [List.prefix_nil.mp here] at member
    exact absurd member (by decide)
  | cons c rest =>
    refine if_pos ?_
    rw [Bool.or_eq_true, Text.isSome_strip?_iff, Text.isSome_strip?_iff]
    rcases List.mem_cons.mp member with rfl | member
    · exact Or.inl here
    · exact Or.inr (List.mem_singleton.mp member ▸ here)

theorem renameIncorporated_cons {c : Char} (absent : ∀ old ∈ oldNames, ¬ old <+: c :: text) :
    renameIncorporated (c :: text) = c :: renameIncorporated text := by
  refine if_neg ?_
  rw [Bool.or_eq_true, Text.isSome_strip?_iff, Text.isSome_strip?_iff, not_or]
  exact ⟨absent _ (by decide), absent _ (by decide)⟩

/-- All that renaming can do at the start of a text. -/
theorem renameIncorporated_cases (c : Char) (text : List Char) :
    renameIncorporated (c :: text) = presentName ∨
      (∀ old ∈ oldNames, ¬ old <+: c :: text) ∧
        renameIncorporated (c :: text) = c :: renameIncorporated text := by
  by_cases starts : ∃ old ∈ oldNames, old <+: c :: text
  · exact Or.inl (renameIncorporated_of_starts starts)
  · have absent : ∀ old ∈ oldNames, ¬ old <+: c :: text :=
      fun old member here => starts ⟨old, member, here⟩
    exact Or.inr ⟨absent, renameIncorporated_cons absent⟩

/-- What a renamed text starts with, the text started with, unless the present name stands in it. -/
theorem prefix_of_prefix_renameIncorporated (foreign : 'C' ∉ word)
    (starts : word <+: renameIncorporated text) : word <+: text := by
  induction word generalizing text with
  | nil => exact List.nil_prefix
  | cons e word ih =>
    cases text with
    | nil => exact starts
    | cons c rest =>
      rcases renameIncorporated_cases c rest with renamed | ⟨-, kept⟩
      · rw [renamed] at starts
        exact absurd (List.cons_prefix_cons.mp starts).1.symm (List.ne_of_not_mem_cons foreign)
      · rw [kept, List.cons_prefix_cons] at starts
        exact List.cons_prefix_cons.mpr
          ⟨starts.1, ih (List.not_mem_of_not_mem_cons foreign) starts.2⟩

/-- **What stands in a renamed text stood in the text**, unless it stands in the present name or
holds its first character. -/
theorem infix_of_infix_renameIncorporated (foreign : 'C' ∉ start :: word)
    (fresh : ¬ start :: word <:+: presentName)
    (occurs : start :: word <:+: renameIncorporated text) : start :: word <:+: text := by
  induction text with
  | nil => exact occurs
  | cons c rest ih =>
    rcases renameIncorporated_cases c rest with renamed | ⟨-, kept⟩
    · rw [renamed] at occurs
      exact absurd occurs fresh
    · rw [kept] at occurs
      rcases List.infix_cons_iff.mp occurs with here | later
      · rw [← kept] at here
        exact (prefix_of_prefix_renameIncorporated foreign here).isInfix
      · exact List.infix_cons (ih later)

/-- **The old names are gone.** -/
theorem not_infix_renameIncorporated {old : List Char} (member : old ∈ oldNames) :
    ¬ old <:+: renameIncorporated text := by
  have clear : ∀ old ∈ oldNames, ¬ old <:+: presentName := by decide
  have shape : ∀ old ∈ oldNames, ∃ word, old = 'C' :: word ∧ 'C' ∉ word := by
    intro old member
    rcases List.mem_cons.mp member with rfl | member
    · exact ⟨"hef Inc".toList, rfl, by decide⟩
    · exact ⟨"hef, Inc".toList, List.mem_singleton.mp member, by decide⟩
  induction text with
  | nil =>
    intro occurs
    rw [List.infix_nil.mp occurs] at member
    exact absurd member (by decide)
  | cons c rest ih =>
    intro occurs
    rcases renameIncorporated_cases c rest with renamed | ⟨absent, kept⟩
    · rw [renamed] at occurs
      exact clear old member occurs
    · rw [kept] at occurs
      rcases List.infix_cons_iff.mp occurs with here | later
      · obtain ⟨word, rfl, foreign⟩ := shape old member
        rw [List.cons_prefix_cons] at here
        exact absent _ member (List.cons_prefix_cons.mpr
          ⟨here.1, prefix_of_prefix_renameIncorporated foreign here.2⟩)
      · exact ih later

/-- A text without an old name is left as it is. -/
theorem renameIncorporated_eq_self (absent : ∀ old ∈ oldNames, ¬ old <:+: text) :
    renameIncorporated text = text := by
  induction text with
  | nil => rfl
  | cons c rest ih =>
    rw [renameIncorporated_cons fun old member here => absent old member here.isInfix,
      ih fun old member later => absent old member (List.infix_cons later)]

/-! ### Both changes -/

/-- A name with both changes. -/
def rename (name : List Char) : List Char :=
  renameIncorporated (replaceFrom "Opscode".toList "Chef Software".toList 0 name)

/-- **What stands in a changed name stood in the name**, unless it shares a character with the words
that are put in. -/
theorem infix_of_infix_rename {name : List Char} (foreign : 'C' ∉ start :: word)
    (fresh : start ∉ presentName) (occurs : start :: word <:+: rename name) :
    start :: word <:+: name := by
  have absent : ¬ start :: word <:+: presentName :=
    fun within => fresh (within.subset List.mem_cons_self)
  have missing : start ∉ "Chef Software".toList :=
    fun member => fresh ((by decide : "Chef Software".toList ⊆ presentName) member)
  exact infix_of_infix_replaceFrom foreign missing
    (infix_of_infix_renameIncorporated foreign absent occurs)

/-- **A changed name is left as it is.** -/
theorem rename_rename (name : List Char) : rename (rename name) = rename name := by
  have gone : ¬ 'O' :: "pscode".toList <:+: rename name := fun occurs =>
    absurd (infix_of_infix_renameIncorporated (by decide) (by decide) occurs)
      (not_infix_replaceFrom (by decide) (by decide))
  have kept : replaceFrom "Opscode".toList "Chef Software".toList 0 (rename name) = rename name :=
    replaceFrom_eq_self gone
  rw [rename, kept]
  exact renameIncorporated_eq_self fun old member => not_infix_renameIncorporated member

end Rules.Copyright

end RecipeLint
