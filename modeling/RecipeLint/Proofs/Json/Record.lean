/-
**Records written and read.**

A record is written as an object of the fields that have a value. Read by the names of all its
fields, each of them gets its value back, and none where it was left out.

* `fields?_present` — the values of the fields of a record that is written.
* `plain_present` — how deep a record nests.
* `word?_natural`, `withDefault_nullable` — a number and an optional field are read back.
-/

import Mathlib.Data.List.Nodup
import RecipeLint.Proofs.Json.Document

namespace RecipeLint.Json

/-- The fields of a record that have a value. -/
def present : List String → List (Option Json) → List (String × Json)
  | name :: names, value :: values => optionalField name value ++ present names values
  | _, _ => []

theorem map_fst_present_sublist (names : List String) (values : List (Option Json)) :
    ((present names values).map (·.1)).Sublist names := by
  fun_induction present names values with
  | case1 name names value values ih =>
    cases value with
    | none => exact ih.cons name
    | some value => exact ih.cons_cons name
  | case2 names values => exact List.nil_sublist names

theorem get?_append (fields others : List (String × Json)) (name : String) :
    get? (fields ++ others) name = (get? fields name).or (get? others name) := by
  rw [get?, get?, get?, List.find?_append, Option.map_or]

theorem get?_optionalField (name other : String) (value : Option Json) :
    get? (optionalField name value) other = if name = other then value else none := by
  cases value with
  | none => rw [ite_self]; rfl
  | some value =>
    by_cases same : name = other
    · rw [if_pos same, same]
      simp [get?, optionalField]
    · rw [if_neg same]
      simp [get?, optionalField, same]

theorem get?_present_of_not_mem {names : List String} (values : List (Option Json)) {name : String}
    (other : name ∉ names) : get? (present names values) name = none := by
  rw [get?, Option.map_eq_none_iff, List.find?_eq_none]
  intro field member same
  refine other ((map_fst_present_sublist names values).subset ?_)
  rw [← beq_iff_eq.mp same]
  exact List.mem_map_of_mem member

/-- Each field has the value that it was written with. -/
theorem map_get?_present {names : List String} {values : List (Option Json)}
    (distinct : names.Nodup) (paired : names.length = values.length) :
    names.map (get? (present names values)) = values := by
  induction names generalizing values with
  | nil => exact (List.length_eq_zero_iff.mp paired.symm).symm
  | cons name names ih =>
    obtain ⟨value, values, rfl⟩ := List.exists_cons_of_length_eq_add_one paired.symm
    obtain ⟨fresh, others⟩ := List.nodup_cons.mp distinct
    have own : get? (present (name :: names) (value :: values)) name = value := by
      rw [present, get?_append, get?_optionalField, if_pos rfl,
        get?_present_of_not_mem values fresh, Option.or_none]
    have same : ∀ other ∈ names, get? (present (name :: names) (value :: values)) other =
        get? (present names values) other := by
      intro other member
      have differs : name ≠ other := fun equal => fresh (equal ▸ member)
      rw [present, get?_append, get?_optionalField, if_neg differs, Option.none_or]
    rw [List.map_cons, own, List.map_congr_left same, ih others (Nat.succ_inj.mp paired)]

/-- **The fields of a record that is written**, each with its value or left out. -/
theorem fields?_present {names : List String} {values : List (Option Json)}
    (distinct : names.Nodup) (paired : names.length = values.length) :
    fields? names (.object (present names values)) = some values := by
  have once : (names.all fun name =>
      ((present names values).map (·.1)).count name ≤ 1) = true := by
    rw [List.all_eq_true]
    intro name _
    have fresh := (map_fst_present_sublist names values).nodup distinct
    exact decide_eq_true (List.nodup_iff_count_le_one.mp fresh name)
  rw [fields?, if_pos once, map_get?_present distinct paired]

theorem value_mem_of_mem_present {names : List String} {values : List (Option Json)}
    {field : String × Json} (member : field ∈ present names values) : some field.2 ∈ values := by
  fun_induction present names values with
  | case1 name names value values ih =>
    obtain own | later := List.mem_append.mp member
    · cases value with
      | none => exact absurd own List.not_mem_nil
      | some value =>
        rw [List.mem_singleton.mp own]
        exact List.mem_cons_self
    · exact List.mem_cons_of_mem _ (ih later)
  | case2 => exact absurd member List.not_mem_nil

/-- A record nests its values. -/
theorem plain_present {names : List String} {values : List (Option Json)} {depth : Nat}
    (each : ∀ value ∈ values, ∀ given ∈ value, Plain depth given) :
    Plain (depth + 1) (.object (present names values)) :=
  .object fun field member => each _ (value_mem_of_mem_present member) field.2 rfl

theorem word?_natural {n : Nat} (small : n ≤ maxWord) : (natural n).word? = some n := by
  have bounds : (0 : Int) ≤ n ∧ (n : Int) ≤ maxWord :=
    ⟨Int.natCast_nonneg n, Int.ofNat_le.mpr small⟩
  rw [natural, word?, if_pos bounds, Int.toNat_natCast]

/-- A field that is left out or holds what is no null is read back. -/
theorem withDefault_nullable {α : Type} {read : Json → Option α} {write : α → Json}
    {given : Option α} (reads : ∀ a ∈ given, read (write a) = some a)
    (notNull : ∀ a, write a ≠ .null) :
    withDefault none (nullable read) (given.map write) = some given := by
  cases given with
  | none => rfl
  | some a =>
    show nullable read (write a) = _
    unfold nullable
    split
    case h_1 equal => exact absurd equal (notNull a)
    case h_2 => rw [reads a rfl]; rfl

end RecipeLint.Json
