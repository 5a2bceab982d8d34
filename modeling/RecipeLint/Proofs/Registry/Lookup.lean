/-
**Looking rules up by name or code.**

A rule is added if no rule that is there has its name and none has its code: names are compared with
names and codes with codes. A lookup does not know which of the two it is given. So under the name
of a rule an earlier rule may be found that has this name as its code, and under its code one that
has this code as its name; nothing else can stand before the rule.

* `Registry.Built.get?_of_own` — a lookup yields the first rule that goes by what is looked up.
* `Registry.Built.get?_name`, `Registry.Built.get?_code` — what stands before a rule, if anything.
* `Registry.Built.isReachable_iff` — all rules are found exactly if no rule has the code of another
  one as its name.
* `Registry.afterCalls_reaches` — these laws for the collection after any calls.
* `Sample.hidden_not_found` — a rule that is not found under its name, and one that is not found
  under its code.
-/

import Mathlib.Data.List.Find
import RecipeLint.Proofs.Registry.Registration
import RecipeLint.Rules.Preset

namespace RecipeLint

namespace Registry

/-- All rules are found under their names and under their codes. -/
def IsReachable (registry : Registry) : Prop :=
  ∀ rule ∈ registry.rules, registry.get? rule.name = some rule ∧ registry.get? rule.code = some rule

/-- No rule has the code of another one as its name. -/
def IsUnmixed (registry : Registry) : Prop :=
  ∀ first ∈ registry.rules, ∀ second ∈ registry.rules, first.name = second.code → first = second

/-! ### What stands before a rule -/

/-- A rule stands behind the earlier ones that are chosen, if it is not one of them. -/
theorem getD_find?_eq_iff {before : List Rule} {rule : Rule} {chosen : Rule → Bool}
    (new : rule ∉ before) :
    (before.find? chosen).getD rule = rule ↔ ∀ earlier ∈ before, chosen earlier = false := by
  constructor
  · intro same earlier member
    cases found : before.find? chosen with
    | none => exact Bool.eq_false_iff.mpr (List.find?_eq_none.mp found earlier member)
    | some first =>
      rw [found, Option.getD_some] at same
      exact absurd (same ▸ List.mem_of_find?_eq_some found) new
  · intro free
    have none : before.find? chosen = none :=
      List.find?_eq_none.mpr fun earlier member => Bool.eq_false_iff.mp (free earlier member)
    rw [none, Option.getD_none]

namespace Built

variable {registry : Registry} {before after : List Rule} {rule : Rule} (built : registry.Built)
  (split : registry.rules = before ++ rule :: after)

include built split

/-- No earlier rule has the name or the code of a rule. -/
theorem apart_of_split :
    ∀ earlier ∈ before, earlier.name ≠ rule.name ∧ earlier.code ≠ rule.code := by
  intro earlier member
  have apart := built.isIndexed.apart
  rw [split, List.pairwise_append] at apart
  have clear := apart.2.2 earlier member rule List.mem_cons_self
  rwa [clashes, Bool.or_eq_false_iff, beq_eq_false_iff_ne, beq_eq_false_iff_ne] at clear

theorem not_mem_before : rule ∉ before :=
  fun member => (built.apart_of_split split rule member).1 rfl

omit built in
/-- **A lookup yields the first rule that goes by what is looked up**: if a rule does, this rule or
an earlier one. -/
theorem get?_of_own {identifier : String} {goesBy : Rule → Bool}
    (own : rule.name = identifier ∨ rule.code = identifier)
    (others : ∀ earlier ∈ before,
      (earlier.name == identifier || earlier.code == identifier) = goesBy earlier) :
    registry.get? identifier = some ((before.find? goesBy).getD rule) := by
  have here : (rule.name == identifier || rule.code == identifier) = true := by
    rwa [Bool.or_eq_true, beq_iff_eq, beq_iff_eq]
  have behind : (rule :: after).find? (fun rule =>
      rule.name == identifier || rule.code == identifier) = some rule := by
    rw [List.find?_cons, here]
  rw [get?, split, List.find?_append, behind, Option.or_some, List.find?_congr others]

/-- **Under its name a rule is found** unless an earlier one has this name as its code. -/
theorem get?_name : registry.get? rule.name =
    some ((before.find? fun earlier => earlier.code == rule.name).getD rule) := by
  refine get?_of_own split (Or.inl rfl) fun earlier member => ?_
  rw [beq_false_of_ne (built.apart_of_split split earlier member).1, Bool.false_or]

/-- **Under its code a rule is found** unless an earlier one has this code as its name. -/
theorem get?_code : registry.get? rule.code =
    some ((before.find? fun earlier => earlier.name == rule.code).getD rule) := by
  refine get?_of_own split (Or.inr rfl) fun earlier member => ?_
  rw [beq_false_of_ne (built.apart_of_split split earlier member).2, Bool.or_false]

theorem get?_name_iff :
    registry.get? rule.name = some rule ↔ ∀ earlier ∈ before, earlier.code ≠ rule.name := by
  rw [built.get?_name split, Option.some_inj, getD_find?_eq_iff (built.not_mem_before split)]
  simp only [beq_eq_false_iff_ne]

theorem get?_code_iff :
    registry.get? rule.code = some rule ↔ ∀ earlier ∈ before, earlier.name ≠ rule.code := by
  rw [built.get?_code split, Option.some_inj, getD_find?_eq_iff (built.not_mem_before split)]
  simp only [beq_eq_false_iff_ne]

omit split in
/-- **All rules are found exactly if names and codes are not mixed.** The order in which the rules
were added does not matter: of two rules that share an identifier the later one is hidden. -/
theorem isReachable_iff : registry.IsReachable ↔ registry.IsUnmixed := by
  constructor
  · intro reachable first firstMember second secondMember same
    have byName := (reachable first firstMember).1
    rw [same, (reachable second secondMember).2] at byName
    exact (Option.some.inj byName).symm
  · intro unmixed rule member
    obtain ⟨before, after, split⟩ := List.append_of_mem member
    have inside : ∀ earlier ∈ before, earlier ∈ registry.rules := fun earlier here =>
      split ▸ List.mem_append_left _ here
    have new := built.not_mem_before split
    refine ⟨(built.get?_name_iff split).mpr fun earlier here same => new ?_,
      (built.get?_code_iff split).mpr fun earlier here same => new ?_⟩
    · exact unmixed rule member earlier (inside earlier here) same.symm ▸ here
    · exact unmixed earlier (inside earlier here) rule member same ▸ here

end Built

/-- **Which rules are found after any calls.** What is found under the name of a rule is the earlier
rule that has this name as its code, or the rule itself if there is none; likewise under its code.
So a rule is found under both exactly if no earlier one goes by either, and all rules are found
exactly if no rule has the code of another one as its name. -/
theorem afterCalls_reaches (offered before after : List Rule) (rule : Rule)
    (split : (afterCalls offered).rules = before ++ rule :: after) :
    (afterCalls offered).get? rule.name =
        some ((before.find? fun earlier => earlier.code == rule.name).getD rule) ∧
      (afterCalls offered).get? rule.code =
        some ((before.find? fun earlier => earlier.name == rule.code).getD rule) ∧
      (((afterCalls offered).get? rule.name = some rule ∧
          (afterCalls offered).get? rule.code = some rule) ↔
        ∀ earlier ∈ before, earlier.code ≠ rule.name ∧ earlier.name ≠ rule.code) ∧
      ((afterCalls offered).IsReachable ↔ (afterCalls offered).IsUnmixed) := by
  have built := built_afterCalls offered
  refine ⟨built.get?_name split, built.get?_code split, ?_, built.isReachable_iff⟩
  rw [built.get?_name_iff split, built.get?_code_iff split]
  exact ⟨fun ⟨names, codes⟩ earlier member => ⟨names earlier member, codes earlier member⟩,
    fun free => ⟨fun earlier member => (free earlier member).1,
      fun earlier member => (free earlier member).2⟩⟩

/-- No rule of this library has the code of another one as its name. -/
example : ∀ first ∈ Rules.all, ∀ second ∈ Rules.all, first.name ≠ second.code := by decide

end Registry

namespace Sample

open Registry

/-- A rule that looks at calls and reports nothing. -/
def silentRule (name code : String) : Rule where
  name := name
  code := code
  tags := [.call]
  check := fun _ _ => .offenses []

/-- The second rule has the code of the first one as its name, the third one has the name of the
first one as its code, and the last one is refused. -/
def mixedRules : List Rule :=
  [silentRule "tidy-paths" "paths", silentRule "paths" "T2", silentRule "old-syntax" "tidy-paths",
    silentRule "late" "T2"]

/-- The second rule is found under its code, and the first one instead of it under its name. -/
theorem mixedRules_reaches :
    (afterCalls mixedRules).rules = [silentRule "tidy-paths" "paths"] ++
        silentRule "paths" "T2" :: [silentRule "old-syntax" "tidy-paths"] ∧
      (afterCalls mixedRules).get? "paths" = some (silentRule "tidy-paths" "paths") ∧
      (afterCalls mixedRules).get? "T2" = some (silentRule "paths" "T2") ∧
      ¬ (afterCalls mixedRules).IsUnmixed := by
  have split : (afterCalls mixedRules).rules = [silentRule "tidy-paths" "paths"] ++
      silentRule "paths" "T2" :: [silentRule "old-syntax" "tidy-paths"] := rfl
  obtain ⟨byName, byCode, -, -⟩ := afterCalls_reaches mixedRules _ _ _ split
  refine ⟨split, byName, byCode, fun unmixed => ?_⟩
  have same := unmixed (silentRule "paths" "T2") (by rw [split]; simp)
    (silentRule "tidy-paths" "paths") (by rw [split]; simp) rfl
  exact absurd (congrArg Rule.name same) (by decide)

/-- **A rule may be hidden**: one is not found under its name, another one not under its code. -/
theorem hidden_not_found :
    ∃ offered, ∃ second ∈ (afterCalls offered).rules, ∃ third ∈ (afterCalls offered).rules,
      (afterCalls offered).get? second.name ≠ some second ∧
        (afterCalls offered).get? third.code ≠ some third := by
  have added : (afterCalls mixedRules).rules = [silentRule "tidy-paths" "paths",
    silentRule "paths" "T2", silentRule "old-syntax" "tidy-paths"] := rfl
  have found : (afterCalls mixedRules).get? "paths" = some (silentRule "tidy-paths" "paths") ∧
      (afterCalls mixedRules).get? "tidy-paths" = some (silentRule "tidy-paths" "paths") :=
    ⟨rfl, rfl⟩
  refine ⟨mixedRules, silentRule "paths" "T2", by rw [added]; simp,
    silentRule "old-syntax" "tidy-paths", by rw [added]; simp, fun same => ?_, fun same => ?_⟩
  · have names := congrArg Rule.name (Option.some.inj (found.1.symm.trans same))
    exact absurd names (by decide)
  · have names := congrArg Rule.name (Option.some.inj (found.2.symm.trans same))
    exact absurd names (by decide)

end Sample

end RecipeLint
