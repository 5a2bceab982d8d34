/-
**Calls that add rules.**

Rules are added to one collection by calls, some of which are refused. A call writes the new place
into the lists of the kinds that the rule names, one kind after the other, and only then puts the
rule behind the others; so the two parts of the collection disagree while the call runs. What is
left after a call is shown here to be what `Registry.register` says: the larger collection, or the
old one if the rule is refused, with nothing of the refused rule in it. A collection to which any
rules were offered is therefore one to which the accepted ones were added.

* `Registry.registerInPlace` — the call, write by write.
* `Registry.call_eq` — the call against `Registry.register`.
* `Registry.call_cases` — all that a call can do.
* `Registry.afterCalls_isConsistent` — the collection after any calls, and what the next one does.
-/

import RecipeLint.Proofs.Registry.Index

namespace RecipeLint.Registry

/-! ### A call -/

/-- Enters a rule into a collection that is changed in place. -/
def enterInPlace (rule : Rule) : StateM Registry Unit := do
  let place := (← get).rules.length
  rule.tags.forM fun tag =>
    modify fun registry => { registry with places := addPlace registry.places place tag }
  modify fun registry => { registry with rules := registry.rules ++ [rule] }

/-- Adds a rule to a collection that is changed in place. The collection that is left is the one
after the last write, also if the rule is refused. -/
def registerInPlace (rule : Rule) : ExceptT DuplicateRule (StateM Registry) Unit := do
  match (← get).rules.find? fun existing => clashes existing rule with
  | some existing => throw ⟨if existing.name = rule.name then rule.name else rule.code⟩
  | none => enterInPlace rule

/-- What a call answers and the collection that it leaves. -/
def call (registry : Registry) (rule : Rule) : Except DuplicateRule Unit × Registry :=
  (registerInPlace rule).run.run registry

/-- The collection after calls that offer these rules, accepted or refused. -/
def afterCalls (offered : List Rule) : Registry :=
  offered.foldl (fun registry rule => (registry.call rule).2) empty

/-- Writing a place into the lists of several kinds leaves the rules alone. -/
theorem run_forM_addPlace (place : Nat) (tags : List Tag) (registry : Registry) :
    (tags.forM fun tag => modify fun registry : Registry =>
      { registry with places := addPlace registry.places place tag } : StateM Registry Unit).run
        registry =
      ((), { registry with
        places := tags.foldl (fun places tag => addPlace places place tag) registry.places }) := by
  induction tags generalizing registry with
  | nil => rfl
  | cons tag tags ih => exact ih { registry with places := addPlace registry.places place tag }

theorem run_enterInPlace (registry : Registry) (rule : Rule) :
    (enterInPlace rule).run registry =
      ((), ⟨registry.rules ++ [rule], rule.tags.foldl
        (fun places tag => addPlace places registry.rules.length tag) registry.places⟩) := by
  have written := run_forM_addPlace registry.rules.length rule.tags registry
  simp only [enterInPlace, StateT.run_bind, StateT.run_get, pure_bind, written]
  rfl

/-- **A call is an addition or leaves the collection as it was.** The rule is refused before the
first write. -/
theorem call_eq (registry : Registry) (rule : Rule) :
    registry.call rule = match registry.register rule with
      | .ok next => (.ok (), next)
      | .error duplicate => (.error duplicate, registry) := by
  unfold register
  show ((match registry.rules.find? fun existing => clashes existing rule with
    | some existing => throw ⟨if existing.name = rule.name then rule.name else rule.code⟩
    | none => enterInPlace rule : ExceptT DuplicateRule (StateM Registry) Unit).run.run
      registry) = _
  cases registry.rules.find? fun existing => clashes existing rule with
  | some existing => rfl
  | none =>
    show (Except.ok (), ((enterInPlace rule).run registry).2) = _
    rw [run_enterInPlace]

/-! ### What a call can do -/

/-- A rule has its name or its code in common with a rule of a collection, and this is the name or
code that is taken. -/
def Takes (registry : Registry) (rule : Rule) (taken : String) : Prop :=
  ∃ existing ∈ registry.rules,
    (existing.name = rule.name ∧ taken = rule.name) ∨
      (existing.code = rule.code ∧ taken = rule.code)

/-- The name or code that a refusal tells is taken. -/
theorem takes_of_register_eq_error {registry : Registry} {rule : Rule} {duplicate : DuplicateRule}
    (refused : registry.register rule = .error duplicate) :
    registry.Takes rule duplicate.name := by
  unfold register at refused
  split at refused
  next existing found =>
    cases refused
    refine ⟨existing, List.mem_of_find?_eq_some found, ?_⟩
    have clash : clashes existing rule = true :=
      List.find?_some (p := fun existing => clashes existing rule) found
    rw [clashes, Bool.or_eq_true, beq_iff_eq, beq_iff_eq] at clash
    by_cases sameName : existing.name = rule.name
    · exact Or.inl ⟨sameName, if_pos sameName⟩
    · exact Or.inr ⟨clash.resolve_left sameName, if_neg sameName⟩
  next => cases refused

theorem not_takes_of_register_eq_ok {registry next : Registry} {rule : Rule}
    (added : registry.register rule = .ok next) (taken : String) : ¬ registry.Takes rule taken := by
  rintro ⟨existing, member, clash⟩
  have clear := (register_eq_ok added).1 existing member
  rw [clashes, Bool.or_eq_false_iff, beq_eq_false_iff_ne, beq_eq_false_iff_ne] at clear
  rcases clash with ⟨sameName, -⟩ | ⟨sameCode, -⟩
  · exact clear.1 sameName
  · exact clear.2 sameCode

/-- **All that a call can do.** It adds a rule whose name and code are free, or tells what is taken
and leaves the collection as it was. -/
theorem call_cases (registry : Registry) (rule : Rule) :
    (∃ next, registry.call rule = (.ok (), next) ∧ registry.register rule = .ok next ∧
        ∀ taken, ¬ registry.Takes rule taken) ∨
      ∃ duplicate, registry.call rule = (.error duplicate, registry) ∧
        registry.register rule = .error duplicate ∧ registry.Takes rule duplicate.name := by
  rw [call_eq]
  cases outcome : registry.register rule with
  | ok next => exact Or.inl ⟨next, rfl, rfl, not_takes_of_register_eq_ok outcome⟩
  | error duplicate => exact Or.inr ⟨duplicate, rfl, rfl, takes_of_register_eq_error outcome⟩

/-! ### Any number of calls -/

/-- The step: a call leaves a collection that comes about by adding rules. -/
theorem Built.call {registry : Registry} (built : registry.Built) (rule : Rule) :
    (registry.call rule).2.Built := by
  rcases call_cases registry rule with ⟨next, called, added, -⟩ | ⟨duplicate, called, -, -⟩
  · rw [called]
    exact built.register added
  · rw [called]
    exact built

/-- The run: whatever rules are offered, the collection comes about by adding rules. -/
theorem built_afterCalls (offered : List Rule) : (afterCalls offered).Built := by
  have kept : ∀ registry : Registry, registry.Built →
      (offered.foldl (fun registry rule => (registry.call rule).2) registry).Built := by
    induction offered with
    | nil => exact fun registry built => built
    | cons rule offered ih => exact fun registry built => ih _ (built.call rule)
  exact kept empty .empty

/-- **The rules of a collection and the places beside them say the same.** -/
structure IsConsistent (registry : Registry) : Prop where
  /-- No two rules share a name. -/
  names : (registry.rules.map (·.name)).Nodup
  /-- No two rules share a code. -/
  codes : (registry.rules.map (·.code)).Nodup
  /-- A place is that of a rule. -/
  bounded : ∀ tag, ∀ place ∈ registry.places tag, place < registry.rules.length
  /-- Looking a kind of node up yields the rules that name it, in the order of the rules. -/
  indexed : ∀ tag, registry.rulesFor tag = registry.rules.filter fun rule => tag ∈ rule.tags
  /-- It yields each of them once. -/
  once : ∀ tag, ((registry.rulesFor tag).map (·.name)).Nodup

theorem IsIndexed.isConsistent {registry : Registry} (indexed : registry.IsIndexed) :
    registry.IsConsistent := by
  have apart : registry.rules.Pairwise fun first second =>
      first.name ≠ second.name ∧ first.code ≠ second.code :=
    indexed.apart.imp fun {first second} clear => by
      rwa [clashes, Bool.or_eq_false_iff, beq_eq_false_iff_ne, beq_eq_false_iff_ne] at clear
  have names : (registry.rules.map (·.name)).Nodup :=
    List.pairwise_map.mpr (apart.imp And.left)
  refine ⟨names, List.pairwise_map.mpr (apart.imp And.right), indexed.bounded, indexed.indexed,
    fun tag => ?_⟩
  rw [indexed.indexed tag]
  exact names.sublist (List.filter_sublist.map _)

/-- **After any calls the collection is consistent, and the next call keeps it so or changes
nothing.** A rule is added exactly if its name and its code are free; if it is refused, the rules
and what every kind of node yields are as they were. -/
theorem afterCalls_isConsistent (offered : List Rule) (rule : Rule) :
    (afterCalls offered).IsConsistent ∧
      ((∃ next, (afterCalls offered).call rule = (.ok (), next) ∧
          (afterCalls offered).register rule = .ok next ∧
          (∀ taken, ¬ (afterCalls offered).Takes rule taken) ∧
          next.rules = (afterCalls offered).rules ++ [rule]) ∨
        ∃ duplicate left, (afterCalls offered).call rule = (.error duplicate, left) ∧
          (afterCalls offered).register rule = .error duplicate ∧
          (afterCalls offered).Takes rule duplicate.name ∧
          left.rules = (afterCalls offered).rules ∧
          ∀ tag, left.rulesFor tag = (afterCalls offered).rulesFor tag) := by
  refine ⟨(built_afterCalls offered).isIndexed.isConsistent, ?_⟩
  rcases call_cases (afterCalls offered) rule with
    ⟨next, called, added, free⟩ | ⟨duplicate, called, refused, taken⟩
  · refine Or.inl ⟨next, called, added, free, ?_⟩
    rw [(register_eq_ok added).2]
  · exact Or.inr ⟨duplicate, _, called, refused, taken, rfl, fun tag => rfl⟩

end RecipeLint.Registry
