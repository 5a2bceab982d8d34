/-
**Collections that come about by adding rules.**

A collection keeps, beside its rules, the places of the rules that look at each kind of node. In a
collection to which rules were only ever added, these places are right: looking a kind up yields the
rules that name it, in the order in which they were added. No two of its rules share a name, so a
name stands for its rule.

* `Registry.Built` — collections that come about by adding rules.
* `Registry.IsIndexed` — what every such collection satisfies; `IsIndexed.register` is the step.
* `Registry.Built.rulesFor_eq` — the rules that look at a kind of node.
* `Registry.Built.eq_of_name_eq` — a name stands for one rule.
-/

import Mathlib.Data.List.Basic
import Mathlib.Data.List.Pairwise
import RecipeLint.Registry

namespace RecipeLint.Registry

/-- **A collection that comes about by adding rules one after the other.** A rule that is refused
leaves the collection as it was. -/
inductive Built : Registry → Prop
  | empty : Built .empty
  | register {registry next : Registry} {rule : Rule} (before : Built registry)
      (added : registry.register rule = .ok next) : Built next

/-! ### Places -/

/-- The places of a collection with one more place for some kinds of nodes. -/
def withPlace (places : Tag → List Nat) (place : Nat) (tags : List Tag) (queried : Tag) :
    List Nat :=
  if queried ∈ tags then places queried ++ [place] else places queried

theorem withPlace_nil (places : Tag → List Nat) (place : Nat) :
    withPlace places place [] = places := by
  funext queried
  exact if_neg List.not_mem_nil

/-- A new place is added once, even for a kind that is named again. -/
theorem addPlace_withPlace {places : Tag → List Nat} {place : Nat}
    (fresh : ∀ tag, place ∉ places tag) (seen : List Tag) (tag : Tag) :
    addPlace (withPlace places place seen) place tag = withPlace places place (seen ++ [tag]) := by
  funext queried
  unfold addPlace withPlace
  by_cases here : queried = tag
  · subst here
    by_cases known : queried ∈ seen
    · simp [known]
    · simp [known, fresh queried]
  · simp [here]

theorem foldl_addPlace {places : Tag → List Nat} {place : Nat}
    (fresh : ∀ tag, place ∉ places tag) (seen tags : List Tag) :
    tags.foldl (fun places tag => addPlace places place tag) (withPlace places place seen) =
      withPlace places place (seen ++ tags) := by
  induction tags generalizing seen with
  | nil => rw [List.foldl_nil, List.append_nil]
  | cons tag tags ih =>
    rw [List.foldl_cons, addPlace_withPlace fresh, ih, List.append_assoc, List.singleton_append]

/-! ### Adding a rule -/

/-- **What a collection has after each added rule.** -/
structure IsIndexed (registry : Registry) : Prop where
  /-- No two rules share a name or a code. -/
  apart : registry.rules.Pairwise fun first second => clashes first second = false
  /-- A place is that of a rule. -/
  bounded : ∀ tag, ∀ place ∈ registry.places tag, place < registry.rules.length
  /-- Looking a kind of node up yields the rules that name it, in their order. -/
  indexed : ∀ tag, registry.rulesFor tag = registry.rules.filter fun rule => tag ∈ rule.tags

/-- A rule is added if it shares neither name nor code with a rule that is there. -/
theorem register_eq_ok {registry next : Registry} {rule : Rule}
    (added : registry.register rule = .ok next) :
    (∀ existing ∈ registry.rules, clashes existing rule = false) ∧
      next = ⟨registry.rules ++ [rule], rule.tags.foldl
        (fun places tag => addPlace places registry.rules.length tag) registry.places⟩ := by
  unfold register at added
  split at added
  next => cases added
  next clear =>
    cases added
    refine ⟨fun existing member => ?_, rfl⟩
    simpa using List.find?_eq_none.mp clear existing member

/-- **Adding a rule keeps a collection indexed.** The place of the new rule is new for every kind of
node, so it is appended exactly where the rule names the kind. -/
theorem IsIndexed.register {registry next : Registry} {rule : Rule} (before : registry.IsIndexed)
    (added : registry.register rule = .ok next) : next.IsIndexed := by
  obtain ⟨clear, rfl⟩ := register_eq_ok added
  have fresh : ∀ tag, registry.rules.length ∉ registry.places tag :=
    fun tag member => Nat.lt_irrefl _ (before.bounded tag _ member)
  have places : rule.tags.foldl (fun places tag => addPlace places registry.rules.length tag)
      registry.places = withPlace registry.places registry.rules.length rule.tags := by
    have folded := foldl_addPlace fresh [] rule.tags
    rwa [withPlace_nil, List.nil_append] at folded
  rw [places]
  refine ⟨?_, fun tag place member => ?_, fun tag => ?_⟩
  · refine List.pairwise_append.mpr ⟨before.apart, List.pairwise_singleton _ _, ?_⟩
    intro existing member other only
    rw [List.mem_singleton.mp only]
    exact clear existing member
  · have known : place ∈ registry.places tag ∨ place = registry.rules.length := by
      simp only [withPlace] at member
      split at member
      next => exact (List.mem_append.mp member).imp_right List.mem_singleton.mp
      next => exact Or.inl member
    rw [List.length_append, List.length_singleton]
    rcases known with old | rfl
    · exact Nat.lt_succ_of_lt (before.bounded tag place old)
    · exact Nat.lt_succ_self _
  · -- the places that were there still lead to the rules that were there
    have old : (registry.places tag).filterMap (fun place => (registry.rules ++ [rule])[place]?) =
        registry.rules.filter fun rule => tag ∈ rule.tags := by
      rw [← before.indexed tag, rulesFor]
      refine List.filterMap_congr fun place member => ?_
      exact List.getElem?_append_left (before.bounded tag place member)
    rw [List.filter_append]
    simp only [rulesFor, withPlace]
    split
    next named => rw [List.filterMap_append, old]; simp [named]
    next unnamed => rw [old]; simp [unnamed]

theorem Built.isIndexed {registry : Registry} (built : registry.Built) : registry.IsIndexed := by
  induction built with
  | empty =>
    refine ⟨List.Pairwise.nil, fun tag place member => ?_, fun tag => rfl⟩
    exact (List.not_mem_nil member).elim
  | register _ added ih => exact ih.register added

/-! ### Looking rules up -/

/-- **Looking a kind of node up yields the rules that name it**, in the order in which they were
added. -/
theorem Built.rulesFor_eq {registry : Registry} (built : registry.Built) (tag : Tag) :
    registry.rulesFor tag = registry.rules.filter fun rule => tag ∈ rule.tags :=
  built.isIndexed.indexed tag

/-- **A name stands for one rule.** -/
theorem Built.eq_of_name_eq {registry : Registry} (built : registry.Built) {first second : Rule}
    (firstMember : first ∈ registry.rules) (secondMember : second ∈ registry.rules)
    (same : first.name = second.name) : first = second := by
  have symmetric : Std.Symm fun first second : Rule => clashes first second = false :=
    ⟨fun first second apart => by
      rw [clashes, Bool.or_eq_false_iff, beq_eq_false_iff_ne, beq_eq_false_iff_ne] at apart ⊢
      exact ⟨apart.1.symm, apart.2.symm⟩⟩
  by_contra different
  have apart := built.isIndexed.apart.forall firstMember secondMember different
  rw [clashes, same, beq_self_eq_true, Bool.true_or] at apart
  cases apart

/-- Rules that are all accepted make up a collection. -/
theorem Built.of_foldlM {registry next : Registry} (built : registry.Built) {rules : List Rule}
    (added : rules.foldlM Registry.register registry = .ok next) : next.Built := by
  induction rules generalizing registry with
  | nil =>
    cases added
    exact built
  | cons rule rules ih =>
    rw [List.foldlM_cons] at added
    cases first : registry.register rule with
    | error duplicate => rw [first] at added; cases added
    | ok larger =>
      rw [first] at added
      exact ih (.register built first) added

theorem built_of_ofRules {rules : List Rule} {registry : Registry}
    (added : ofRules rules = .ok registry) : registry.Built :=
  Built.empty.of_foldlM added

end RecipeLint.Registry
