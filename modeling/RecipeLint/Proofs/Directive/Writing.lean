/-
**Directives that are written down.**

Whoever writes a directive chooses names and perhaps a reason, and puts blanks between the signs as
they like. What is read of the line is what was chosen: every name once, and the reason as it is,
also where the text before the directive, a name or the reason looks like a part of another one.

* `Entry`, `Ending`, `Layout` — a directive with all blanks as it is written.
* `mem_names_iff`, `nodup_names` — the names of a list.
* `reasonOf?_ending` — the reason behind the list.
* `read?_layout` — what is read of a directive is what was written.
-/

import Mathlib.Data.List.Nodup
import RecipeLint.Proofs.Directive.Form

namespace RecipeLint

namespace Directive

/-! ### The names of a list -/

theorem mem_names_iff {list : List Char} {name : String} :
    name ∈ names list ↔
      name.toList ≠ [] ∧ ∃ part ∈ Text.splitAt ',' list, Text.trim part = name.toList := by
  have listed : name ∈ names list ↔
      name.toList ∈ ((Text.splitAt ',' list).map Text.trim).filter (· ≠ []) := by
    rw [names, List.mem_map]
    constructor
    · rintro ⟨text, member, rfl⟩
      rw [String.toList_ofList]
      exact List.mem_eraseDups.mp member
    · exact fun member => ⟨name.toList, List.mem_eraseDups.mpr member, String.ofList_toList⟩
  rw [listed, List.mem_filter, List.mem_map, decide_eq_true_iff, and_comm]

/-- Dropping the repetitions of a list leaves every item once. -/
theorem nodup_eraseDups {α : Type} [BEq α] [LawfulBEq α] (items : List α) :
    items.eraseDups.Nodup := by
  match items with
  | [] => exact List.nodup_nil
  | item :: items =>
    rw [List.eraseDups_cons, List.nodup_cons]
    refine ⟨fun member => ?_, nodup_eraseDups _⟩
    have other := List.of_mem_filter (List.mem_eraseDups.mp member)
    simp at other
termination_by items.length
decreasing_by exact Nat.lt_succ_of_le (List.length_filter_le _ _)

/-- No name is read twice. -/
theorem nodup_names (list : List Char) : (names list).Nodup := by
  have different : Function.Injective String.ofList := fun first second same => by
    rw [← String.toList_ofList (l := first), same, String.toList_ofList]
  exact (nodup_eraseDups _).map different

/-! ### What is written -/

/-- **A name of a list** and the blanks around it. -/
structure Entry where
  /-- The blanks before the name. -/
  left : List Char
  /-- The name or the code of a rule. -/
  name : String
  /-- The blanks behind the name. -/
  right : List Char

namespace Entry

/-- An entry as it stands in the list. -/
def text (entry : Entry) : List Char := entry.left ++ (entry.name.toList ++ entry.right)

/-- **An entry can stand in a list**: its name is not empty, does not begin or end with a blank, and
does not hold what ends an entry or the list. -/
structure IsProper (entry : Entry) : Prop where
  left : ∀ c ∈ entry.left, Text.isBlank c = true
  right : ∀ c ∈ entry.right, Text.isBlank c = true
  nonempty : entry.name.toList ≠ []
  trimmed : Text.trim entry.name.toList = entry.name.toList
  single : ',' ∉ entry.name.toList
  inside : ')' ∉ entry.name.toList

instance (entry : Entry) : Decidable entry.IsProper :=
  decidable_of_iff
    (entry.left.all Text.isBlank = true ∧ entry.right.all Text.isBlank = true ∧
      entry.name.toList ≠ [] ∧ Text.trim entry.name.toList = entry.name.toList ∧
      ',' ∉ entry.name.toList ∧ ')' ∉ entry.name.toList)
    ⟨fun ⟨left, right, nonempty, trimmed, single, inside⟩ =>
      ⟨List.all_eq_true.mp left, List.all_eq_true.mp right, nonempty, trimmed, single, inside⟩,
    fun proper =>
      ⟨List.all_eq_true.mpr proper.left, List.all_eq_true.mpr proper.right, proper.nonempty,
        proper.trimmed, proper.single, proper.inside⟩⟩

theorem IsProper.trim_text {entry : Entry} (proper : entry.IsProper) :
    Text.trim entry.text = entry.name.toList := by
  rw [text, Text.trim_between proper.left proper.right, proper.trimmed]

/-- A character that is no blank is in an entry only if it is in the name. -/
theorem IsProper.not_mem_text {entry : Entry} (proper : entry.IsProper) {c : Char}
    (solid : Text.isBlank c = false) (fresh : c ∉ entry.name.toList) : c ∉ entry.text := by
  have notBlank : ∀ blanks : List Char, (∀ d ∈ blanks, Text.isBlank d = true) → c ∉ blanks :=
    fun blanks blank member => by rw [blank c member] at solid; cases solid
  rw [text, List.mem_append, List.mem_append, not_or, not_or]
  exact ⟨notBlank _ proper.left, fresh, notBlank _ proper.right⟩

end Entry

/-- **What follows the list of a directive.** -/
inductive Ending where
  /-- No reason, but perhaps other text. -/
  | plain (rest : List Char)
  /-- A reason, with the blanks before and behind its sign, and perhaps other text. -/
  | reasoned (gap lead : List Char) (reason : String) (tail : List Char)

namespace Ending

/-- An ending as it stands in the line. -/
def text : Ending → List Char
  | .plain rest => rest
  | .reasoned gap lead reason tail =>
    gap ++ (reasonSign ++ (lead ++ '"' :: (reason.toList ++ '"' :: tail)))

/-- The reason that is given. -/
def reason? : Ending → Option String
  | .plain _ => none
  | .reasoned _ _ reason _ => some reason

/-- **An ending can follow a list**: a reason is not blank and holds no quotes, and where there is
no reason its sign does not come first. -/
def IsProper : Ending → Prop
  | .plain rest => ¬ reasonSign <+: Text.trimStart rest
  | .reasoned gap lead reason _ =>
    (∀ c ∈ gap, Text.isBlank c = true) ∧ (∀ c ∈ lead, Text.isBlank c = true) ∧
      '"' ∉ reason.toList ∧ Text.isBlankText reason.toList = false

instance : (ending : Ending) → Decidable ending.IsProper
  | .plain rest => inferInstanceAs (Decidable (¬ reasonSign <+: Text.trimStart rest))
  | .reasoned gap lead reason _ =>
    decidable_of_iff
      (gap.all Text.isBlank = true ∧ lead.all Text.isBlank = true ∧ '"' ∉ reason.toList ∧
        Text.isBlankText reason.toList = false)
      (and_congr List.all_eq_true (and_congr_left' List.all_eq_true))

end Ending

/-- The reason of an ending is read back, whatever stands in it or behind it. -/
theorem reasonOf?_ending {ending : Ending} (proper : ending.IsProper) :
    reasonOf? ending.text = ending.reason? := by
  cases ending with
  | plain rest =>
    rw [Ending.text, Ending.reason?, Option.eq_none_iff_forall_ne_some]
    intro reason read
    obtain ⟨gap, lead, tail, rfl, blank, -⟩ := reasonOf?_eq_some_iff.mp read
    apply proper
    rw [Text.trimStart_append blank]
    exact ⟨lead ++ '"' :: (reason.toList ++ '"' :: tail), (Text.trimStart_cons (by decide)).symm⟩
  | reasoned gap lead reason tail =>
    obtain ⟨blankGap, blankLead, fresh, solid⟩ := proper
    exact reasonOf?_eq_some_iff.mpr ⟨gap, lead, tail, rfl, blankGap, blankLead, fresh, solid⟩

/-- **A directive as it is written**, behind some text and with blanks between the signs. -/
structure Layout where
  /-- What stands before the sign that starts the comment. -/
  before : List Char
  /-- The blanks between the sign and the marker. -/
  gap : List Char
  /-- The blanks behind the marker. -/
  lead : List Char
  /-- The names between the parentheses. -/
  entries : List Entry
  /-- What stands behind the parentheses. -/
  ending : Ending

namespace Layout

/-- What stands between the parentheses. -/
def list (layout : Layout) : List Char := [','].intercalate (layout.entries.map Entry.text)

/-- The parts of the line that is written. -/
def form (layout : Layout) : Form :=
  ⟨layout.before, layout.gap, layout.lead, layout.list, layout.ending.text⟩

/-- The line that is written. -/
def text (layout : Layout) : List Char := layout.form.text

/-- **A directive is written properly**: behind a text without the marker, and with at least one
name. -/
structure IsProper (layout : Layout) : Prop where
  first : ¬ marker <:+: layout.before
  gap : ∀ c ∈ layout.gap, Text.isBlank c = true
  lead : ∀ c ∈ layout.lead, Text.isBlank c = true
  nonempty : layout.entries ≠ []
  entries : ∀ entry ∈ layout.entries, entry.IsProper
  ending : layout.ending.IsProper

instance (layout : Layout) : Decidable layout.IsProper :=
  decidable_of_iff
    (¬ marker <:+: layout.before ∧ layout.gap.all Text.isBlank = true ∧
      layout.lead.all Text.isBlank = true ∧ layout.entries ≠ [] ∧
      (∀ entry ∈ layout.entries, entry.IsProper) ∧ layout.ending.IsProper)
    ⟨fun ⟨first, gap, lead, nonempty, entries, ending⟩ =>
      ⟨first, List.all_eq_true.mp gap, List.all_eq_true.mp lead, nonempty, entries, ending⟩,
    fun proper =>
      ⟨proper.first, List.all_eq_true.mpr proper.gap, List.all_eq_true.mpr proper.lead,
        proper.nonempty, proper.entries, proper.ending⟩⟩

variable {layout : Layout}

theorem IsProper.splitAt_list (proper : layout.IsProper) :
    Text.splitAt ',' layout.list = layout.entries.map Entry.text := by
  refine Text.splitAt_intercalate (mt List.map_eq_nil_iff.mp proper.nonempty) ?_
  rw [List.forall_mem_map]
  exact fun entry member =>
    (proper.entries entry member).not_mem_text (by decide) (proper.entries entry member).single

theorem IsProper.form (proper : layout.IsProper) : layout.form.IsProper where
  first := proper.first
  gap := proper.gap
  lead := proper.lead
  closed := by
    have other : ∀ c ∈ layout.list, c ≠ ')' := by
      refine Text.forall_mem_intercalate (by decide) ?_
      rw [List.forall_mem_map]
      rintro entry member c inside rfl
      have entryProper := proper.entries entry member
      exact entryProper.not_mem_text (by decide) entryProper.inside inside
    exact fun member => other ')' member rfl

/-- The names that are read are the names that are written. -/
theorem IsProper.mem_names_iff (proper : layout.IsProper) {name : String} :
    name ∈ names layout.list ↔ ∃ entry ∈ layout.entries, entry.name = name := by
  rw [Directive.mem_names_iff, proper.splitAt_list]
  constructor
  · rintro ⟨-, part, listed, trimmed⟩
    obtain ⟨entry, member, rfl⟩ := List.mem_map.mp listed
    rw [(proper.entries entry member).trim_text] at trimmed
    exact ⟨entry, member, String.toList_inj.mp trimmed⟩
  · rintro ⟨entry, member, rfl⟩
    have entryProper := proper.entries entry member
    exact ⟨entryProper.nonempty, entry.text, List.mem_map_of_mem member, entryProper.trim_text⟩

end Layout

/-- **What is read of a directive is what was written**: exactly its names, each of them once, and
exactly its reason. -/
theorem read?_layout (layout : Layout) (proper : layout.IsProper) :
    ∃ directive, read? layout.text = some directive ∧ directive.rules.Nodup ∧
      (∀ name, name ∈ directive.rules ↔ ∃ entry ∈ layout.entries, entry.name = name) ∧
      directive.reason = layout.ending.reason? := by
  have named : names layout.list ≠ [] := by
    obtain ⟨entry, member⟩ := List.exists_mem_of_ne_nil _ proper.nonempty
    exact List.ne_nil_of_mem (proper.mem_names_iff.mpr ⟨entry, member, rfl⟩)
  have read : read? layout.text = some ⟨names layout.list, reasonOf? layout.ending.text⟩ := by
    rw [Layout.text, read?_text proper.form]
    exact if_neg named
  exact ⟨_, read, nodup_names _, fun name => proper.mem_names_iff,
    reasonOf?_ending proper.ending⟩

end Directive

/-! ### Samples -/

namespace Sample

open Directive

/-- A directive behind code, with one of its names written twice and a reason that looks like the
start of another directive. -/
def chattyLayout : Layout where
  before := ['n', 'ä', 'h', 'e', ' ', '#', ' ']
  gap := [' ', '\u00a0']
  lead := []
  entries := [⟨[], "CL001", [' ']⟩, ⟨['\t'], "vault (alt", []⟩, ⟨[' '], "CL001", []⟩]
  ending := .reasoned [' '] [' '] "# see allow(x), ¿no?" [' ', '"', ')', '#']

theorem chattyLayout_isProper : chattyLayout.IsProper := by decide

/-- The name that is written twice is read once, and the reason is read to its last character. -/
theorem chattyLayout_read :
    chattyLayout.IsProper ∧
      ∃ directive, read? chattyLayout.text = some directive ∧ directive.rules.Nodup ∧
        (∀ name, name ∈ directive.rules ↔ name = "CL001" ∨ name = "vault (alt") ∧
        directive.reason = some "# see allow(x), ¿no?" := by
  refine ⟨chattyLayout_isProper, ?_⟩
  obtain ⟨directive, read, once, named, reason⟩ := read?_layout chattyLayout chattyLayout_isProper
  refine ⟨directive, read, once, fun name => ?_, reason⟩
  rw [named, chattyLayout]
  simp only [List.exists_mem_cons_iff, List.not_mem_nil, false_and, exists_false, or_false]
  constructor
  · rintro (rfl | rfl | rfl)
    · exact Or.inl rfl
    · exact Or.inr rfl
    · exact Or.inl rfl
  · rintro (rfl | rfl)
    · exact Or.inl rfl
    · exact Or.inr (Or.inl rfl)

end Sample

end RecipeLint
