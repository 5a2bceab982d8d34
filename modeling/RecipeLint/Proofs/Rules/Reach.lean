/-
**What the corrections of an offense can touch.**

The rules report the range of a node. What they change is that range, the name of a method in it, a
place behind the name, or, for one rule, the range together with the blanks before it.

* `Node.IsLaidOut` — what is asked of a node. It can be computed.
* `Rules.IsBuiltIn` — the seven rules with all their options.
* `Offense.KeepsWithin` — the corrections of an offense keep between a place and its end.
* `Rules.ReportsOn` — all that a look finds is about a node.
* `Rules.check_keepsWithin` — every report of a rule does, from the start of the offense on or, if
  it removes `provides`, from the blanks before it on.
-/

import RecipeLint.Proofs.SourceFile.Widening
import RecipeLint.Rules.Preset

namespace RecipeLint

/-- A step that has a value goes on with it. -/
theorem bind_eq_ok {ε α β : Type} {first : Except ε α} {next : α → Except ε β} {result : β}
    (done : first >>= next = .ok result) :
    ∃ value, first = .ok value ∧ next value = .ok result := by
  cases first with
  | error cause => cases done
  | ok value => exact ⟨value, rfl, done⟩

/-! ### Nodes -/

namespace Node

/-- **A node is laid out in a text**: its range is a part of the text, its children lie inside of it
and apart from one another, and a call has its name inside of it and before its arguments. -/
structure IsLaidOut (source : List Char) (node : Node) : Prop where
  cuts : node.span.CutsOut source
  children : ∀ child ∈ node.children, child.span.CutsOut source ∧ child.span.Inside node.span
  siblings : node.children.Pairwise fun first second => first.span.overlaps second.span = false
  method : ∀ methodSpan ∈ node.methodSpan?,
    methodSpan.CutsOut source ∧ methodSpan.Inside node.span ∧
      ∀ arguments ∈ node.arguments.toOption, ∀ argument ∈ arguments,
        methodSpan.stop ≤ argument.span.start

instance (source : List Char) (node : Node) : Decidable (node.IsLaidOut source) :=
  decidable_of_iff
    (node.span.CutsOut source ∧
      (∀ child ∈ node.children, child.span.CutsOut source ∧ child.span.Inside node.span) ∧
      (node.children.Pairwise fun first second => first.span.overlaps second.span = false) ∧
      ∀ methodSpan ∈ node.methodSpan?,
        methodSpan.CutsOut source ∧ methodSpan.Inside node.span ∧
          ∀ arguments ∈ node.arguments.toOption, ∀ argument ∈ arguments,
            methodSpan.stop ≤ argument.span.start)
    ⟨fun ⟨cuts, children, siblings, method⟩ => ⟨cuts, children, siblings, method⟩,
      fun laid => ⟨laid.cuts, laid.children, laid.siblings, laid.method⟩⟩

/-- An argument of a call is one of its children. -/
theorem mem_children_of_mem_arguments {node argument : Node} {arguments : List Node}
    (read : node.arguments = .ok arguments) (member : argument ∈ arguments) :
    argument ∈ node.children := by
  unfold Node.arguments at read
  split at read
  next method methodSpan hasReceiver count kind =>
    obtain ⟨stop, -, rest⟩ := bind_eq_ok read
    split at rest
    next =>
      cases rest
      exact List.mem_of_mem_drop (List.mem_of_mem_take member)
    next =>
      cases rest
      cases member
  next =>
    cases read
    cases member

end Node

/-! ### Places -/

/-- The range of a place. -/
def Location.span (location : Location) : Span :=
  ⟨location.offset, location.offset + location.length⟩

theorem SourceFile.span_of_location {file : SourceFile} {span : Span} {location : Location}
    (placed : file.location span = .ok location) : location.span = span := by
  obtain ⟨⟨line, column⟩, -, rest⟩ := bind_eq_ok placed
  obtain ⟨length, measured, same⟩ := bind_eq_ok rest
  cases same
  unfold Span.length subtractWords at measured
  split at measured
  next ordered =>
    cases measured
    unfold Location.span
    rw [Nat.add_sub_cancel' ordered]
  next => cases measured

/-! ### Offenses -/

namespace Offense

/-- The first place that the corrections of an offense may touch: its start, or, if it removes
`provides`, the start of the blanks before. -/
def reachStart (source : List Char) (offense : Offense) : Nat :=
  if offense.code = Rules.ProvidesMetadata.identity.code then
    (spaceToLeft source offense.location.span).start
  else offense.location.span.start

theorem reachStart_of_ne {source : List Char} {offense : Offense}
    (other : offense.code ≠ Rules.ProvidesMetadata.identity.code) :
    offense.reachStart source = offense.location.span.start :=
  if_neg other

theorem reachStart_of_eq {source : List Char} {offense : Offense}
    (same : offense.code = Rules.ProvidesMetadata.identity.code) :
    offense.reachStart source = (spaceToLeft source offense.location.span).start :=
  if_pos same

/-- **The corrections of an offense keep between the first place and the end**: they are parts of
the text there, no two of them overlap, and what they only put in goes behind the start. -/
structure KeepsWithin (source : List Char) (offense : Offense) : Prop where
  cuts : ∀ correction ∈ offense.corrections, correction.span.CutsOut source
  inside : ∀ correction ∈ offense.corrections,
    correction.span.Inside ⟨offense.reachStart source, offense.location.span.stop⟩
  apart : offense.corrections.Pairwise fun one other => one.span.overlaps other.span = false
  behind : ∀ correction ∈ offense.corrections, correction.span.start = correction.span.stop →
    offense.location.span.start < correction.span.start

theorem KeepsWithin.of_nil {source : List Char} {offense : Offense}
    (none : offense.corrections = []) : offense.KeepsWithin source := by
  constructor <;> simp [none]

theorem KeepsWithin.of_singleton {source : List Char} {offense : Offense} {correction : Correction}
    (one : offense.corrections = [correction]) (cuts : correction.span.CutsOut source)
    (inside : correction.span.Inside ⟨offense.reachStart source, offense.location.span.stop⟩)
    (notEmpty : correction.span.start < correction.span.stop) : offense.KeepsWithin source := by
  constructor
  · simpa [one] using cuts
  · simpa [one] using inside
  · simp [one]
  · simp only [one, List.mem_singleton, forall_eq]
    omega

/-- **A report on a node** is at the range of the node, and its corrections keep within what they
may touch if the node is not empty. -/
structure IsAbout (source : List Char) (node : Node) (offense : Offense) : Prop where
  span : offense.location.span = node.span
  keeps : node.span.start < node.span.stop → offense.KeepsWithin source

end Offense

/-! ### Rules -/

namespace Rules

/-- The seven rules with all their options. -/
inductive IsBuiltIn : Rule → Prop
  | legacyRunner (severity : Severity) : IsBuiltIn (LegacyRunner.rule severity)
  | poiseDependency (cookbooks : List String) : IsBuiltIn (PoiseDependency.rule cookbooks)
  | shellOut : IsBuiltIn ShellOut.rule
  | vaultUse : IsBuiltIn VaultUse.rule
  | providesMetadata : IsBuiltIn ProvidesMetadata.rule
  | copyright : IsBuiltIn Copyright.rule
  | registryUac : IsBuiltIn RegistryUac.rule

variable {context : CheckContext} {node : Node} {found : List Offense} {offense plain : Offense}
  {identity : RuleIdentity} {message : String}

theorem offense_eq (made : identity.offense context.file node.span message = .ok plain) :
    ∃ location, context.file.location node.span = .ok location ∧
      plain = { code := identity.code, rule := identity.name, severity := identity.severity
                location := location, message := message } := by
  obtain ⟨location, placed, same⟩ := bind_eq_ok made
  cases same
  exact ⟨location, placed, rfl⟩

theorem span_of_offense (made : identity.offense context.file node.span message = .ok plain) :
    plain.location.span = node.span := by
  obtain ⟨location, placed, rfl⟩ := offense_eq made
  exact SourceFile.span_of_location placed

theorem code_of_offense (made : identity.offense context.file node.span message = .ok plain) :
    plain.code = identity.code := by
  obtain ⟨location, -, rfl⟩ := offense_eq made
  rfl

/-- A report without corrections. -/
theorem plain_isAbout (made : identity.offense context.file node.span message = .ok plain) :
    plain.IsAbout context.file.content node := by
  refine ⟨span_of_offense made, fun _ => .of_nil ?_⟩
  obtain ⟨location, -, rfl⟩ := offense_eq made
  rfl

/-- A report with one correction, which replaces the node. -/
theorem replaced_isAbout {source : List Char} (cuts : node.span.CutsOut source)
    (placed : offense.location.span = node.span)
    (other : offense.code ≠ ProvidesMetadata.identity.code) {correction : Correction}
    (one : offense.corrections = [correction]) (same : correction.span = node.span) :
    offense.IsAbout source node := by
  refine ⟨placed, fun notEmpty => .of_singleton one ?_ ?_ ?_⟩
  · rw [same]
    exact cuts
  · rw [same, Offense.reachStart_of_ne other, placed]
    exact Span.Inside.refl _
  · rw [same]
    exact notEmpty

/-- A report with one correction, which removes the node and the blanks before it. -/
theorem removed_isAbout {source : List Char} (cuts : node.span.CutsOut source)
    (placed : offense.location.span = node.span)
    (code : offense.code = ProvidesMetadata.identity.code) {correction : Correction}
    (one : offense.corrections = [correction])
    (widened : correction.span = spaceToLeft source node.span) : offense.IsAbout source node := by
  refine ⟨placed, fun notEmpty => .of_singleton one ?_ ?_ ?_⟩
  · rw [widened]
    exact spaceToLeft_cutsOut cuts
  · rw [widened, Offense.reachStart_of_eq code, placed]
    exact Span.Inside.refl _
  · rw [widened]
    exact Nat.lt_of_le_of_lt (spaceToLeft_start_le cuts) notEmpty

/-! ### Looks -/

/-- **A look reports on a node**: all that it finds, if it has a result, is about the node. -/
def ReportsOn (source : List Char) (node : Node) (look : Except Overflow (List Offense)) : Prop :=
  ∀ found, look = .ok found → ∀ offense ∈ found, offense.IsAbout source node

section

variable {source : List Char}

theorem reportsOn_nothing : ReportsOn source node (.ok []) := by
  intro found ended offense member
  cases ended
  cases member

theorem reportsOn_single (about : offense.IsAbout source node) :
    ReportsOn source node (.ok [offense]) := by
  intro found ended other member
  cases ended
  obtain rfl := List.mem_singleton.mp member
  exact about

/-- A look with a first step reports on a node if it does so with each value of the step. -/
theorem ReportsOn.bind {α : Type} {first : Except Overflow α}
    {next : α → Except Overflow (List Offense)}
    (each : ∀ value, first = .ok value → ReportsOn source node (next value)) :
    ReportsOn source node (first >>= next) := by
  intro found ended
  obtain ⟨value, done, rest⟩ := bind_eq_ok ended
  exact each value done found rest

end

/-- A look that reports the node and fixes nothing. -/
theorem reportsOn_report (identity : RuleIdentity) (message : String) :
    ReportsOn context.file.content node (do
      return [← identity.offense context.file node.span message]) :=
  .bind fun _ made => reportsOn_single (plain_isAbout made)

/-- A look that reports the node and changes a range, if such a report is about the node. -/
theorem reportsOn_change {identity : RuleIdentity} {message hint text : String} {span : Span}
    (about : ∀ {offense : Offense} {correction : Correction},
      offense.location.span = node.span → offense.code = identity.code →
        offense.corrections = [correction] → correction.span = span →
          offense.IsAbout context.file.content node) :
    ReportsOn context.file.content node (do
      let location ← context.file.location span
      let offense ← identity.offense context.file node.span message
      return [{ offense with suggestion := some ⟨hint, [⟨location, text⟩]⟩ }]) := by
  refine .bind fun location placed => .bind fun plain made => reportsOn_single ?_
  have spanned := span_of_offense made
  have code := code_of_offense made
  exact about spanned code rfl (SourceFile.span_of_location placed)

section

variable (laid : node.IsLaidOut context.file.content)

include laid

theorem legacyRunner_reportsOn (severity : Severity) :
    ReportsOn context.file.content node (LegacyRunner.offenses severity context node) := by
  have other : (LegacyRunner.identity severity).code ≠ ProvidesMetadata.identity.code := by
    show "CL001" ≠ "CL005"
    decide
  unfold LegacyRunner.offenses
  split
  next =>
    exact reportsOn_change fun spanned code => replaced_isAbout laid.cuts spanned (code ▸ other)
  next => exact reportsOn_nothing

theorem copyright_reportsOn :
    ReportsOn context.file.content node (Copyright.offenses context node) := by
  have other : Copyright.identity.code ≠ ProvidesMetadata.identity.code := by decide
  unfold Copyright.offenses
  split
  next =>
    exact reportsOn_change fun spanned code => replaced_isAbout laid.cuts spanned (code ▸ other)
  next => exact reportsOn_nothing

theorem providesMetadata_reportsOn :
    ReportsOn context.file.content node (ProvidesMetadata.offenses context node) := by
  unfold ProvidesMetadata.offenses
  split
  next => exact reportsOn_change fun spanned code => removed_isAbout laid.cuts spanned code
  next => exact reportsOn_nothing

omit laid

theorem poiseDependency_reportsOn (cookbooks : List String) :
    ReportsOn context.file.content node (PoiseDependency.offenses cookbooks context node) := by
  unfold PoiseDependency.offenses
  split
  next =>
    refine .bind fun arguments _ => ?_
    split
    next =>
      refine .bind fun name _ => ?_
      split
      next =>
        split
        next => exact reportsOn_report _ _
        next => exact reportsOn_nothing
      next => exact reportsOn_nothing
    next => exact reportsOn_nothing
  next => exact reportsOn_nothing

theorem vaultUse_reportsOn :
    ReportsOn context.file.content node (VaultUse.offenses context node) := by
  refine .bind fun isUse _ => ?_
  split
  next => exact reportsOn_report _ _
  next => exact reportsOn_nothing

theorem registryUac_reportsOn :
    ReportsOn context.file.content node (RegistryUac.offenses context node) := by
  refine .bind fun key _ => ?_
  split
  next =>
    split
    next => exact reportsOn_report _ _
    next => exact reportsOn_nothing
  next => exact reportsOn_nothing

end

/-! ### The rule about commands -/

namespace ShellOut

/-- The name of a specialised method is not empty. -/
def IsNamed (node : Node) : Prop :=
  match node.kind with
  | .call method methodSpan _ _ =>
    specialised.contains method = true → methodSpan.start < methodSpan.stop
  | _ => True

instance (node : Node) : Decidable (IsNamed node) := by
  unfold IsNamed
  split <;> infer_instance

theorem span_of_insertion {file : SourceFile} {position : Nat} {text : String}
    {correction : Correction} (made : insertion file position text = .ok correction) :
    correction.span = Span.empty position := by
  obtain ⟨location, placed, same⟩ := bind_eq_ok made
  cases same
  have start := congrArg Span.start (SourceFile.span_of_location placed)
  change location.offset = position at start
  show (⟨location.offset, location.offset + 0⟩ : Span) = ⟨position, position⟩
  rw [start, Nat.add_zero]

variable {file : SourceFile} {method : String} {methodSpan : Span} {hasReceiver : Bool}
  {count : Nat}

/-- What stands between the name and the end of a call can be cut behind its first parenthesis. -/
theorem behind_parenthesis {span : Span} (cuts : span.CutsOut file.content)
    {before after : List Char}
    (found : Text.breakOn? ['('] (file.text span) = some (before, after)) :
    (Span.empty (span.start + Text.size before + 1)).CutsOut file.content ∧
      span.start + Text.size before + 1 ≤ span.stop := by
  obtain ⟨front, inside, rest, whole, startAt, stopAt⟩ := cuts
  have text : file.text span = inside := by
    rw [SourceFile.text, whole, ← startAt, ← stopAt, Text.slice?_append]
    rfl
  rw [text] at found
  have split := Text.breakOn?_eq_some found
  subst split
  have size : Text.size ['('] = 1 := rfl
  have startOf : Text.size (front ++ (before ++ ['('])) = span.start + Text.size before + 1 := by
    simp only [Text.size_append, size, startAt, Nat.add_assoc]
  constructor
  · exact ⟨front ++ (before ++ ['(']), [], after ++ rest, by simp [whole], startOf, startOf⟩
  · rw [Text.size_append, Text.size_append, size] at stopAt
    omega

/-- The option goes behind the name of the method and no further than the end of the call. -/
theorem optionFix_span (laid : node.IsLaidOut file.content)
    (kind : node.kind = .call method methodSpan hasReceiver count) {correction : Correction}
    (made : optionFix file node methodSpan = .ok correction) :
    ∃ position, correction.span = Span.empty position ∧
      (Span.empty position).CutsOut file.content ∧ methodSpan.stop ≤ position ∧
        position ≤ node.span.stop := by
  have named : node.methodSpan? = some methodSpan := by rw [Node.methodSpan?, kind]
  obtain ⟨cuts, inside, before⟩ := laid.method methodSpan named
  obtain ⟨arguments, read, rest⟩ := bind_eq_ok made
  split at rest
  next last isLast =>
    have member : last ∈ arguments := List.mem_of_getLast? isLast
    obtain ⟨lastCuts, lastInside⟩ :=
      laid.children last (Node.mem_children_of_mem_arguments read member)
    have behind := before arguments (by rw [read]; rfl) last member
    have ordered := lastCuts.isOrdered
    split at rest
    next =>
      exact ⟨_, span_of_insertion rest, lastCuts.at_start, behind,
        Nat.le_trans ordered lastInside.2⟩
    next =>
      exact ⟨_, span_of_insertion rest, lastCuts.at_stop, Nat.le_trans behind ordered,
        lastInside.2⟩
  next =>
    split at rest
    next opening _ found =>
      have rest' := cuts.at_stop.between laid.cuts.at_stop inside.2
      obtain ⟨cut, bound⟩ := behind_parenthesis rest' found
      refine ⟨_, span_of_insertion rest, cut, ?_, bound⟩
      show methodSpan.stop ≤ methodSpan.stop + Text.size opening + 1
      omega
    next => exact ⟨_, span_of_insertion rest, cuts.at_stop, Nat.le_refl _, inside.2⟩

/-- **What fixes a call of a specialised method**: its name is replaced, and an option may be put in
behind the name. -/
inductive FixesCall (source : List Char) (node : Node) (methodSpan : Span) :
    List Correction → Prop
  | name {rename : Correction} (renames : rename.span = methodSpan) :
      FixesCall source node methodSpan [rename]
  | nameAndOption {rename option : Correction} {position : Nat} (renames : rename.span = methodSpan)
      (puts : option.span = Span.empty position) (cuts : (Span.empty position).CutsOut source)
      (behind : methodSpan.stop ≤ position) (bound : position ≤ node.span.stop) :
      FixesCall source node methodSpan [rename, option]

theorem fixes_fixesCall (laid : node.IsLaidOut file.content)
    (kind : node.kind = .call method methodSpan hasReceiver count) {corrections : List Correction}
    (made : fixes file node method methodSpan = .ok corrections) :
    FixesCall file.content node methodSpan corrections := by
  obtain ⟨location, placed, rest⟩ := bind_eq_ok made
  have renames := SourceFile.span_of_location placed
  split at rest
  next =>
    obtain ⟨option, fixed, same⟩ := bind_eq_ok rest
    cases same
    obtain ⟨position, puts, cuts, behind, bound⟩ := optionFix_span laid kind fixed
    exact .nameAndOption renames puts cuts behind bound
  next =>
    cases rest
    exact .name renames

/-- The corrections of a call touch its name and what is behind it. -/
theorem FixesCall.keepsWithin {source : List Char} {corrections : List Correction}
    (fix : FixesCall source node methodSpan corrections) (own : offense.corrections = corrections)
    (cuts : methodSpan.CutsOut source) (inside : methodSpan.Inside node.span)
    (named : methodSpan.start < methodSpan.stop) (placed : offense.location.span = node.span)
    (other : offense.code ≠ ProvidesMetadata.identity.code) : offense.KeepsWithin source := by
  have first : offense.reachStart source = node.span.start := by
    rw [Offense.reachStart_of_ne other, placed]
  cases fix with
  | @name rename renames =>
    refine .of_singleton own ?_ ?_ ?_
    · rw [renames]
      exact cuts
    · rw [renames, first, placed]
      exact inside
    · rw [renames]
      exact named
  | @nameAndOption rename option position renames puts cut behind bound =>
    obtain ⟨afterStart, beforeStop⟩ := inside
    have late : node.span.start < position := by omega
    refine ⟨?_, ?_, ?_, ?_⟩
    · rw [own]
      exact List.forall_mem_cons.mpr ⟨renames ▸ cuts, List.forall_mem_singleton.mpr (puts ▸ cut)⟩
    · rw [own, first, placed]
      refine List.forall_mem_cons.mpr ⟨?_, List.forall_mem_singleton.mpr ?_⟩
      · rw [renames]
        exact ⟨afterStart, beforeStop⟩
      · rw [puts]
        exact ⟨Nat.le_of_lt late, bound⟩
    · rw [own, List.pairwise_pair, renames, puts, ← Bool.not_eq_true, Span.overlaps_iff]
      show ¬ ((methodSpan.start < position ∧ position < methodSpan.stop) ∨
        (methodSpan.start = methodSpan.stop ∧ position = position ∧ methodSpan.start = position))
      omega
    · rw [own, placed]
      refine List.forall_mem_cons.mpr ⟨?_, List.forall_mem_singleton.mpr ?_⟩
      · rw [renames]
        omega
      · rw [puts]
        exact fun _ => late

theorem shellOut_reportsOn (laid : node.IsLaidOut context.file.content) (named : IsNamed node) :
    ReportsOn context.file.content node (offenses context node) := by
  unfold offenses
  split
  next method methodSpan hasReceiver count kind =>
    split
    next special =>
      refine .bind fun corrections fixed => .bind fun plain made => reportsOn_single ?_
      have about := span_of_offense made
      have code := code_of_offense made
      have spanned : node.methodSpan? = some methodSpan := by rw [Node.methodSpan?, kind]
      obtain ⟨cuts, inside, -⟩ := laid.method methodSpan spanned
      rw [IsNamed, kind] at named
      exact ⟨about, fun _ => (fixes_fixesCall laid kind fixed).keepsWithin rfl cuts inside
        (named special) about (code ▸ by decide)⟩
    next => exact reportsOn_nothing
  next => exact reportsOn_nothing

end ShellOut

/-- A look that ends with offenses has a value. -/
theorem ofExcept_eq_offenses {result : Except Overflow (List Offense)}
    (ended : Verdict.ofExcept result = .offenses found) : result = .ok found := by
  cases result with
  | error cause => cases ended
  | ok value =>
    cases ended
    rfl

/-- **Every report of a rule on a node that is laid out is at the range of the node, and its
corrections keep within what they may touch.** -/
theorem check_isAbout {rule : Rule} (builtIn : IsBuiltIn rule)
    (laid : node.IsLaidOut context.file.content) (named : ShellOut.IsNamed node)
    (checked : rule.check context node = .offenses found) (member : offense ∈ found) :
    offense.IsAbout context.file.content node := by
  have ends {look : Except Overflow (List Offense)}
      (reports : ReportsOn context.file.content node look)
      (ended : Verdict.ofExcept look = .offenses found) :
      offense.IsAbout context.file.content node :=
    reports found (ofExcept_eq_offenses ended) offense member
  cases builtIn with
  | legacyRunner severity => exact ends (legacyRunner_reportsOn laid severity) checked
  | poiseDependency cookbooks => exact ends (poiseDependency_reportsOn cookbooks) checked
  | shellOut => exact ends (ShellOut.shellOut_reportsOn laid named) checked
  | vaultUse => exact ends vaultUse_reportsOn checked
  | providesMetadata => exact ends (providesMetadata_reportsOn laid) checked
  | copyright => exact ends (copyright_reportsOn laid) checked
  | registryUac => exact ends registryUac_reportsOn checked

end Rules

end RecipeLint
