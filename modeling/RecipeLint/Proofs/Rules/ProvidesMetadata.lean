/-
**Removing `provides` removes nothing else.**

The calls of `provides` in a description are removed together with the blanks and line breaks before
them, so what follows a call on its line comes to stand at the end of a line before. If the calls
are statements of their own, and none of these lines ends in a comment, what is called in the
corrected text is what was called outside of the calls of `provides`, and all other statements say
what they said.

Otherwise the removal may change what is called. What follows a call is swallowed by a comment that
comes to stand before it, also by one from `=begin` to `=end`, and by a here document that ends
there. A method that is called on `provides`, as in `provides('x').bar`, is called on the statement
before, and this statement is no call any more if `provides` is the target of an assignment. A name
that is bound in the arguments becomes a call where it stands behind them. A here document that
starts in the arguments leaves its lines behind.

* `Rules.ProvidesMetadata.corrections_walk` — the changes of the rule in a description.
* `Rules.ProvidesMetadata.lint_removes_calls` — what is left of a description.
* `Sample.comment_swallows` — a comment that what follows a call becomes a part of.
-/

import RecipeLint.Proofs.Analyzer.Autocorrect
import RecipeLint.Proofs.Evaluation.Alone
import RecipeLint.Proofs.Patch.Rearrangement
import RecipeLint.Proofs.Ruby.CallStatements
import RecipeLint.Proofs.Ruby.Lowering
import RecipeLint.Proofs.Ruby.Occurrences
import RecipeLint.Proofs.Rules.Reach
import RecipeLint.Rules.ProvidesMetadata

namespace RecipeLint

namespace Ruby

variable {removed : Statement → Bool}

theorem statementSpans_cuts {items : List Item} (front : List Char) :
    ∀ span ∈ statementSpans removed (Text.size front) items,
      span.CutsOut (front ++ layoutText items) := by
  induction items generalizing front with
  | nil => exact nofun
  | cons item items ih =>
    have later := ih (front ++ item.text)
    rw [List.append_assoc, ← layoutText_cons, Text.size_append] at later
    rw [statementSpans]
    cases item.treatment removed with
    | goes =>
      refine List.forall_mem_cons.mpr ⟨⟨front, item.text, layoutText items, ?_, rfl, rfl⟩, later⟩
      rw [layoutText_cons]
    | waits | stays => exact later

end Ruby

namespace Rules.ProvidesMetadata

open Ruby

/-- The name of the method that the rule is about. -/
abbrev method : String := "provides"

/-- The change that removes a range and the blanks before it. -/
def removal (file : SourceFile) (span : Span) : Correction :=
  .remove (file.place (spaceToLeft file.content span))

/-- What the rule says of a call. -/
def finding (file : SourceFile) (span : Span) : Offense where
  code := identity.code
  rule := identity.name
  severity := identity.severity
  location := file.place span
  message := message
  suggestion := some ⟨"Remove provides", [removal file span]⟩

/-- What the rule changes at a node. -/
def changes (file : SourceFile) (node : Node) : List Correction :=
  if node.methodName? = some method then [removal file node.span] else []

/-- What is changed in a tree are the calls of `provides`. -/
theorem corrections_walk (file : SourceFile) (span : Span) (children : List Node) :
    (Node.mk .program span children).walk.flatMap (changes file) =
      (Node.rangesOf method children).map (removal file) := by
  rw [Node.walk_eq_preorder, Node.preorder, List.flatMap_cons]
  show (Node.preorderAll children).flatMap (changes file) = _
  rw [Node.rangesOf]
  induction Node.preorderAll children with
  | nil => rfl
  | cons node nodes ih =>
    rw [List.flatMap_cons, List.filterMap_cons, ih, changes]
    split <;> rfl

section File

variable {file : SourceFile} (small : Text.size file.content < maxWord)

include small

/-- A call is found, and removed with the blanks before it. -/
theorem check_of_called {ancestors : List Node} {node : Node}
    (called : node.methodName? = some method) (cuts : node.span.CutsOut file.content) :
    rule.check ⟨file, ancestors⟩ node = .offenses [finding file node.span] := by
  have widened := SourceFile.places_of_cutsOut small (spaceToLeft_cutsOut cuts)
  have own := SourceFile.places_of_cutsOut small cuts
  show Verdict.ofExcept (offenses ⟨file, ancestors⟩ node) = _
  rw [offenses, if_pos called, RuleIdentity.offense]
  simp only [SourceFile.location_eq_place widened, SourceFile.location_eq_place own]
  rfl

omit small in
/-- A change covers the range and the blanks before it. -/
theorem span_removal {span : Span} (cuts : span.CutsOut file.content) :
    (removal file span).span = spaceToLeft file.content span :=
  file.span_place (spaceToLeft_cutsOut cuts).isOrdered ""

end File

/-- Nothing else is found. -/
theorem check_of_not_called {context : CheckContext} {node : Node}
    (other : node.methodName? ≠ some method) : rule.check context node = .offenses [] := by
  show Verdict.ofExcept (offenses context node) = _
  rw [offenses, if_neg other]
  rfl

/-! ### Descriptions -/

/-- **A description**: a program in which the calls of `provides` are statements of their own, and
nothing but what separates the statements ends in a blank. No directive allows a call. -/
structure IsDescription (items : List Item) : Prop where
  laid : IsLaidOut .fresh items
  trimmed : ∀ item ∈ items, item.IsTrimmed
  apart : SetsApart method (localsOf items) items
  small : Text.size (layoutText items) < maxWord
  denied (line : Nat) :
    Directive.allowing? (layoutText items) line rule.name rule.code = none

/-- **An analyzer corrects a Ruby file with this rule alone.** -/
structure RunsAlone (analyzer : Analyzer) (path : String) : Prop where
  ruby : analyzer.language = Ruby.language
  autocorrect : analyzer.autocorrect = true
  alone (text : String) : analyzer.evaluator.Alone (analyzer.sourceFile path text) rule

/-- What is left of a description without the calls of `provides`. -/
def remaining (items : List Item) : List Item :=
  leftOver (·.calls method (localsOf items)) [] items

/-- The ranges that are removed from a description. -/
def removedFrom (items : List Item) : List Span :=
  removedSpans (·.calls method (localsOf items)) 0 0 items

section Description

variable {items : List Item} (description : IsDescription items)

include description

theorem removedFrom_eq_map : removedFrom items =
    (statementSpans (·.calls method (localsOf items)) 0 items).map
      (spaceToLeft (layoutText items)) :=
  removedSpans_eq_map description.trimmed [] rfl

/-- **The changes of the rule, in whatever order, make what is left.** -/
theorem apply_removals {corrections : List Correction} {file : SourceFile}
    (content : file.content = layoutText items)
    (same : corrections.Perm
      ((statementSpans (·.calls method (localsOf items)) 0 items).map (removal file))) :
    Patch.apply (String.ofList (layoutText items)) corrections =
      .ok (.ok (String.ofList (layoutText (remaining items)))) := by
  generalize listed : (statementSpans (·.calls method (localsOf items)) 0 items).map
    (removal file) = removals at same
  have spans : removals.map Correction.span = removedFrom items := by
    rw [← listed, List.map_map, removedFrom_eq_map description]
    refine List.map_congr_left fun span member => ?_
    have cuts := statementSpans_cuts [] span member
    rw [List.nil_append, ← content] at cuts
    rw [← content]
    exact span_removal cuts
  have edits : removals.map Correction.toEdit = (removedFrom items).map fun span => ⟨span, []⟩ := by
    rw [← spans, List.map_map, ← listed, List.map_map, List.map_map]
    rfl
  have inside : ∀ change ∈ removals, change.span.CutsOut (layoutText items) := by
    intro change member
    have listed := spans ▸ List.mem_map_of_mem (f := Correction.span) member
    exact (removedSpans_cuts [] [] _ listed).1
  have made := Patch.apply_of_precedes same
    (fun change member => by
      have bound : change.location.offset + change.location.length ≤ _ :=
        (inside change member).stop_le
      exact Nat.le_of_lt (Nat.lt_of_le_of_lt bound description.small))
    inside
    (List.pairwise_map.mp (spans ▸ removedSpans_precede [] []))
  have spliced : Patch.splice 0 (layoutText items)
      ((removedFrom items).map fun span => ⟨span, []⟩) = layoutText (remaining items) :=
    splice_removedSpans [] []
  rw [made, edits, spliced]

omit description in
theorem cutsOut_of_called {span : Span} {children : List Node}
    (spans : Node.rangesOf method children =
      statementSpans (·.calls method (localsOf items)) 0 items)
    {node : Node} (member : node ∈ (Node.mk .program span children).walk)
    (called : node.methodName? = some method) : node.span.CutsOut (layoutText items) := by
  rw [Node.walk_eq_preorder, Node.preorder] at member
  have below : node ∈ Node.preorderAll children := by
    refine (List.mem_cons.mp member).resolve_left ?_
    rintro rfl
    cases called
  have listed : node.span ∈ Node.rangesOf method children :=
    List.mem_filterMap.mpr ⟨node, below, if_pos called⟩
  rw [spans] at listed
  exact statementSpans_cuts [] node.span listed

/-- **The trees of a description and of what is left of it.** The calls of `provides` are statements
of the one, and the other one says all the rest. -/
theorem exists_trees (uncovered : IsLaidOut .fresh (remaining items)) :
    ∃ span children root',
      parse (String.ofList (layoutText items)) = .ok (.mk .program span children) ∧
      parse (String.ofList (layoutText (remaining items))) = .ok root' ∧
      Node.rangesOf method children = statementSpans (·.calls method (localsOf items)) 0 items ∧
      root'.calledNames = (Node.mk .program span children).calledOutside method ∧
      statementsOf root'.children = (statementsOf children).filter fun node =>
        decide (node.methodName? ≠ some method) := by
  obtain ⟨others, follow, children, same, outlined, parsed⟩ := parse_layout description.laid
  obtain ⟨-, -, children', -, outlined', parsed'⟩ := parse_layout uncovered
  have apart := description.apart
  have locals : localsOf (remaining items) = localsOf items := localsOf_leftOver apart
  rw [locals] at outlined'
  refine ⟨_, children, _, parsed, parsed', ?_, ?_, ?_⟩
  · rw [same]
    exact rangesOf_layout apart [] .fresh follow
  · rw [Node.calledNames_eq, Node.calledOutside_eq, Node.preorder_eq_cons]
    show (Node.preorderAll children').filterMap Node.methodName? =
      Node.calledOutsideAll method children
    rw [← Node.filterMap_outlines, outlined', Node.filterMap_outlines,
      ← Node.calledOutsideAll_outlines, outlined, Node.calledOutsideAll_outlines]
    exact called_leftOver apart .fresh .fresh
  · show statementsOf children' = (statementsOf children).filter _
    rw [statementsOf, outlined', statementsOf, outlined]
    exact statements_leftOver apart .fresh .fresh

/-- **A description is corrected in one go.** -/
theorem evaluate_removes {analyzer : Analyzer} {path : String} (runs : RunsAlone analyzer path)
    {span : Span} {children : List Node}
    (spans : Node.rangesOf method children =
      statementSpans (·.calls method (localsOf items)) 0 items) :
    ∃ evaluation,
      analyzer.evaluator.evaluate (analyzer.sourceFile path (String.ofList (layoutText items)))
          (.mk .program span children) = .ok evaluation ∧
        Patch.apply (String.ofList (layoutText items))
            (evaluation.offenses.flatMap (·.corrections)) =
          .ok (.ok (String.ofList (layoutText (remaining items)))) := by
  generalize given : analyzer.sourceFile path (String.ofList (layoutText items)) = file
  have content : file.content = layoutText items := given ▸ String.toList_ofList
  have small := description.small
  rw [← content] at small
  have finds : ∀ visit ∈ Visit.all (.mk .program span children), visit.node.tag ∈ rule.tags →
      ∃ found, rule.check ⟨file, visit.ancestors⟩ visit.node = .offenses found ∧
        found.flatMap (·.corrections) = changes file visit.node := by
    intro visit member _
    by_cases called : visit.node.methodName? = some method
    · have cuts := cutsOut_of_called spans (Visit.node_mem_walk member) called
      rw [← content] at cuts
      refine ⟨_, check_of_called small called cuts, ?_⟩
      rw [changes, if_pos called]
      rfl
    · exact ⟨[], check_of_not_called called, (if_neg called).symm⟩
  have only : ∀ node : Node, node.tag ∉ rule.tags → changes file node = [] :=
    fun node other => if_neg fun called =>
      other (List.mem_singleton.mpr (Node.tag_of_methodName? called))
  have alone : analyzer.evaluator.Alone file rule := given ▸ runs.alone _
  obtain ⟨evaluation, evaluated, changed⟩ := alone.corrections_evaluate
    (.mk .program span children) (changes file) (content ▸ description.denied) finds only
  rw [corrections_walk, spans] at changed
  exact ⟨evaluation, evaluated, apply_removals description content changed⟩

/-- **What is left of a description is what the others say.** -/
theorem lint_removes_calls {analyzer : Analyzer} {path : String} (runs : RunsAlone analyzer path)
    (uncovered : IsLaidOut .fresh (remaining items)) :
    ∃ before after outcome,
      parse (String.ofList (layoutText items)) = .ok before ∧
      parse (String.ofList (layoutText (remaining items))) = .ok after ∧
      analyzer.lint path (String.ofList (layoutText items)) = .ok outcome ∧
      outcome.corrected =
        (if String.ofList (layoutText (remaining items)) = String.ofList (layoutText items)
        then none else some (String.ofList (layoutText (remaining items)))) ∧
      after.calledNames = before.calledOutside method ∧
      statementsOf after.children = (statementsOf before.children).filter fun node =>
        decide (node.methodName? ≠ some method) := by
  obtain ⟨span, children, root', parsed, parsed', spans, calls, statements⟩ :=
    exists_trees description uncovered
  obtain ⟨evaluation, evaluated, applied⟩ := evaluate_removes description runs spans
  -- nothing is found in what is left
  obtain ⟨last, evaluatedLast, settled⟩ :=
    (runs.alone (String.ofList (layoutText (remaining items)))).corrections_eq_nil root'
      (fun visit member _ => check_of_not_called fun called => by
        refine Node.not_mem_calledOutside method (.mk .program span children) (calls ▸ ?_)
        exact List.mem_filterMap.mpr ⟨_, Visit.node_mem_walk member, called⟩)
  obtain ⟨outcome, linted, corrected⟩ := Analyzer.lint_of_pass runs.autocorrect
    ⟨_, by rw [runs.ruby]; exact parsed, evaluated⟩ applied
    ⟨root', by rw [runs.ruby]; exact parsed', evaluatedLast⟩ settled
  exact ⟨_, root', outcome, parsed, parsed', linted, corrected, calls, statements⟩

end Description

end Rules.ProvidesMetadata

/-! ### Samples -/

namespace Sample

open Ruby Rules.ProvidesMetadata

/-- The collection of the rule about `provides` alone. -/
def metadataRule : Registry :=
  match Registry.ofRules [Rules.ProvidesMetadata.rule] with
  | .ok registry => registry
  | .error _ => .empty

/-- The analyzer that corrects with this rule alone. -/
def removing : Analyzer :=
  { chain with language := Ruby.language, evaluator := ⟨metadataRule, {}, none⟩ }

theorem removing_runsAlone : RunsAlone removing "/metadata.rb" where
  ruby := rfl
  autocorrect := rfl
  alone text := by
    have added : Registry.ofRules [Rules.ProvidesMetadata.rule] = .ok metadataRule := rfl
    have kind : FileKind.ofPath "/metadata.rb" = .metadata := by decide +kernel
    have active : removing.evaluator.isActive (removing.sourceFile "/metadata.rb" text)
        Rules.ProvidesMetadata.rule = true := by
      show (true && true && (FileKind.ofPath "/metadata.rb" == .metadata)) = true
      rw [kind]
      rfl
    exact ⟨Registry.built_of_ofRules added, List.filter_cons_of_pos active⟩

/-- A description with a call of `provides` between two others, and with comments. -/
def metadataItems : List Item :=
  [.comment " a cookbook".toList (by decide), .lineBreak,
    .statement (Call.ofString
      ⟨"name".toList, none, by decide, by decide, MethodName.unmarked, by decide⟩
      "a".toList (by decide)).statement, .lineBreak,
    .statement (Call.ofString
      ⟨"provides".toList, none, by decide, by decide, MethodName.unmarked, by decide⟩
      "web".toList (by decide)).statement, .blank ' ' isGap_space (by decide),
    .comment " unused".toList (by decide), .lineBreak,
    .statement (Call.ofString
      ⟨"depends".toList, none, by decide, by decide, MethodName.unmarked, by decide⟩
      "b".toList (by decide)).statement, .lineBreak]

theorem metadataItems_isDescription : IsDescription metadataItems where
  laid := ⟨trivial, trivial, rfl, trivial, rfl, trivial, trivial, trivial, rfl, trivial, trivial⟩
  trimmed := by
    simp only [metadataItems, List.forall_mem_cons, Item.IsTrimmed, true_and]
    exact ⟨by decide, by decide, by decide, by decide, by decide, List.forall_mem_nil _⟩
  apart := by
    intro given member
    simp only [metadataItems, List.mem_cons, Item.statement.injEq, reduceCtorEq, false_or,
      List.not_mem_nil, or_false] at member
    rcases member with rfl | rfl | rfl
    · exact Or.inr (by rw [Node.calledNames_eq]; decide)
    · exact Or.inl ⟨by decide, by decide, by decide, by decide⟩
    · exact Or.inr (by rw [Node.calledNames_eq]; decide)
  small := by decide
  denied line := Directive.allowing?_of_scan (by decide) line _ _

/-- The call is removed, and the comment behind it comes to stand behind the call before it. -/
theorem provides_removed :
    IsDescription metadataItems ∧ RunsAlone removing "/metadata.rb" ∧
      IsLaidOut .fresh (remaining metadataItems) ∧
      String.ofList (layoutText metadataItems) =
        "# a cookbook\nname 'a'\nprovides 'web' # unused\ndepends 'b'\n" ∧
      String.ofList (layoutText (remaining metadataItems)) =
        "# a cookbook\nname 'a' # unused\ndepends 'b'\n" ∧
      ∃ before after outcome,
        parse (String.ofList (layoutText metadataItems)) = .ok before ∧
        parse (String.ofList (layoutText (remaining metadataItems))) = .ok after ∧
        removing.lint "/metadata.rb" (String.ofList (layoutText metadataItems)) = .ok outcome ∧
        outcome.corrected = some (String.ofList (layoutText (remaining metadataItems))) ∧
        after.calledNames = before.calledOutside method ∧
        statementsOf after.children = (statementsOf before.children).filter fun node =>
          decide (node.methodName? ≠ some method) := by
  have uncovered : IsLaidOut .fresh (remaining metadataItems) :=
    ⟨trivial, trivial, rfl, trivial, trivial, trivial, rfl, trivial, trivial⟩
  have text : String.ofList (layoutText metadataItems) =
      "# a cookbook\nname 'a'\nprovides 'web' # unused\ndepends 'b'\n" := by decide
  have left : String.ofList (layoutText (remaining metadataItems)) =
      "# a cookbook\nname 'a' # unused\ndepends 'b'\n" := by decide
  obtain ⟨before, after, outcome, parsed, parsed', linted, corrected, calls, statements⟩ :=
    lint_removes_calls metadataItems_isDescription removing_runsAlone uncovered
  rw [if_neg (by rw [text, left]; decide)] at corrected
  exact ⟨metadataItems_isDescription, removing_runsAlone, uncovered, text, left, before, after,
    outcome, parsed, parsed', linted, corrected, calls, statements⟩

/-- A comment, and below it a call of `provides` with another one on its line. -/
def remarkText : String := "# note\nprovides 'web'; depends 'poise'\n"

/-- What is left of it. -/
def remarkLeft : String := "# note; depends 'poise'\n"

/-- **A comment swallows a call**: what stands behind `provides` on its line becomes a part of the
comment above. -/
theorem comment_swallows :
    ∃ before after outcome, parse remarkText = .ok before ∧
      removing.lint "/metadata.rb" remarkText = .ok outcome ∧
      outcome.corrected = some remarkLeft ∧ parse remarkLeft = .ok after ∧
      after.calledNames ≠ before.calledOutside method := by
  obtain ⟨before, parsed, called⟩ : ∃ before, parse remarkText = .ok before ∧
      decide (before.calledOutside method = ["depends"]) = true := exists_ok (by decide +kernel)
  obtain ⟨outcome, linted, corrected⟩ : ∃ outcome,
      removing.lint "/metadata.rb" remarkText = .ok outcome ∧
        decide (outcome.corrected = some remarkLeft) = true := exists_ok (by decide +kernel)
  obtain ⟨after, parsed', none⟩ : ∃ after, parse remarkLeft = .ok after ∧
      decide (after.preorder.filterMap Node.methodName? = []) = true :=
    exists_ok (by decide +kernel)
  refine ⟨before, after, outcome, parsed, linted, of_decide_eq_true corrected, parsed', ?_⟩
  rw [of_decide_eq_true called, Node.calledNames_eq, of_decide_eq_true none]
  nofun

end Sample

end RecipeLint
