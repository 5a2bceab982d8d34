/-
**Calls are lowered faithfully.**

A call is cut off before its block, comments are moved behind its arguments, and the statements of
its block are taken out of their wrappers. Only a comment between the end of the call and its block
is left outside of the call it is moved into.

* `Ruby.lowerCall_eq` — a call is lowered without its block and then put into the node of its block.
* `Ruby.callNode_inside` — the children of a call lie inside of it, but for such a comment.
* `Ruby.callNode_isSound` — the receiver and the arguments of a call are where it says.
* `Ruby.lowerCall_allSound` — a call and its block are sound.
-/

import RecipeLint.Proofs.Ruby.WellNested

namespace RecipeLint.Ruby

/-! ### Calls -/

/-- The part that a call ends with if its block is left out. -/
def callEnd? (parts : List Lowered) : Option Lowered :=
  ((Lowered.inRole? parts .arguments).or (Lowered.inRole? parts .method)).or
    (Lowered.inRole? parts .receiver)

/-- The end of a call if its block is left out. -/
def callStop (span : Span) (parts : List Lowered) : Nat :=
  ((callEnd? parts).map (·.tree.span.stop)).getD span.start

/-- The name of the method that a call calls, and its range. -/
def callMethod (source : List Char) (span : Span) (parts : List Lowered) : String × Span :=
  match Lowered.inRole? parts .method with
  | some method => (String.ofList (textOf source method.tree.span), method.tree.span)
  | none => ("call", Span.empty span.start)

/-- What the arguments of a call are made from, and the comments among them. -/
def givenParts (parts : List Lowered) : List Lowered :=
  (Lowered.inRole? parts .arguments).toList.flatMap (·.parts)

/-- The arguments of a call. -/
def callValues (parts : List Lowered) : List Node :=
  ((givenParts parts).filter (!·.isComment)).map (·.node)

/-- The comments of a call. -/
def callComments (parts : List Lowered) : List Node :=
  ((givenParts parts).filter (·.isComment) ++ parts.filter (·.isComment)).map (·.node)

/-- The node of a call without its block. -/
def callNode (source : List Char) (span : Span) (parts : List Lowered) : Node :=
  let receiver := (Lowered.inRole? parts .receiver).map (·.node)
  let (name, nameSpan) := callMethod source span parts
  ⟨.call name nameSpan receiver.isSome (callValues parts).length,
    ⟨span.start, callStop span parts⟩,
    receiver.toList ++ (callValues parts ++ callComments parts)⟩

/-- A call is lowered without its block, and then put into the node of its block. -/
theorem lowerCall_eq (source : List Char) (span : Span) (parts : List Lowered) :
    lowerCall source span parts =
      match Lowered.inRole? parts .block with
      | some block => ⟨.block, span, callNode source span parts :: blockStatements block⟩
      | none => callNode source span parts := by
  unfold lowerCall callNode callMethod callStop callEnd? callValues callComments givenParts
  cases Lowered.inRole? parts .arguments <;> cases Lowered.inRole? parts .method <;>
    cases Lowered.inRole? parts .receiver <;> simp only [Option.map_none, Option.map_some,
      Option.toList_none, Option.toList_some, List.nil_append, List.map_append, List.length_map,
      List.append_assoc] <;> rfl

theorem inRole?_mem {parts : List Lowered} {role : Role} {part : Lowered}
    (field : Lowered.inRole? parts role = some part) : part ∈ parts :=
  List.mem_of_find?_eq_some field

theorem role_of_inRole? {parts : List Lowered} {role : Role} {part : Lowered}
    (field : Lowered.inRole? parts role = some part) : part.tree.role = some role := by
  have holds := List.find?_some field
  simpa using holds

theorem callEnd?_mem {parts : List Lowered} {last : Lowered} (ends : callEnd? parts = some last) :
    last ∈ parts := by
  rw [callEnd?, Option.or_eq_some_iff, Option.or_eq_some_iff] at ends
  rcases ends with (field | ⟨-, field⟩) | ⟨-, field⟩ <;> exact inRole?_mem field

theorem mem_givenParts {parts : List Lowered} {part : Lowered} (member : part ∈ givenParts parts) :
    ∃ arguments, Lowered.inRole? parts .arguments = some arguments ∧ part ∈ arguments.parts := by
  rw [givenParts, List.mem_flatMap] at member
  obtain ⟨arguments, isArguments, inner⟩ := member
  exact ⟨arguments, Option.mem_toList.mp isArguments, inner⟩

/-- The children of a call are made from its receiver, from its arguments and what stands among
them, and from the comments of the call itself. -/
theorem mem_callNode {source : List Char} {span : Span} {parts : List Lowered} {child : Node}
    (member : child ∈ (callNode source span parts).children) :
    (∃ receiver, Lowered.inRole? parts .receiver = some receiver ∧ receiver.node = child) ∨
      (∃ given ∈ givenParts parts, given.node = child) ∨
        ∃ comment ∈ parts, comment.isComment = true ∧ comment.node = child := by
  change child ∈ ((Lowered.inRole? parts .receiver).map (·.node)).toList ++
    (callValues parts ++ callComments parts) at member
  rcases List.mem_append.mp member with isReceiver | other
  · exact Or.inl (Option.map_eq_some_iff.mp (Option.mem_toList.mp isReceiver))
  · refine Or.inr ?_
    rcases List.mem_append.mp other with isValue | isComment
    · obtain ⟨given, among, rfl⟩ := List.mem_map.mp isValue
      exact Or.inl ⟨given, (List.mem_filter.mp among).1, rfl⟩
    · obtain ⟨comment, among, rfl⟩ := List.mem_map.mp isComment
      rcases List.mem_append.mp among with given | direct
      · exact Or.inl ⟨comment, (List.mem_filter.mp given).1, rfl⟩
      · obtain ⟨member, isComment⟩ := List.mem_filter.mp direct
        exact Or.inr ⟨comment, member, isComment, rfl⟩

/-- A call has no more arguments than its list of arguments has parts. -/
theorem length_callValues {source : List Char} {parts : List Lowered}
    (each : ∀ part ∈ parts, part.IsFaithful source) : (callValues parts).length < maxWord := by
  have filtered : (callValues parts).length ≤ (givenParts parts).length := by
    rw [callValues, List.length_map]
    exact List.length_filter_le _ _
  refine Nat.lt_of_le_of_lt filtered ?_
  unfold givenParts
  cases found : Lowered.inRole? parts .arguments with
  | none => decide
  | some arguments =>
    rw [Option.toList_some, List.flatMap_singleton]
    exact (each arguments (inRole?_mem found)).length_parts

theorem given_isFaithful {source : List Char} {parts : List Lowered}
    (each : ∀ part ∈ parts, part.IsFaithful source) {given : Lowered}
    (member : given ∈ givenParts parts) : given.IsFaithful source := by
  obtain ⟨arguments, found, inner⟩ := mem_givenParts member
  exact (each arguments (inRole?_mem found)).part inner

theorem tag_callComments {source : List Char} {parts : List Lowered}
    (each : ∀ part ∈ parts, part.IsFaithful source) {comment : Node}
    (member : comment ∈ callComments parts) : comment.tag = .comment := by
  obtain ⟨part, among, rfl⟩ := List.mem_map.mp member
  rcases List.mem_append.mp among with given | direct
  · obtain ⟨isGiven, isComment⟩ := List.mem_filter.mp given
    exact (given_isFaithful each isGiven).tag_node isComment
  · obtain ⟨isPart, isComment⟩ := List.mem_filter.mp direct
    exact (each part isPart).tag_node isComment

/-- The statements of a block lie inside of it, also those that are taken out of a wrapper. -/
theorem blockStatements_inside {source : List Char} {block : Lowered}
    (faithful : block.IsFaithful source) {statement : Node}
    (member : statement ∈ blockStatements block) :
    statement.span.Inside block.tree.span ∧ statement.AllSound source := by
  obtain ⟨part, partMember, among⟩ := List.mem_flatMap.mp member
  have partFaithful := faithful.part partMember
  split at among
  · cases among
  · split at among
    · obtain ⟨inner, innerMember, rfl⟩ := List.mem_map.mp among
      exact ⟨(partFaithful.part_inside innerMember).trans (faithful.tree_inside partMember),
        (partFaithful.part innerMember).sound⟩
    · obtain rfl := List.mem_singleton.mp among
      exact ⟨faithful.part_inside partMember, partFaithful.sound⟩

section Calls

variable {source : List Char} {role : Option Role} {span : Span} {parts : List Lowered}
  (nested : (Tree.node role .call span (parts.map (·.tree))).WellNested source)
  (each : ∀ part ∈ parts, part.IsFaithful source)

include nested

/-- The parts of a call come in the order of their roles. -/
theorem stop_le_start {earlier later : Role} {first second : Lowered}
    (firstField : Lowered.inRole? parts earlier = some first)
    (secondField : Lowered.inRole? parts later = some second)
    (before : Role.precedes (some earlier) (some later) = true) :
    first.tree.span.stop ≤ second.tree.span.start := by
  refine nested.fields rfl (List.mem_map_of_mem (inRole?_mem firstField))
    (List.mem_map_of_mem (inRole?_mem secondField)) ?_
  rw [role_of_inRole? firstField, role_of_inRole? secondField]
  exact before

/-- A call without its block ends with the last of its receiver, its name and its arguments. -/
theorem exists_callEnd {field : Role} {part : Lowered}
    (found : Lowered.inRole? parts field = some part)
    (early : field = .receiver ∨ field = .method ∨ field = .arguments) :
    ∃ last, callEnd? parts = some last ∧
      (last = part ∨ part.tree.span.stop ≤ last.tree.span.start) := by
  unfold callEnd?
  rcases early with rfl | rfl | rfl
  · cases given : Lowered.inRole? parts .arguments with
    | some last => exact ⟨last, rfl, Or.inr (stop_le_start nested found given rfl)⟩
    | none =>
      cases named : Lowered.inRole? parts .method with
      | some last => exact ⟨last, rfl, Or.inr (stop_le_start nested found named rfl)⟩
      | none => exact ⟨part, found, Or.inl rfl⟩
  · cases given : Lowered.inRole? parts .arguments with
    | some last => exact ⟨last, rfl, Or.inr (stop_le_start nested found given rfl)⟩
    | none => exact ⟨part, by rw [found]; rfl, Or.inl rfl⟩
  · exact ⟨part, by rw [found]; rfl, Or.inl rfl⟩

/-- The range of a call without its block is a part of the range with the block. -/
theorem callSpan_inside : Span.Inside ⟨span.start, callStop span parts⟩ span := by
  refine ⟨Nat.le_refl _, ?_⟩
  unfold callStop
  cases ends : callEnd? parts with
  | none => exact nested.cuts.isOrdered
  | some last => exact (tree_inside nested (callEnd?_mem ends)).2

include each

theorem stop_le_callStop {field : Role} {part : Lowered}
    (found : Lowered.inRole? parts field = some part)
    (early : field = .receiver ∨ field = .method ∨ field = .arguments) :
    part.tree.span.stop ≤ callStop span parts := by
  obtain ⟨last, ends, same | before⟩ := exists_callEnd nested found early
  · rw [callStop, ends, same]
    exact Nat.le_refl _
  · rw [callStop, ends]
    exact Nat.le_trans before (each last (callEnd?_mem ends)).nested.cuts.isOrdered

theorem callSpan_cutsOut : Span.CutsOut source ⟨span.start, callStop span parts⟩ := by
  unfold callStop
  cases ends : callEnd? parts with
  | none => exact nested.cuts.at_start
  | some last =>
    have member := callEnd?_mem ends
    have cuts := (each last member).nested.cuts
    exact nested.cuts.at_start.between cuts.at_stop
      (Nat.le_trans (tree_inside nested member).1 cuts.isOrdered)

/-- A comment of a call lies before its end or behind it. -/
theorem comment_inside_or_behind {comment : Lowered} (member : comment ∈ parts) :
    comment.node.span.Inside ⟨span.start, callStop span parts⟩ ∨
      callStop span parts ≤ comment.node.span.start := by
  have own := (each comment member).inside
  have around := tree_inside nested member
  unfold callStop
  cases ends : callEnd? parts with
  | none => exact Or.inr (Nat.le_trans around.1 own.1)
  | some last =>
    rcases nested.apart (List.mem_map_of_mem member) (List.mem_map_of_mem (callEnd?_mem ends))
      with same | before | behind
    · rw [same] at own
      exact Or.inl ⟨Nat.le_trans (same ▸ around.1) own.1, own.2⟩
    · have ordered := (each last (callEnd?_mem ends)).nested.cuts.isOrdered
      exact Or.inl ⟨Nat.le_trans around.1 own.1, Nat.le_trans own.2 (Nat.le_trans before ordered)⟩
    · exact Or.inr (Nat.le_trans behind own.1)

/-- What belongs to the arguments of a call lies before its end. -/
theorem given_inside {given : Lowered} (member : given ∈ givenParts parts) :
    given.node.span.Inside ⟨span.start, callStop span parts⟩ := by
  obtain ⟨arguments, found, inner⟩ := mem_givenParts member
  have around := tree_inside nested (inRole?_mem found)
  have before := stop_le_callStop nested each found (Or.inr (Or.inr rfl))
  exact ((each arguments (inRole?_mem found)).part_inside inner).trans ⟨around.1, before⟩

theorem receiver_inside {receiver : Lowered}
    (found : Lowered.inRole? parts .receiver = some receiver) :
    receiver.node.span.Inside ⟨span.start, callStop span parts⟩ := by
  have around := tree_inside nested (inRole?_mem found)
  have before := stop_le_callStop nested each found (Or.inl rfl)
  exact (each receiver (inRole?_mem found)).inside.trans ⟨around.1, before⟩

/-- A child of a call without its block lies inside of it, or is a comment behind its end. -/
theorem callNode_inside {child : Node} (member : child ∈ (callNode source span parts).children) :
    child.span.Inside ⟨span.start, callStop span parts⟩ ∨
      (child.tag = .comment ∧ callStop span parts ≤ child.span.start) := by
  rcases mem_callNode member with ⟨receiver, found, rfl⟩ | ⟨given, isGiven, rfl⟩ |
    ⟨comment, direct, isComment, rfl⟩
  · exact Or.inl (receiver_inside nested each found)
  · exact Or.inl (given_inside nested each isGiven)
  · rcases comment_inside_or_behind nested each direct with inside | behind
    · exact Or.inl inside
    · exact Or.inr ⟨(each comment direct).tag_node isComment, behind⟩

/-- What belongs to a call lies inside the range with the block. -/
theorem callNode_inside_block {child : Node}
    (member : child ∈ (callNode source span parts).children) : child.span.Inside span := by
  rcases mem_callNode member with ⟨receiver, found, rfl⟩ | ⟨given, isGiven, rfl⟩ |
    ⟨comment, direct, -, rfl⟩
  · exact node_inside nested each (inRole?_mem found)
  · exact (given_inside nested each isGiven).trans (callSpan_inside nested)
  · exact node_inside nested each direct

theorem callMethod_inside :
    (callMethod source span parts).2.Inside ⟨span.start, callStop span parts⟩ := by
  unfold callMethod
  cases named : Lowered.inRole? parts .method with
  | none => exact ⟨Nat.le_refl _, (callSpan_cutsOut nested each).isOrdered⟩
  | some method =>
    exact ⟨(tree_inside nested (inRole?_mem named)).1,
      stop_le_callStop nested each named (Or.inr (Or.inl rfl))⟩

theorem callNode_isSound : (callNode source span parts).IsSound source where
  cuts := callSpan_cutsOut nested each
  inside := fun child member => (callNode_inside nested each member).imp_right
    fun behind => ⟨rfl, behind⟩
  call := by
    rintro method methodSpan hasReceiver count ⟨rfl, rfl, rfl, rfl⟩
    refine ⟨congrArg Option.isSome (Node.receiver?_mk ..), ⟨callValues parts, callComments parts,
      Node.arguments_mk _ _ _ _ _ (length_callValues each), rfl, ?_, ?_⟩,
      callMethod_inside nested each⟩
    · exact congrArg (·.toList ++ _) (Node.receiver?_mk ..).symm
    · exact fun comment member => tag_callComments each member
  block := nofun
  const := nofun
  leaf := nofun
  comment := nofun

theorem callNode_allSound : (callNode source span parts).AllSound source := by
  refine Node.AllSound.of_children (callNode_isSound nested each) fun child member => ?_
  rcases mem_callNode member with ⟨receiver, found, rfl⟩ | ⟨given, isGiven, rfl⟩ |
    ⟨comment, direct, -, rfl⟩
  · exact (each receiver (inRole?_mem found)).sound
  · exact (given_isFaithful each isGiven).sound
  · exact (each comment direct).sound

/-- A call with a block: the call comes first, and the statements of the block follow. -/
theorem blockNode_allSound {block : Lowered} (found : Lowered.inRole? parts .block = some block) :
    (Node.mk .block span (callNode source span parts :: blockStatements block)).AllSound
      source := by
  have faithful := each block (inRole?_mem found)
  have around := tree_inside nested (inRole?_mem found)
  refine Node.AllSound.of_children ⟨nested.cuts, ?_, nofun, ?_, nofun, nofun, nofun⟩ ?_
  · refine List.forall_mem_cons.mpr ⟨Or.inl (callSpan_inside nested), fun statement member => ?_⟩
    exact Or.inl ((blockStatements_inside faithful member).1.trans around)
  · exact fun _ => ⟨_, rfl, rfl, fun child member => callNode_inside_block nested each member⟩
  · refine List.forall_mem_cons.mpr ⟨callNode_allSound nested each, fun statement member => ?_⟩
    exact (blockStatements_inside faithful member).2

theorem lowerCall_allSound : (lowerCall source span parts).AllSound source := by
  rw [lowerCall_eq]
  cases found : Lowered.inRole? parts .block with
  | some block => exact blockNode_allSound nested each found
  | none => exact callNode_allSound nested each

omit each in
theorem lowerCall_inside : (lowerCall source span parts).span.Inside span := by
  rw [lowerCall_eq]
  cases Lowered.inRole? parts .block with
  | some block => exact Span.Inside.refl span
  | none => exact callSpan_inside nested

end Calls

end RecipeLint.Ruby
