/-
**What moved trees become.**

A concrete tree that follows another one, further to the right and with comments in it, becomes a
node that says the same, further to the right. Each step of lowering keeps to that.

* `Lowered.Follows` — what a tree became follows what another tree became.
* `combine_follows` — one step of lowering.
* `Tree.Follows.lower` — all of lowering.
-/

import RecipeLint.Proofs.Node.Outline
import RecipeLint.Proofs.Ruby.Call
import RecipeLint.Proofs.Ruby.Following

namespace RecipeLint.Ruby

/-! ### Places of lowered trees -/

namespace Lowered

/-- What a comment became. -/
structure IsRemark (lowered : Lowered) : Prop where
  tree : lowered.tree.IsRemark
  tag : lowered.node.tag = .comment
  children : lowered.node.children = []

mutual

/-- **What a tree of a text became is what another tree became**, further to the right in another
text, with comments in it. -/
inductive Follows (text source : List Char) (distance : Nat) : Lowered → Lowered → Prop
  | mk {role : Option Role} {kind : Kind} {span : Span} {trees others : List Tree}
      {node other : Node} {parts followers : List Lowered}
      (named : textOf source (span.shift distance) = textOf text span)
      (same : other.outline = node.outline) (place : other.span = node.span.shift distance)
      (each : AllFollow text source distance parts followers) :
      Follows text source distance (.mk (.node role kind span trees) node parts)
        (.mk (.node role kind (span.shift distance) others) other followers)

/-- The same for what several trees became. -/
inductive AllFollow (text source : List Char) (distance : Nat) :
    List Lowered → List Lowered → Prop
  | nil : AllFollow text source distance [] []
  | cons {part follower : Lowered} {parts followers : List Lowered}
      (first : Follows text source distance part follower)
      (more : AllFollow text source distance parts followers) :
      AllFollow text source distance (part :: parts) (follower :: followers)
  | remark {follower : Lowered} {parts followers : List Lowered} (isRemark : follower.IsRemark)
      (more : AllFollow text source distance parts followers) :
      AllFollow text source distance parts (follower :: followers)

end

theorem IsRemark.kind {lowered : Lowered} (remark : lowered.IsRemark) :
    lowered.tree.kind = .comment := by
  obtain ⟨⟨role, kind, span, trees⟩, node, parts⟩ := lowered
  cases remark.tree
  rfl

theorem IsRemark.role {lowered : Lowered} (remark : lowered.IsRemark) :
    lowered.tree.role = none := by
  obtain ⟨⟨role, kind, span, trees⟩, node, parts⟩ := lowered
  cases remark.tree
  rfl

variable {text source : List Char} {distance : Nat} {part follower : Lowered}
  {parts followers : List Lowered}

section Single

variable (follows : Follows text source distance part follower)

include follows

theorem Follows.role : follower.tree.role = part.tree.role := by
  cases follows
  rfl

theorem Follows.kind : follower.tree.kind = part.tree.kind := by
  cases follows
  rfl

theorem Follows.span : follower.tree.span = part.tree.span.shift distance := by
  cases follows
  rfl

theorem Follows.named : textOf source follower.tree.span = textOf text part.tree.span := by
  cases follows with
  | mk named => exact named

theorem Follows.outline : follower.node.outline = part.node.outline := by
  cases follows with
  | mk _ same => exact same

theorem Follows.place : follower.node.span = part.node.span.shift distance := by
  cases follows with
  | mk _ _ place => exact place

theorem Follows.each : AllFollow text source distance part.parts follower.parts := by
  cases follows with
  | mk _ _ _ each => exact each

theorem Follows.outlines (nodes : List Node) :
    Node.outlines (follower.node :: nodes) = Node.outlines [part.node] ++ Node.outlines nodes := by
  have sameTag : follower.node.tag = part.node.tag := by
    rw [← Node.tag_outline, follows.outline, Node.tag_outline]
  rw [Node.outlines, Node.outlines, Node.outlines, follows.outline, sameTag, List.append_nil]

end Single

theorem IsRemark.outlines (remark : part.IsRemark) (nodes : List Node) :
    Node.outlines (part.node :: nodes) = Node.outlines nodes := by
  obtain ⟨tree, ⟨kind, span, children⟩, parts⟩ := part
  obtain rfl : children = [] := remark.children
  rw [Node.outlines, if_pos remark.tag]
  rfl

section Several

variable (each : AllFollow text source distance parts followers)

include each

/-- The parts in a role follow each other. -/
theorem AllFollow.inRole? (role : Role) :
    (Lowered.inRole? parts role = none ∧ Lowered.inRole? followers role = none) ∨
      ∃ part follower, Lowered.inRole? parts role = some part ∧
        Lowered.inRole? followers role = some follower ∧
          Follows text source distance part follower := by
  unfold Lowered.inRole?
  induction followers generalizing parts with
  | nil =>
    cases each
    exact Or.inl ⟨rfl, rfl⟩
  | cons follower followers ih =>
    cases each with
    | @cons part _ parts _ first more =>
      rw [List.find?_cons, List.find?_cons, first.role]
      split
      · exact Or.inr ⟨part, follower, rfl, rfl, first⟩
      · exact ih more
    | remark isRemark more =>
      have other : (follower.tree.role == some role) = false := by
        rw [isRemark.role]
        rfl
      rw [List.find?_cons, other]
      exact ih more

theorem AllFollow.filter (keep : Lowered → Bool)
    (same : ∀ {part follower}, Follows text source distance part follower →
      keep follower = keep part) :
    AllFollow text source distance (parts.filter keep) (followers.filter keep) := by
  induction followers generalizing parts with
  | nil =>
    cases each
    exact .nil
  | cons follower followers ih =>
    cases each with
    | cons first more =>
      rw [List.filter_cons, List.filter_cons, same first]
      split
      · exact .cons first (ih more)
      · exact ih more
    | remark isRemark more =>
      rw [List.filter_cons]
      split
      · exact .remark isRemark (ih more)
      · exact ih more

/-- They say the same. -/
theorem AllFollow.outlines :
    Node.outlines (followers.map (·.node)) = Node.outlines (parts.map (·.node)) := by
  induction followers generalizing parts with
  | nil =>
    cases each
    rfl
  | cons follower followers ih =>
    cases each with
    | @cons part _ parts _ first more =>
      rw [List.map_cons, List.map_cons, first.outlines, ih more, Node.outlines, Node.outlines,
        Node.outlines, List.append_nil]
    | remark isRemark more => rw [List.map_cons, isRemark.outlines, ih more]

theorem AllFollow.values :
    (followers.filter (!·.isComment)).length = (parts.filter (!·.isComment)).length := by
  induction followers generalizing parts with
  | nil =>
    cases each
    rfl
  | cons follower followers ih =>
    cases each with
    | @cons part _ parts _ first more =>
      have same : follower.isComment = part.isComment := by
        rw [isComment, isComment, Tree.is, Tree.is, first.kind]
      rw [List.filter_cons, List.filter_cons, same]
      split
      · rw [List.length_cons, List.length_cons, ih more]
      · exact ih more
    | remark isRemark more =>
      have isComment : follower.isComment = true := by
        rw [Lowered.isComment, Tree.is, isRemark.kind]
        rfl
      rw [List.filter_cons, isComment]
      exact ih more

theorem AllFollow.any (kind : Kind) (noComment : kind ≠ .comment) :
    followers.any (·.tree.is kind) = parts.any (·.tree.is kind) := by
  induction followers generalizing parts with
  | nil =>
    cases each
    rfl
  | cons follower followers ih =>
    cases each with
    | cons first more => rw [List.any_cons, List.any_cons, Tree.is, Tree.is, first.kind, ih more]
    | remark isRemark more =>
      have other : follower.tree.is kind = false := by
        rw [Tree.is, isRemark.kind]
        exact beq_false_of_ne noComment.symm
      rw [List.any_cons, other, ih more]
      rfl

end Several

end Lowered

/-! ### Steps of lowering -/

section Steps

variable {text source : List Char} {distance : Nat} {parts followers : List Lowered}
  (each : Lowered.AllFollow text source distance parts followers)

include each

theorem stringValue_follows {span : Span}
    (named : textOf source (span.shift distance) = textOf text span) :
    stringValue source (span.shift distance) (followers.map (·.tree)) =
      stringValue text span (parts.map (·.tree)) := by
  unfold stringValue
  rw [named]
  simp only
  split
  next => rfl
  next =>
    induction followers generalizing parts with
    | nil =>
      cases each
      rfl
    | cons follower followers ih =>
      cases each with
      | cons first more =>
        rw [List.map_cons, List.map_cons, List.flatMap_cons, List.flatMap_cons, ih more]
        simp only [first.kind, first.named]
      | remark isRemark more =>
        rw [List.map_cons, List.flatMap_cons, ih more]
        simp only [isRemark.kind, List.nil_append]

theorem givenParts_follow :
    Lowered.AllFollow text source distance (givenParts parts) (givenParts followers) := by
  unfold givenParts
  rcases each.inRole? .arguments with ⟨without, without'⟩ | ⟨part, follower, here, there, follows⟩
  · rw [without, without']
    exact .nil
  · rw [here, there, Option.toList_some, Option.toList_some, List.flatMap_singleton,
      List.flatMap_singleton]
    exact follows.each

omit each in
theorem isComment_follows {part follower : Lowered}
    (follows : Lowered.Follows text source distance part follower) :
    follower.isComment = part.isComment := by
  rw [Lowered.isComment, Lowered.isComment, Tree.is, Tree.is, follows.kind]

theorem length_callValues_follow : (callValues followers).length = (callValues parts).length := by
  rw [callValues, callValues, List.length_map, List.length_map]
  exact (givenParts_follow each).values

theorem outlines_callValues :
    Node.outlines (callValues followers) = Node.outlines (callValues parts) := by
  have values := (givenParts_follow each).filter (!·.isComment) fun follows => by
    rw [isComment_follows follows]
  exact values.outlines

theorem outlines_callComments :
    Node.outlines (callComments followers) = Node.outlines (callComments parts) := by
  have given := (givenParts_follow each).filter (·.isComment) isComment_follows
  have direct := each.filter (·.isComment) isComment_follows
  rw [callComments, callComments, List.map_append, List.map_append, Node.outlines_append,
    Node.outlines_append, given.outlines, direct.outlines]

theorem callMethod_follows (span : Span) :
    (callMethod source (span.shift distance) followers).1 = (callMethod text span parts).1 := by
  unfold callMethod
  rcases each.inRole? .method with ⟨without, without'⟩ | ⟨part, follower, here, there, follows⟩
  · rw [without, without']
  · rw [here, there]
    exact congrArg String.ofList follows.named

theorem callEnd?_follows :
    (callEnd? parts = none ∧ callEnd? followers = none) ∨
      ∃ part follower, callEnd? parts = some part ∧ callEnd? followers = some follower ∧
        Lowered.Follows text source distance part follower := by
  unfold callEnd?
  rcases each.inRole? .arguments with ⟨without, without'⟩ | ⟨part, follower, here, there, follows⟩
  · rw [without, without', Option.none_or, Option.none_or]
    rcases each.inRole? .method with ⟨without, without'⟩ | ⟨part, follower, here, there, follows⟩
    · rw [without, without', Option.none_or, Option.none_or]
      exact each.inRole? .receiver
    · exact Or.inr ⟨part, follower, by rw [here, Option.some_or], by rw [there, Option.some_or],
        follows⟩
  · exact Or.inr ⟨part, follower, by rw [here]; rfl, by rw [there]; rfl, follows⟩

theorem callStop_follows (span : Span) :
    callStop (span.shift distance) followers = callStop span parts + distance := by
  unfold callStop
  rcases callEnd?_follows each with ⟨without, without'⟩ | ⟨part, follower, here, there, follows⟩
  · rw [without, without']
    rfl
  · rw [here, there]
    exact congrArg Span.stop follows.span

/-- A call without its block says the same. -/
theorem callNode_follows (span : Span) :
    (callNode source (span.shift distance) followers).outline =
        (callNode text span parts).outline ∧
      (callNode source (span.shift distance) followers).span =
        (callNode text span parts).span.shift distance := by
  obtain ⟨receivers, present⟩ : Node.outlines
        (((Lowered.inRole? followers .receiver).map (·.node)).toList) =
      Node.outlines (((Lowered.inRole? parts .receiver).map (·.node)).toList) ∧
      ((Lowered.inRole? followers .receiver).map (·.node)).isSome =
        ((Lowered.inRole? parts .receiver).map (·.node)).isSome := by
    rcases each.inRole? .receiver with ⟨without, without'⟩ | ⟨part, follower, here, there, follows⟩
    · rw [without, without']
      exact ⟨rfl, rfl⟩
    · rw [here, there]
      exact ⟨(follows.outlines []).trans (List.append_nil _), rfl⟩
  have name := callMethod_follows each span
  refine ⟨?_, ?_⟩
  · unfold callNode
    simp only [Node.outline, NodeKind.unplaced, Node.outlines_append, receivers, present, name,
      length_callValues_follow each, outlines_callValues each, outlines_callComments each]
  · exact congrArg (Span.mk _) (callStop_follows each span)

/-- The statements of a block say the same. -/
theorem outlines_blockStatements :
    Node.outlines (followers.flatMap fun part =>
        if part.tree.is .blockParameters then []
        else if part.tree.kind.wrapsBody then part.parts.map (·.node)
        else [part.node]) =
      Node.outlines (parts.flatMap fun part =>
        if part.tree.is .blockParameters then []
        else if part.tree.kind.wrapsBody then part.parts.map (·.node)
        else [part.node]) := by
  induction followers generalizing parts with
  | nil =>
    cases each
    rfl
  | cons follower followers ih =>
    cases each with
    | @cons part _ parts _ first more =>
      rw [List.flatMap_cons, List.flatMap_cons, Node.outlines_append, Node.outlines_append,
        ih more, Tree.is, Tree.is, first.kind]
      congr 1
      split
      · rfl
      · split
        · exact first.each.outlines
        · exact (first.outlines []).trans (List.append_nil _)
    | remark isRemark more =>
      rw [List.flatMap_cons, Node.outlines_append, ih more, Tree.is, isRemark.kind]
      exact congrArg (· ++ _) (isRemark.outlines [])

/-- A call says the same. -/
theorem lowerCall_follows (span : Span) :
    (lowerCall source (span.shift distance) followers).outline =
        (lowerCall text span parts).outline ∧
      (lowerCall source (span.shift distance) followers).span =
        (lowerCall text span parts).span.shift distance := by
  obtain ⟨call, place⟩ := callNode_follows each span
  rw [lowerCall_eq, lowerCall_eq]
  rcases each.inRole? .block with ⟨without, without'⟩ | ⟨part, follower, here, there, follows⟩
  · rw [without, without']
    exact ⟨call, place⟩
  · rw [here, there]
    refine ⟨?_, rfl⟩
    have statements : Node.outlines (blockStatements follower) =
        Node.outlines (blockStatements part) := outlines_blockStatements follows.each
    have isCall (source : List Char) (span : Span) (parts : List Lowered) :
        (callNode source span parts).tag ≠ .comment := nofun
    simp only [Node.outline, Node.outlines, if_neg (isCall _ _ _), call, statements]

/-- **One step of lowering** makes a node that says the same. -/
theorem combine_follows (role : Option Role) (kind : Kind) {span : Span} (locals : List String)
    (parent : Kind) (named : textOf source (span.shift distance) = textOf text span) :
    (combine source locals parent role kind (span.shift distance) followers).outline =
        (combine text locals parent role kind span parts).outline ∧
      (combine source locals parent role kind (span.shift distance) followers).span =
        (combine text locals parent role kind span parts).span.shift distance := by
  have children := each.outlines
  have others (name : String) : (Node.mk (.other name) (span.shift distance)
      (followers.map (·.node))).outline =
        (Node.mk (.other name) span (parts.map (·.node))).outline := by
    simp only [Node.outline, children]
  have interpolated := each.any .interpolation nofun
  have value := stringValue_follows each named
  unfold combine
  rw [named, interpolated, value]
  split
  case h_1 => exact ⟨rfl, rfl⟩
  case h_2 => exact lowerCall_follows each span
  case h_3 =>
    simp only
    split <;> exact ⟨rfl, rfl⟩
  case h_4 => exact ⟨rfl, rfl⟩
  case h_5 =>
    rcases each.inRole? .name with ⟨without, without'⟩ | ⟨part, follower, here, there, follows⟩
    · rw [without, without']
      exact ⟨others _, rfl⟩
    · rw [here, there, Option.filter_some, Option.filter_some, Tree.is, Tree.is, follows.kind]
      cases part.tree.kind == .constant with
      | false => exact ⟨others _, rfl⟩
      | true =>
        simp only [if_true, follows.named]
        rcases each.inRole? .scope with ⟨global, global'⟩ | ⟨outer, outer', here, there, scope⟩
        · rw [global, global']
          exact ⟨rfl, trivial⟩
        · rw [here, there]
          refine ⟨?_, trivial⟩
          have inner := (scope.outlines []).trans (List.append_nil _)
          simp only [Option.toList_some, List.map_cons, List.map_nil, Node.outline, inner,
            Option.isNone_some]
  case h_6 =>
    simp only
    split
    · exact ⟨others _, rfl⟩
    · exact ⟨rfl, rfl⟩
  case h_7 => exact ⟨others _, rfl⟩

end Steps

/-! ### Lowering -/

/-- A comment becomes a comment. -/
theorem Tree.IsRemark.lower {source : List Char} {tree : Tree} (remark : tree.IsRemark)
    (locals : List String) (parent : Kind) : (tree.lower source locals parent).IsRemark := by
  cases remark with
  | comment span each => exact ⟨.comment span each, rfl, rfl⟩

section Moved

variable {before text after : List Char} (locals : List String)

mutual

/-- **A tree that follows another one becomes a node that says the same**, further to the right. -/
theorem Tree.Follows.lower (parent : Kind) : ∀ {tree other : Tree},
    tree.Follows (Text.size before) other → tree.Within text →
      Lowered.Follows text (before ++ (text ++ after)) (Text.size before)
        (tree.lower text locals parent) (other.lower (before ++ (text ++ after)) locals parent)
  | .node role kind span parts, _, .node each, .node cuts within => by
    have below := Tree.AllFollow.lower kind each within
    have named : textOf (before ++ (text ++ after)) (span.shift (Text.size before)) =
        textOf text span :=
      textOf_shift cuts
    obtain ⟨same, place⟩ := combine_follows below role kind locals parent named
    exact .mk named same place below

theorem Tree.AllFollow.lower (parent : Kind) : ∀ {trees others : List Tree},
    Tree.AllFollow (Text.size before) trees others → (∀ tree ∈ trees, tree.Within text) →
      Lowered.AllFollow text (before ++ (text ++ after)) (Text.size before)
        (Tree.lowerAll text locals parent trees)
        (Tree.lowerAll (before ++ (text ++ after)) locals parent others)
  | [], [], .nil, _ => .nil
  | tree :: trees, other :: others, .cons first more, within => by
    obtain ⟨here, later⟩ := List.forall_mem_cons.mp within
    exact .cons (Tree.Follows.lower parent first here) (Tree.AllFollow.lower parent more later)
  | _, other :: others, .remark isRemark more, within =>
    .remark (isRemark.lower locals parent) (Tree.AllFollow.lower parent more within)

end

end Moved

end RecipeLint.Ruby
