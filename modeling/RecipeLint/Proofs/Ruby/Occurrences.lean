/-
**Where a method is called in a program.**

The statements of a program that are calls of a method as a whole are set apart from the others, in
which the method is not called. Then the calls of the method in the tree of the program stand where
these statements do, and what is called elsewhere is what the other statements call.

* `Node.rangesOf` — the ranges of the calls of a method.
* `SetsApart` — the calls of a method are statements of their own.
* `rangesOf_layout` — where the calls are.
* `called_leftOver` — what is called if they are removed is what is called outside of them.
* `statements_leftOver` — all other statements stay as they are.
-/

import RecipeLint.Proofs.Ruby.Removal

namespace RecipeLint

/-! ### Where a method is called -/

namespace Node

variable {method : String}

/-- The ranges of the calls of a method in several trees, in the order of a walk. -/
def rangesOf (method : String) (nodes : List Node) : List Span :=
  (preorderAll nodes).filterMap fun node =>
    if node.methodName? = some method then some node.span else none

theorem rangesOf_append (first second : List Node) :
    rangesOf method (first ++ second) = rangesOf method first ++ rangesOf method second := by
  rw [rangesOf, preorderAll_append, List.filterMap_append]
  rfl

theorem rangesOf_cons (node : Node) (nodes : List Node) :
    rangesOf method (node :: nodes) =
      (if node.methodName? = some method then [node.span] else []) ++
        (rangesOf method node.children ++ rangesOf method nodes) := by
  rw [rangesOf, preorderAll, preorder_eq_cons, List.cons_append, List.filterMap_cons,
    List.filterMap_append]
  split
  next none =>
    rw [if_neg fun called => by rw [if_pos called] at none; cases none]
    rfl
  next span some =>
    split at some
    next called =>
      cases some
      rw [if_pos called]
      rfl
    next => cases some

/-- What is not called has no ranges. -/
theorem rangesOf_eq_nil {nodes : List Node}
    (absent : method ∉ (preorderAll nodes).filterMap methodName?) : rangesOf method nodes = [] :=
  List.filterMap_eq_nil_iff.mpr fun node member => if_neg fun called =>
    absent (List.mem_filterMap.mpr ⟨node, member, called⟩)

end Node

namespace Ruby

section Followers

variable {text source : List Char} {distance : Nat} {parts followers : List Lowered}
  {method : String}

/-- Trees that follow others call the same. -/
theorem Lowered.AllFollow.calls (each : AllFollow text source distance parts followers) :
    (Node.preorderAll (followers.map (·.node))).filterMap Node.methodName? =
      (Node.preorderAll (parts.map (·.node))).filterMap Node.methodName? := by
  rw [← Node.filterMap_outlines, each.outlines, Node.filterMap_outlines]

theorem Lowered.AllFollow.rangesOf_eq_nil
    (each : AllFollow text source distance parts followers)
    (absent : method ∉ (Node.preorderAll (parts.map (·.node))).filterMap Node.methodName?) :
    Node.rangesOf method (followers.map (·.node)) = [] :=
  Node.rangesOf_eq_nil (by rwa [each.calls])

theorem Lowered.IsRemark.rangesOf_cons {remark : Lowered} (isRemark : remark.IsRemark)
    (nodes : List Node) :
    Node.rangesOf method (remark.node :: nodes) = Node.rangesOf method nodes := by
  rw [Node.rangesOf_cons, isRemark.children, Node.methodName?_of_comment isRemark.tag]
  rfl

/-- A call without a call of the same method below it is found once. -/
theorem Lowered.AllFollow.rangesOf_single {part : Lowered}
    (each : AllFollow text source distance [part] followers)
    (called : part.node.methodName? = some method)
    (single : method ∉ (Node.preorderAll part.node.children).filterMap Node.methodName?) :
    Node.rangesOf method (followers.map (·.node)) = [part.node.span.shift distance] := by
  induction followers with
  | nil => cases each
  | cons follower followers ih =>
    cases each with
    | cons first more =>
      have same : follower.node.methodName? = part.node.methodName? := by
        rw [← Node.methodName?_outline, first.outline, Node.methodName?_outline]
      have below : (Node.preorderAll follower.node.children).filterMap Node.methodName? =
          (Node.preorderAll part.node.children).filterMap Node.methodName? := by
        have outlines := congrArg Node.children first.outline
        have children (node : Node) : node.outline.children = Node.outlines node.children := by
          cases node
          rfl
        rw [children, children] at outlines
        rw [← Node.filterMap_outlines, outlines, Node.filterMap_outlines]
      rw [List.map_cons, Node.rangesOf_cons, if_pos (same.trans called),
        Node.rangesOf_eq_nil (by rwa [below]), more.rangesOf_eq_nil List.not_mem_nil, first.place]
      rfl
    | remark isRemark more => rw [List.map_cons, isRemark.rangesOf_cons, ih more]

end Followers

/-! ### Statements that are calls -/

/-- Whether a statement is a call of a method, where some names are bound. -/
def Statement.calls (method : String) (names : List String) (given : Statement) : Bool :=
  decide ((given.node names).methodName? = some method)

/-- **A statement is a call of a method as a whole**: the call ends with it, no other call of the
method stands in it, and it binds no name. -/
structure Statement.IsCallOf (method : String) (names : List String) (given : Statement) :
    Prop where
  called : (given.node names).methodName? = some method
  whole : (given.node names).span = ⟨0, Text.size given.text⟩
  single : method ∉ (Node.preorderAll (given.node names).children).filterMap Node.methodName?
  free : given.locals = []

/-- Each statement of a program is a call of a method as a whole, or the method is not called in
it. -/
def SetsApart (method : String) (names : List String) (items : List Item) : Prop :=
  ∀ given, Item.statement given ∈ items →
    given.IsCallOf method names ∨ method ∉ (given.node names).calledNames

section Program

variable {method : String} {names : List String}

theorem Statement.calls_of_not_mem {given : Statement}
    (absent : method ∉ (given.node names).calledNames) : given.calls method names = false := by
  refine decide_eq_false fun called => absent ?_
  rw [Node.calledNames_eq, Node.preorder_eq_cons, List.filterMap_cons, called]
  exact List.mem_cons_self

/-- The calls of a method in what the trees of a part became. -/
theorem rangesOf_item {item : Item} {place : Place} {source : List Char} {distance : Nat}
    {followers : List Lowered} (apart : SetsApart method names [item])
    (each : Lowered.AllFollow item.text source distance
      (Tree.lowerAll item.text names .program (place.trees item)) followers) :
    Node.rangesOf method (followers.map (·.node)) =
      match item.treatment (·.calls method names) with
      | .goes => [⟨distance, distance + Text.size item.text⟩]
      | _ => [] := by
  cases item with
  | statement given =>
    have trees : place.trees (.statement given) = [given.tree] := by cases place <;> rfl
    rw [trees] at each
    rcases apart given List.mem_cons_self with isCall | absent
    · have ranges := each.rangesOf_single isCall.called isCall.single
      have treated : Item.treatment (·.calls method names) (.statement given) = .goes :=
        if_pos (decide_eq_true isCall.called)
      have whole : (given.tree.lower given.text names .program).node.span =
        ⟨0, Text.size given.text⟩ := isCall.whole
      rw [ranges, treated]
      show [Span.shift distance (given.tree.lower given.text names .program).node.span] = _
      rw [whole, Span.shift, Nat.zero_add, Nat.add_comm]
      rfl
    · have treated : Item.treatment (·.calls method names) (.statement given) = .stays :=
        if_neg (Bool.eq_false_iff.mp (Statement.calls_of_not_mem absent))
      have none : method ∉ (Node.preorderAll
          ((Tree.lowerAll given.text names .program [given.tree]).map (·.node))).filterMap
            Node.methodName? := by
        rw [Node.calledNames_eq] at absent
        show method ∉ ((given.node names).preorder ++ []).filterMap Node.methodName?
        rwa [List.append_nil]
      rw [each.rangesOf_eq_nil none, treated]
  | semicolon => cases place <;> exact each.rangesOf_eq_nil List.not_mem_nil
  | blank | lineBreak | comment => cases place <;> exact each.rangesOf_eq_nil List.not_mem_nil

/-- **The calls of a method in the tree of a program are its statements that are calls.** -/
theorem rangesOf_layout {items : List Item} (apart : SetsApart method names items)
    (front : List Char) (place : Place) {others : List Tree}
    (follow : Tree.AllFollow 0 (treesOf (Text.size (front ++ layoutText items)) place items)
      others) :
    Node.rangesOf method
        ((Tree.lowerAll (front ++ layoutText items) names .program others).map (·.node)) =
      statementSpans (·.calls method names) (Text.size front) items := by
  induction items generalizing front place others with
  | nil =>
    have moved : Tree.AllFollow (Text.size front) [] others :=
      @Tree.AllFollow.of_shift _ 0 [] others follow
    have each : Lowered.AllFollow [] (front ++ ([] ++ [])) (Text.size front) []
        (Tree.lowerAll (front ++ ([] ++ [])) names .program others) :=
      moved.lower names .program (List.forall_mem_nil _)
    exact each.rangesOf_eq_nil List.not_mem_nil
  | cons item items ih =>
    obtain ⟨here, later, rfl, first, more⟩ := follow.of_treesOf_cons
    have found := ih (fun given member => apart given (List.mem_cons_of_mem _ member)) _ _ more
    have own : SetsApart method names [item] := fun given member =>
      apart given (List.mem_singleton.mp member ▸ List.mem_cons_self)
    have each : Lowered.AllFollow item.text (front ++ (item.text ++ layoutText items))
        (Text.size front) (Tree.lowerAll item.text names .program (place.trees item))
        (Tree.lowerAll (front ++ (item.text ++ layoutText items)) names .program here) :=
      first.lower names .program (place.within_trees item)
    have lowered := rangesOf_item own each
    rw [List.append_assoc, ← layoutText_cons, Text.size_append] at found
    rw [← layoutText_cons] at lowered
    rw [lowerAll_append, List.map_append, Node.rangesOf_append, lowered, found, statementSpans]
    cases item.treatment (·.calls method names) <;> rfl

end Program

/-! ### What is read of a program -/

/-- What is read of the node of a part of a program. -/
def Item.told {α : Type} (read : List Node → List α) (names : List String) : Item → List α
  | .statement given => read [given.node names]
  | _ => []

/-- What is read of the nodes of a program one after the other is what is read of its statements, if
an empty statement says nothing. -/
theorem read_nodesOf {α : Type} {read : List Node → List α}
    (append : ∀ first second, read (first ++ second) = read first ++ read second)
    (empty : ∀ span, read [.leaf (.other Kind.emptyStatement.name) span] = [])
    (names : List String) (place : Place) (items : List Item) :
    read (nodesOf names place items) = items.flatMap (Item.told read names) := by
  have nothing : read [] = [] := List.self_eq_append_left.mp (append [] [])
  induction items generalizing place with
  | nil => exact nothing
  | cons item items ih =>
    rw [nodesOf, append, ih, List.flatMap_cons]
    congr 1
    cases item with
    | statement given => cases place <;> rfl
    | semicolon => cases place <;> first | exact nothing | exact empty _
    | blank | lineBreak | comment => cases place <;> exact nothing

/-- What the statements of a program say, without empty ones. -/
def statementsOf (nodes : List Node) : List Node :=
  (Node.outlines nodes).filter fun node => decide (node.kind ≠ .other Kind.emptyStatement.name)

theorem statementsOf_append (first second : List Node) :
    statementsOf (first ++ second) = statementsOf first ++ statementsOf second := by
  rw [statementsOf, Node.outlines_append, List.filter_append]
  rfl

section LeftOver

variable {method : String} {names : List String} {items : List Item}

/-- A part that is removed is a statement that is a call. -/
theorem SetsApart.of_goes (apart : SetsApart method names items) {item : Item}
    (member : item ∈ items) (goes : item.treatment (·.calls method names) = .goes) :
    ∃ given, item = .statement given ∧ given.IsCallOf method names := by
  cases item with
  | statement given =>
    refine ⟨given, rfl, (apart given member).resolve_right fun absent => ?_⟩
    rw [Item.treatment, if_neg (Bool.eq_false_iff.mp (Statement.calls_of_not_mem absent))] at goes
    cases goes
  | blank | lineBreak | semicolon | comment => cases goes

/-- In a statement that is not removed, the method is not called. -/
theorem SetsApart.of_not_goes (apart : SetsApart method names items) {given : Statement}
    (member : .statement given ∈ items)
    (kept : Item.treatment (·.calls method names) (.statement given) ≠ .goes) :
    method ∉ (given.node names).calledNames :=
  (apart given member).resolve_left fun isCall => kept (if_pos (decide_eq_true isCall.called))

/-- The names that are bound stay the same if calls are removed. -/
theorem localsOf_leftOver (apart : SetsApart method names items) :
    localsOf (leftOver (·.calls method names) [] items) = localsOf items := by
  have silent (item : Item) (waits : item.treatment (·.calls method names) = .waits) :
      item.locals = [] := by
    cases item with
    | statement given => exact absurd waits (Item.statement_moves given)
    | blank | lineBreak | semicolon | comment => rfl
  rw [localsOf, flatMap_leftOver silent [] rfl]
  refine List.flatMap_congr fun item member => ?_
  cases treated : item.treatment (·.calls method names) with
  | goes =>
    obtain ⟨given, rfl, isCall⟩ := apart.of_goes member treated
    exact isCall.free.symm
  | waits | stays => rfl

/-- What is read of what is left is what is read of the program without the calls. -/
theorem read_leftOver {α : Type} (read other : List Node → List α)
    (append : ∀ first second, read (first ++ second) = read first ++ read second)
    (empty : ∀ span, read [.leaf (.other Kind.emptyStatement.name) span] = [])
    (otherAppend : ∀ first second, other (first ++ second) = other first ++ other second)
    (otherEmpty : ∀ span, other [.leaf (.other Kind.emptyStatement.name) span] = [])
    (apart : SetsApart method names items)
    (gone : ∀ node : Node, node.methodName? = some method → other [node] = [])
    (kept : ∀ node : Node, method ∉ node.calledNames → read [node] = other [node])
    (place place' : Place) :
    read (nodesOf names place (leftOver (·.calls method names) [] items)) =
      other (nodesOf names place' items) := by
  have silent (item : Item) (waits : item.treatment (·.calls method names) = .waits) :
      item.told read names = [] := by
    cases item with
    | statement given => exact absurd waits (Item.statement_moves given)
    | blank | lineBreak | semicolon | comment => rfl
  rw [read_nodesOf append empty, read_nodesOf otherAppend otherEmpty,
    flatMap_leftOver silent [] rfl]
  refine List.flatMap_congr fun item member => ?_
  cases treated : item.treatment (·.calls method names) with
  | goes =>
    obtain ⟨given, rfl, isCall⟩ := apart.of_goes member treated
    exact (gone _ isCall.called).symm
  | waits | stays =>
    cases item with
    | statement given => exact kept _ (apart.of_not_goes member (by rw [treated]; nofun))
    | blank | lineBreak | semicolon | comment => rfl

/-- **What is called in what is left is what is called outside of the calls that are removed.** -/
theorem called_leftOver (apart : SetsApart method names items) (place place' : Place) :
    (Node.preorderAll (nodesOf names place (leftOver (·.calls method names) [] items))).filterMap
        Node.methodName? =
      Node.calledOutsideAll method (nodesOf names place' items) := by
  refine read_leftOver (fun nodes => (Node.preorderAll nodes).filterMap Node.methodName?)
    (Node.calledOutsideAll method) ?_ (fun _ => rfl)
    (Node.calledOutsideAll_append method) (fun _ => rfl) apart ?_ ?_ place place'
  · intro first second
    simp only [Node.preorderAll_append, List.filterMap_append]
  · intro node called
    rw [Node.calledOutsideAll, Node.calledOutside_eq, if_pos called]
    rfl
  · intro node absent
    refine (Node.calledOutsideAll_of_not_mem method [node] ?_).symm
    rwa [Node.preorderAll, Node.preorderAll, List.append_nil, ← Node.calledNames_eq]

/-- **All other statements stay as they are.** -/
theorem statements_leftOver (apart : SetsApart method names items) (place place' : Place) :
    statementsOf (nodesOf names place (leftOver (·.calls method names) [] items)) =
      (statementsOf (nodesOf names place' items)).filter fun node =>
        decide (node.methodName? ≠ some method) := by
  refine read_leftOver statementsOf
    (fun nodes => (statementsOf nodes).filter fun node =>
      decide (node.methodName? ≠ some method)) statementsOf_append (fun _ => rfl) ?_
    (fun _ => rfl) apart ?_ ?_ place place'
  · intro first second
    simp only [statementsOf_append, List.filter_append]
  · intro node called
    have plain : node.tag ≠ .comment := fun comment => by
      rw [Node.methodName?_of_comment comment] at called
      cases called
    have same : Node.outlines [node] = [node.outline] := by
      rw [Node.outlines, if_neg plain]
      rfl
    refine List.filter_eq_nil_iff.mpr fun statement member => ?_
    have said := (List.mem_filter.mp member).1
    rw [same] at said
    obtain rfl := List.mem_singleton.mp said
    simp [called]
  · intro node absent
    refine (List.filter_eq_self.mpr fun statement member => ?_).symm
    rw [decide_eq_true_eq]
    refine fun called => absent ?_
    have among : statement ∈ Node.preorderAll (Node.outlines [node]) :=
      Node.mem_preorderAll.mpr ⟨statement, (List.mem_filter.mp member).1, by
        rw [Node.preorder_eq_cons]
        exact List.mem_cons_self⟩
    have named := List.mem_filterMap.mpr ⟨statement, among, called⟩
    rwa [Node.filterMap_outlines, Node.preorderAll, Node.preorderAll, List.append_nil,
      ← Node.calledNames_eq] at named

end LeftOver

end Ruby

end RecipeLint
