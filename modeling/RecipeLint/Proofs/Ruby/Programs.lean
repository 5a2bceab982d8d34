/-
**Programs that are laid out are read.**

The reader finds the statements of a program one after the other, and puts the comments into the
tree when it has read them all. So the tree of the program says what its statements say, each alone.

* `Reader.statementsUpTo_ok` — the reader finds the statements.
* `readProgram_layout` — it reads the whole program.
* `parse_layout` — the tree of a program says what its parts say.
-/

import RecipeLint.Proofs.Ruby.Layout
import RecipeLint.Proofs.Ruby.Outlines
import RecipeLint.Ruby.Parse

namespace RecipeLint.Ruby

/-! ### Reading statements -/

theorem Cursor.Passes.measured {cursor after : Cursor} {text : List Char}
    (passes : cursor.Passes text after) :
    after.offset + Text.size after.rest = cursor.offset + Text.size cursor.rest := by
  rw [passes.rest, passes.offset, Text.size_append, Nat.add_assoc]

/-- A name starts with the first character of the text. -/
theorem head?_of_nameOf {text : List Char} {c : Char} (first : (nameOf text).head? = some c) :
    text.head? = some c := by
  cases text with
  | nil => cases first
  | cons d rest =>
    cases starts : isWordStart d with
    | false =>
      have noName : nameOf (d :: rest) = [] := by
        rw [nameOf, wordOf, starts]
        rfl
      rw [noName] at first
      cases first
    | true =>
      have part : isWordPart d = true := (Bool.and_eq_true_iff.mp starts).1
      have word : wordOf (d :: rest) = d :: rest.takeWhile isWordPart := by
        rw [wordOf, starts, if_pos rfl, List.takeWhile_cons_of_pos part]
      unfold nameOf at first
      rw [word] at first
      simp only at first
      split at first
      · exact first
      · split at first <;> exact first

theorem nameOf_of_fresh {text : List Char} (fresh : ∀ c ∈ text.head?, standsFresh c = true) :
    nameOf text ≠ dataWord.toList := fun same =>
  head?_ne_of_fresh fresh (show standsFresh '_' = false from rfl)
    (head?_of_nameOf (by rw [same]; rfl))

theorem endsStatements_of_fresh {c : Char} {rest : List Char} (fresh : standsFresh c = true) :
    Reader.endsStatements [dataWord] (c :: rest) = false := by
  have noName : (String.ofList (nameOf (c :: rest)) == dataWord) = false := by
    refine beq_false_of_ne fun same => ?_
    have starts : ∀ d ∈ (c :: rest).head?, standsFresh d = true := by
      rintro d ⟨⟩
      exact fresh
    exact nameOf_of_fresh starts (by rw [← same, String.toList_ofList])
  have noCloser : isCloser c = false := by
    unfold standsFresh at fresh
    simp only [Bool.and_eq_true, Bool.not_eq_true'] at fresh
    exact fresh.1.2
  unfold Reader.endsStatements
  simp only [List.contains_cons, noCloser, noName]
  rfl

theorem eq_nil_of_begins {items : List Item} (begins : Begins items)
    (empty : layoutText items = []) : items = [] := by
  cases begins with
  | ended => rfl
  | semicolon => cases empty
  | statement given =>
    obtain ⟨first, others, same, -⟩ := given.text_eq_cons
    rw [layoutText_cons, Item.text, same] at empty
    cases empty

namespace Reader

/-- **A statement of a program ends** where the next one may start. -/
theorem terminator_ok (setting : Setting) {cursor : Cursor} {items : List Item} (total : Nat)
    (laid : IsLaidOut .behind items) (here : cursor.rest = layoutText items)
    (free : cursor.heredocs = []) (enough : (layoutText items).length < setting.bound) :
    ∃ found after more, terminator setting cursor = .ok (found, after) ∧
      (∃ passed, cursor.Passes passed after) ∧ Lines (layoutText more) after.rest ∧
        IsLaidOut .fresh more ∧ Begins more ∧ (found = none → more = []) ∧
          treesOf total .behind items = treesOf total .fresh more := by
  obtain ⟨sign, blanks, ends⟩ := behind_ends total laid
  rcases ends with ⟨later, rfl, laid', same⟩ | ⟨rfl, same⟩ | ⟨later, rfl, laid', same⟩
  · obtain ⟨start, after, read, ⟨passed, takes⟩, left⟩ :=
      terminator_of_semicolon setting blanks here free enough
    obtain ⟨more, lines, begins, laidOut, same'⟩ := fresh_begins total laid'
    exact ⟨some start, after, more, read, ⟨passed, takes.toPasses⟩, left ▸ lines, laidOut, begins,
      nofun, same.trans same'⟩
  · obtain ⟨found, after, read, passes, lines, -⟩ :=
      terminator_of_line setting blanks (Or.inl rfl) (lines_of_fresh nofun) rfl here free enough
    exact ⟨found, after, [], read, passes, lines, trivial, .ended, fun _ => rfl, same⟩
  · obtain ⟨more, lines, begins, laidOut, same'⟩ := fresh_begins total laid'
    obtain ⟨found, after, read, passes, below, ended⟩ :=
      terminator_of_line setting blanks (Or.inr rfl)
        (.line (.here (Halts.line _ : Halts false _).stands) lines)
        (continuesLine_of_fresh begins.head) here free enough
    exact ⟨found, after, more, read, passes, below, laidOut, begins,
      fun none => eq_nil_of_begins begins (ended none), same.trans same'⟩

section Steps

variable {setting : Setting} {closers : List String} {count : Nat} {cursor stop next after : Cursor}
  {first : Tree} {trees : List Tree}
  (skipped : skipLines setting cursor = .ok ((), stop))
  (goesOn : endsStatements closers stop.rest = false)

include skipped goesOn

theorem statementsUpTo_of_semicolon (head : stop.rest.head? = some ';')
    (later : statementsUpTo setting.context.laterClosers count setting (stop.eat 1) =
      .ok (trees, after)) :
    statementsUpTo closers (count + 1) setting cursor =
      .ok (.leaf .emptyStatement ⟨stop.offset, (stop.eat 1).last⟩ :: trees, after) := by
  simp only [statementsUpTo, bind_apply, skipped, get_apply, goesOn, ite_apply, context_apply, head,
    leaf_apply, later, pure_apply, Bool.false_eq_true, if_false, if_true]

variable (head : stop.rest.head? ≠ some ';')
  (read : setting.descent .statement setting.context stop = .ok (first, next))

include head read

/-- The last statement of a list has no terminator. -/
theorem statementsUpTo_of_last (last : terminator setting next = .ok (none, after)) :
    statementsUpTo closers (count + 1) setting cursor = .ok ([first], after) := by
  have reached : ending (Ending.reach stop.offset) (descend .statement) setting stop =
    .ok (first, next) := ending_of_ok read
  simp only [statementsUpTo, bind_apply, skipped, get_apply, goesOn, ite_apply, context_apply, head,
    position_apply, reached, last, pure_apply, Option.isNone_none, Bool.false_eq_true, if_false,
    if_true]

theorem statementsUpTo_of_statement {start : Nat} {behind : Cursor}
    (ended : terminator setting next = .ok (some start, behind))
    (later : statementsUpTo setting.context.laterClosers count setting behind =
      .ok (trees, after)) :
    statementsUpTo closers (count + 1) setting cursor = .ok (first :: trees, after) := by
  have reached : ending (Ending.reach stop.offset) (descend .statement) setting stop =
    .ok (first, next) := ending_of_ok read
  simp only [statementsUpTo, bind_apply, skipped, get_apply, goesOn, ite_apply, context_apply, head,
    position_apply, reached, ended, later, pure_apply, Option.isNone_some, Bool.false_eq_true,
    if_false]

end Steps

/-- **The reader finds the statements of a program.** -/
theorem statementsUpTo_ok (bound depth count : Nat) {total : Nat} {items : List Item}
    {cursor : Cursor}
    (laid : IsLaidOut .fresh items) (begins : Begins items)
    (ahead : Lines (layoutText items) cursor.rest) (free : cursor.heredocs = [])
    (measured : cursor.offset + Text.size cursor.rest = total)
    (enough : cursor.rest.length < bound) (often : cursor.rest.length < count)
    (deep : nestingPerCharacter * cursor.rest.length ≤ depth) :
    ∃ after, statementsUpTo [dataWord] count (settingAt programContext bound depth) cursor =
        .ok (treesOf total .fresh items, after) ∧
      (∃ passed, cursor.Passes passed after) ∧ Lines [] after.rest := by
  induction count generalizing items cursor with
  | zero => omega
  | succ count ih =>
    obtain ⟨stop, skipped, there, passed, skips⟩ :=
      skipLines_ok (settingAt programContext bound depth) ahead rfl free enough
    have position := skips.toPasses.measured.trans measured
    have shorter := skips.toPasses.length_le
    -- what is read behind the first statement
    have onward {next : Cursor} {text : List Char} {more : List Item}
        (passes : stop.Passes text next) (some : text ≠ []) (laid : IsLaidOut .fresh more)
        (begins : Begins more) (lines : Lines (layoutText more) next.rest) :
        ∃ after, statementsUpTo [dataWord] count (settingAt programContext bound depth) next =
            .ok (treesOf total .fresh more, after) ∧
          (∃ passed, cursor.Passes passed after) ∧ Lines [] after.rest := by
      have length := congrArg List.length passes.rest
      have positive := List.length_pos_iff.mpr some
      rw [List.length_append] at length
      obtain ⟨after, read, ⟨gone, later⟩, ended⟩ := ih laid begins lines passes.stillFree
        (passes.measured.trans position) (by omega) (by omega)
        (Nat.le_trans (Nat.mul_le_mul_left _ (by omega)) deep)
      exact ⟨after, read, ⟨_, skips.toPasses.trans (passes.trans later)⟩, ended⟩
    rw [there] at position shorter
    cases begins with
    | ended =>
      refine ⟨stop, ?_, ⟨passed, skips.toPasses⟩, there ▸ Lines.nil⟩
      simp only [statementsUpTo, bind_apply, skipped, get_apply, there]
      rfl
    | semicolon later =>
      have sign : stop.rest = [';'] ++ layoutText later := there
      obtain ⟨takes, left⟩ := Cursor.eat_takes sign skips.stillFree
      obtain ⟨more, lines, begins, laid', same⟩ := fresh_begins total laid.2
      obtain ⟨after, read, passes, ended⟩ :=
        onward takes.toPasses (List.cons_ne_nil _ _) laid' begins (left ▸ lines)
      refine ⟨after, ?_, passes, ended⟩
      have goesOn : endsStatements [dataWord] stop.rest = false := by
        rw [sign]
        exact endsStatements_of_fresh rfl
      have place : total - Text.size (layoutText (.semicolon :: later)) = stop.offset := by omega
      have tree : (Tree.leaf .emptyStatement ⟨0, 1⟩).shift stop.offset =
          .leaf .emptyStatement ⟨stop.offset, (stop.eat 1).last⟩ :=
        congrArg (Tree.leaf .emptyStatement) takes.span_shift
      rw [treesOf_semicolon, place, same, tree]
      exact statementsUpTo_of_semicolon skipped goesOn (by rw [sign]; rfl) read
    | statement given later =>
      obtain ⟨first, others, same, starts⟩ := given.text_eq_cons
      have text : stop.rest = given.text ++ layoutText later := there.trans (layoutText_cons _ _)
      have goesOn : endsStatements [dataWord] stop.rest = false := by
        rw [text, same]
        exact endsStatements_of_fresh (Bool.and_eq_true_iff.mp starts).1
      have head : stop.rest.head? ≠ some ';' := by
        rw [text, same]
        rintro ⟨⟩
        cases starts
      have place : total - Text.size (layoutText (.statement given :: later)) = stop.offset := by
        omega
      rw [layoutText_cons, Item.text, List.length_append] at shorter
      obtain ⟨middle, read, takes⟩ := given.reads bound depth text skips.stillFree
        (quiet_of_behind laid.2) (by rw [text, List.length_append]; omega)
        (Nat.le_trans (Nat.mul_le_mul_left _ (by omega)) deep)
      obtain ⟨found, next, more, ended, ⟨gone, passes⟩, lines, laidOut, begins, last, trees⟩ :=
        terminator_ok (settingAt programContext bound depth) total laid.2 (takes.rest_eq text)
          takes.stillFree (show (layoutText later).length < bound by omega)
      have whole := takes.toPasses.trans passes
      rw [treesOf_statement, place, trees]
      cases found with
      | none =>
        obtain rfl := last rfl
        exact ⟨next, statementsUpTo_of_last skipped goesOn head read ended,
          ⟨_, skips.toPasses.trans whole⟩, lines⟩
      | some start =>
        obtain ⟨after, read', passes', ended'⟩ :=
          onward whole (by rw [same]; exact List.cons_ne_nil _ _) laidOut begins lines
        exact ⟨after, statementsUpTo_of_statement skipped goesOn head read ended read', passes',
          ended'⟩

end Reader

/-! ### Reading programs -/

theorem head?_layoutText {items : List Item} (laid : IsLaidOut .fresh items) :
    (layoutText items).head? ≠ some byteOrderMark := by
  cases items with
  | nil => nofun
  | cons item items =>
    cases item with
    | blank c gap _ =>
      intro first
      obtain rfl : c = byteOrderMark := Option.some.inj first
      exact absurd gap (by decide)
    | statement given => exact head?_ne_of_fresh (Begins.statement given items).head rfl
    | lineBreak | semicolon | comment =>
      exact fun first => absurd (Option.some.inj first) (by decide)

/-- The reader finds the statements of a program that starts at the cursor. -/
theorem descent_statements_ok (bound depth : Nat) {items : List Item} {cursor : Cursor}
    (laid : IsLaidOut .fresh items) (here : cursor.rest = layoutText items)
    (free : cursor.heredocs = []) (enough : cursor.rest.length < bound)
    (deep : nestingPerCharacter * cursor.rest.length ≤ depth) :
    ∃ after, Reader.descent bound none (depth + 1) .statements programContext cursor =
        .ok (treesOf (cursor.offset + Text.size (layoutText items)) .fresh items, after) ∧
      (∃ passed, cursor.Passes passed after) ∧ after.rest = [] := by
  obtain ⟨more, lines, begins, laidOut, same⟩ :=
    fresh_begins (cursor.offset + Text.size (layoutText items)) laid
  obtain ⟨middle, read, ⟨passed, passes⟩, below⟩ :=
    Reader.statementsUpTo_ok bound depth bound laidOut begins (here ▸ lines) free
      (congrArg (cursor.offset + Text.size ·) here) enough enough deep
  obtain ⟨stop, skipped, there, gone, skips⟩ :=
    Reader.skipLines_ok (Reader.settingAt programContext bound depth) below rfl passes.stillFree
      (Nat.lt_of_le_of_lt passes.length_le enough)
  obtain ⟨whole, left⟩ := (passes.trans skips.toPasses).complete cursor.offset
  refine ⟨stop.complete cursor.offset, ?_, ⟨_, whole⟩, left.trans there⟩
  refine Reader.descent_of_rule .statements ?_
  show Reader.statements (Reader.settingAt programContext bound depth) cursor = _
  have first : Reader.statementsUpTo (Reader.settingAt programContext bound depth).context.closers
      (Reader.settingAt programContext bound depth).bound
      (Reader.settingAt programContext bound depth) cursor = _ :=
    read
  unfold Reader.statements
  simp only [Reader.bind_apply, Reader.context_apply, Reader.bound_apply, first, skipped,
    Reader.pure_apply, same]

theorem Tree.Follows.insertAll {distance : Nat} {tree other : Tree} {extras : List Tree}
    (follows : tree.Follows distance other) (remarks : ∀ extra ∈ extras, extra.IsRemark) :
    tree.Follows distance (extras.foldl (fun tree extra => Tree.insert extra tree) other) := by
  induction extras generalizing other with
  | nil => exact follows
  | cons extra extras ih =>
    obtain ⟨first, more⟩ := List.forall_mem_cons.mp remarks
    exact ih (follows.insert first) more

theorem Tree.IsComment.isRemark {tree : Tree} (comment : tree.IsComment) : tree.IsRemark := by
  obtain ⟨span, rfl⟩ := comment
  exact .comment span (List.forall_mem_nil _)

/-- **A program that is laid out is read**, with its comments put into the trees of its parts. -/
theorem readProgram_layout {items : List Item} (laid : IsLaidOut .fresh items) :
    ∃ others, readProgram (layoutText items) =
        .ok (.of .program ⟨0, Text.size (layoutText items)⟩ others) ∧
      Tree.AllFollow 0 (treesOf (Text.size (layoutText items)) .fresh items) others := by
  have noMark := head?_layoutText laid
  generalize same : layoutText items = text at noMark ⊢
  obtain ⟨depth, deep⟩ : ∃ depth, nestingPerCharacter * (text.length + 2) = depth + 1 :=
    ⟨nestingPerCharacter * text.length + 15, rfl⟩
  have enough : nestingPerCharacter * text.length ≤ depth := by
    rw [Nat.mul_add] at deep
    simp only [nestingPerCharacter] at deep ⊢
    omega
  obtain ⟨after, read, ⟨passed, passes⟩, ended⟩ :=
    descent_statements_ok (text.length + 2) depth laid
      (show (Cursor.start text).rest = layoutText items from same.symm) rfl
      (Nat.lt_add_of_pos_right (by decide)) enough
  obtain ⟨comments, extras, areComments⟩ := passes.extras
  have done : program ⟨Reader.descent (text.length + 2) none (depth + 1), text.length + 2, {}, none⟩
      (Cursor.start text) = .ok (treesOf (Text.size text) .fresh items, after) := by
    have start : (Cursor.start text).rest.head? ≠ some byteOrderMark := noMark
    rw [same] at read
    have position : (Cursor.start text).offset + Text.size text = Text.size text := Nat.zero_add _
    rw [position] at read
    have statements : Reader.descent (text.length + 2) none (depth + 1) .statements
        { words := [dataWord], closers := [dataWord], laterClosers := [dataWord], unnamed := true }
        (Cursor.start text) = _ := read
    unfold program
    simp only [Reader.bind_apply, Reader.peek_apply, Reader.ite_apply, start, Reader.pure_apply,
      if_false, Reader.within_apply, Reader.descend_apply, statements, Reader.get_apply, ended,
      List.isEmpty_nil, if_true]
  have remarks : ∀ extra ∈ after.extras.mergeSort fun first second =>
      first.span.start ≤ second.span.start, extra.IsRemark := by
    intro extra member
    rw [List.mem_mergeSort, extras] at member
    refine (areComments extra ?_).isRemark
    exact (List.mem_append.mp member).resolve_right List.not_mem_nil
  have whole := Tree.Follows.insertAll (Tree.follows_refl
    (.of .program ⟨0, Text.size text⟩ (treesOf (Text.size text) .fresh items))) remarks
  have found : readProgram text = .ok ((after.extras.mergeSort fun first second =>
      first.span.start ≤ second.span.start).foldl (fun tree extra => Tree.insert extra tree)
        (.of .program ⟨0, Text.size text⟩ (treesOf (Text.size text) .fresh items))) := by
    unfold readProgram readProgramWith
    simp only [deep, done]
    rfl
  rw [found]
  generalize List.foldl _ _ _ = tree at whole
  cases whole with
  | node each => exact ⟨_, rfl, each⟩

/-! ### The tree of a program -/

/-- The names that a part of a program binds. -/
def Item.locals : Item → List String
  | .statement given => given.locals
  | _ => []

/-- The names that are bound in a program. -/
def localsOf (items : List Item) : List String :=
  items.flatMap Item.locals

/-- The nodes of the parts of a program, each alone, where some names are bound. -/
def nodesOf (names : List String) : Place → List Item → List Node
  | _, [] => []
  | place, item :: items =>
    (Tree.lowerAll item.text names .program (place.trees item)).map (·.node) ++
      nodesOf names (place.after item) items

theorem localsAll_append (source : List Char) (parent : Kind) (first second : List Tree) :
    Tree.localsAll source parent (first ++ second) =
      Tree.localsAll source parent first ++ Tree.localsAll source parent second := by
  induction first with
  | nil => rfl
  | cons tree trees ih => rw [List.cons_append, Tree.localsAll, Tree.localsAll, ih,
      List.append_assoc]

theorem lowerAll_append (source : List Char) (names : List String) (parent : Kind)
    (first second : List Tree) :
    Tree.lowerAll source names parent (first ++ second) =
      Tree.lowerAll source names parent first ++ Tree.lowerAll source names parent second := by
  induction first with
  | nil => rfl
  | cons tree trees ih => rw [List.cons_append, Tree.lowerAll, Tree.lowerAll, ih,
      List.cons_append]

theorem Tree.AllFollow.of_append {distance : Nat} {first second others : List Tree}
    (follow : AllFollow distance (first ++ second) others) :
    ∃ front back, others = front ++ back ∧ AllFollow distance first front ∧
      AllFollow distance second back := by
  induction others generalizing first with
  | nil =>
    cases first with
    | nil => exact ⟨[], [], rfl, .nil, follow⟩
    | cons => cases follow
  | cons other others ih =>
    cases first with
    | nil => exact ⟨[], other :: others, rfl, .nil, follow⟩
    | cons tree trees =>
      cases follow with
      | cons here more =>
        obtain ⟨front, back, rfl, some, rest⟩ := ih more
        exact ⟨other :: front, back, rfl, .cons here some, rest⟩
      | remark isRemark more =>
        obtain ⟨front, back, rfl, some, rest⟩ :=
          ih (show AllFollow distance ((tree :: trees) ++ second) others from more)
        exact ⟨other :: front, back, rfl, .remark isRemark some, rest⟩

namespace Place

theorem within_trees (place : Place) (item : Item) :
    ∀ tree ∈ place.trees item, tree.Within item.text := by
  cases item with
  | statement given =>
    have trees : place.trees (.statement given) = [given.tree] := by cases place <;> rfl
    rw [trees]
    exact List.forall_mem_singleton.mpr given.within
  | semicolon =>
    cases place with
    | fresh =>
      exact List.forall_mem_singleton.mpr
        (.node ⟨[], [';'], [], rfl, rfl, rfl⟩ (List.forall_mem_nil _))
    | behind | hidden => exact List.forall_mem_nil _
  | blank | lineBreak | comment => cases place <;> exact List.forall_mem_nil _

theorem localsAll_trees (place : Place) (item : Item) :
    Tree.localsAll item.text .program (place.trees item) = item.locals := by
  cases item with
  | statement given =>
    have trees : place.trees (.statement given) = [given.tree] := by cases place <;> rfl
    rw [trees]
    exact List.append_nil _
  | semicolon | blank | lineBreak | comment => cases place <;> rfl

end Place

/-- What follows the trees of a program is what follows those of its first part, moved to where the
part stands, and what follows the others. -/
theorem Tree.AllFollow.of_treesOf_cons {item : Item} {items : List Item} {front : List Char}
    {place : Place} {others : List Tree}
    (follow : AllFollow 0
      (treesOf (Text.size (front ++ layoutText (item :: items))) place (item :: items)) others) :
    ∃ here later, others = here ++ later ∧
      AllFollow (Text.size front) (place.trees item) here ∧
      AllFollow 0 (treesOf (Text.size ((front ++ item.text) ++ layoutText items))
        (place.after item) items) later := by
  have whole : front ++ layoutText (item :: items) = (front ++ item.text) ++ layoutText items := by
    rw [layoutText_cons, List.append_assoc]
  have position : Text.size (front ++ layoutText (item :: items)) -
      Text.size (layoutText (item :: items)) = Text.size front := by
    rw [Text.size_append, Nat.add_sub_cancel]
  rw [treesOf, position, whole] at follow
  obtain ⟨here, later, same, first, more⟩ := follow.of_append
  exact ⟨here, later, same, .of_shift first, more⟩

/-- What the trees of a program become, and what they bind, is what each becomes alone. -/
theorem layout_follows (names : List String) (front : List Char) (place : Place)
    {items : List Item} {others : List Tree}
    (follow : Tree.AllFollow 0 (treesOf (Text.size (front ++ layoutText items)) place items)
      others) :
    Tree.localsAll (front ++ layoutText items) .program others = localsOf items ∧
      Node.outlines
          ((Tree.lowerAll (front ++ layoutText items) names .program others).map (·.node)) =
        Node.outlines (nodesOf names place items) := by
  induction items generalizing front place others with
  | nil =>
    have moved : Tree.AllFollow (Text.size front) [] others :=
      @Tree.AllFollow.of_shift _ 0 [] others follow
    have each : Lowered.AllFollow [] (front ++ ([] ++ [])) (Text.size front)
        (Tree.lowerAll [] names .program [])
        (Tree.lowerAll (front ++ ([] ++ [])) names .program others) :=
      moved.lower names .program (List.forall_mem_nil _)
    have named : Tree.localsAll (front ++ ([] ++ [])) .program others =
        Tree.localsAll [] .program [] :=
      moved.locals .program (List.forall_mem_nil _)
    exact ⟨named, each.outlines⟩
  | cons item items ih =>
    obtain ⟨here, later, rfl, first, more⟩ := follow.of_treesOf_cons
    obtain ⟨bound, outlined⟩ := ih _ _ more
    have within := place.within_trees item
    have named : Tree.localsAll (front ++ (item.text ++ layoutText items)) .program here =
      Tree.localsAll item.text .program (place.trees item) := first.locals .program within
    have each : Lowered.AllFollow item.text (front ++ (item.text ++ layoutText items))
        (Text.size front) (Tree.lowerAll item.text names .program (place.trees item))
        (Tree.lowerAll (front ++ (item.text ++ layoutText items)) names .program here) :=
      first.lower names .program within
    have lowered := each.outlines
    rw [List.append_assoc, ← layoutText_cons] at bound outlined
    rw [place.localsAll_trees, ← layoutText_cons] at named
    rw [← layoutText_cons] at lowered
    rw [localsAll_append, named, bound, lowerAll_append, List.map_append, Node.outlines_append,
      lowered, outlined, nodesOf, Node.outlines_append]
    exact ⟨rfl, rfl⟩

/-- **The tree of a program says what its parts say**, each alone. -/
theorem parse_layout {items : List Item} (laid : IsLaidOut .fresh items) :
    ∃ others, Tree.AllFollow 0 (treesOf (Text.size (layoutText items)) .fresh items) others ∧
      ∃ children : List Node, children =
          (Tree.lowerAll (layoutText items) (localsOf items) .program others).map (·.node) ∧
        Node.outlines children = Node.outlines (nodesOf (localsOf items) .fresh items) ∧
        parse (String.ofList (layoutText items)) =
          .ok ⟨.program, ⟨0, Text.size (layoutText items)⟩, children⟩ := by
  obtain ⟨others, read, follow⟩ := readProgram_layout laid
  obtain ⟨bound, outlined⟩ :=
    layout_follows (localsOf items) [] .fresh follow
  rw [List.nil_append] at bound outlined
  refine ⟨others, follow, _, rfl, outlined, ?_⟩
  rw [parse, String.toList_ofList, read]
  show Except.ok (Node.mk .program _ ((Tree.lowerAll _ (Tree.localsAll _ .program others) .program
    others).map (·.node))) = _
  rw [bound]

end RecipeLint.Ruby
