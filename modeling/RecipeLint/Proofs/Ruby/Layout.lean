/-
**Programs as they are laid out.**

A program is taken apart into statements and what stands between them: blanks, line breaks,
semicolons and comments. A statement is any text that the reader reads as one wherever it stands.
A comment hides what follows it on its line, so no statement may stand there; and a line break or a
semicolon must stand between two statements.

* `Statement` — a statement that is read the same wherever it stands.
* `Item`, `IsLaidOut` — the parts of a program, and which sequences of them are programs.
* `treesOf` — the concrete trees of a program.
* `fresh_begins`, `behind_ends` — what the reader finds where a statement may start, and behind one.
-/

import RecipeLint.Proofs.Ruby.Ends
import RecipeLint.Proofs.Ruby.Following

namespace RecipeLint.Ruby

/-! ### Statements -/

/-- What holds for the statements of a program. -/
def programContext : Context :=
  { words := [dataWord], closers := [dataWord], laterClosers := [dataWord], unnamed := true }

/-- The signs that start a comment or a continued line, go on with the line before, or may start a
block of comments or the mark of a text that is data. -/
def joiningSigns : List Char := ['#', '\\', '.', '&', '=', '_', byteOrderMark]

/-- Whether a character can stand where a statement may start. -/
def standsFresh (c : Char) : Bool :=
  !isGap c && !isCloser c && !joiningSigns.contains c

/-- Whether a character can start a statement here. -/
def startsStatement (c : Char) : Bool :=
  standsFresh c && c != ';'

/-- **A statement that is read the same wherever it stands**, before anything that does not go on
with it. -/
structure Statement where
  /-- How it is written. -/
  text : List Char
  /-- The concrete tree of the text alone. -/
  tree : Tree
  starts : text.head?.any startsStatement = true
  within : tree.Within text
  reads (bound depth : Nat) {cursor : Cursor} {rest : List Char}
    (here : cursor.rest = text ++ rest) (free : cursor.heredocs = [])
    (quiet : Quiet programContext rest) (enough : cursor.rest.length < bound)
    (deep : nestingPerCharacter * text.length ≤ depth) :
    ∃ after, Reader.descent bound none depth .statement programContext cursor =
      .ok (tree.shift cursor.offset, after) ∧ cursor.Takes text after

namespace Statement

/-- The names that a statement binds. -/
def locals (statement : Statement) : List String :=
  statement.tree.locals statement.text .program

/-- The node of a statement alone, where some names are bound. -/
def node (names : List String) (statement : Statement) : Node :=
  (statement.tree.lower statement.text names .program).node

theorem text_eq_cons (statement : Statement) :
    ∃ c more, statement.text = c :: more ∧ startsStatement c = true := by
  have starts := statement.starts
  cases same : statement.text with
  | nil =>
    rw [same] at starts
    cases starts
  | cons c more =>
    rw [same] at starts
    exact ⟨c, more, rfl, starts⟩

end Statement

/-! ### Layouts -/

/-- A part of a program. -/
inductive Item where
  /-- A blank. -/
  | blank (c : Char) (gap : isGap c = true) (sameLine : c ≠ '\n')
  /-- A line break. -/
  | lineBreak
  /-- A semicolon. -/
  | semicolon
  /-- A comment without the sign that starts it. -/
  | comment (body : List Char) (oneLine : '\n' ∉ body)
  /-- A statement. -/
  | statement (statement : Statement)

/-- How a part of a program is written. -/
def Item.text : Item → List Char
  | .blank c _ _ => [c]
  | .lineBreak => ['\n']
  | .semicolon => [';']
  | .comment body _ => '#' :: body
  | .statement given => given.text

/-- How a program is written. -/
def layoutText (items : List Item) : List Char :=
  items.flatMap Item.text

/-- Where a part of a program stands. -/
inductive Place where
  /-- Where a statement may start. -/
  | fresh
  /-- Behind a statement on its line. -/
  | behind
  /-- In a comment. -/
  | hidden
  deriving DecidableEq

namespace Place

/-- Where the next part stands. -/
def after : Place → Item → Place
  | _, .lineBreak => fresh
  | hidden, _ => hidden
  | place, .blank .. => place
  | _, .semicolon => fresh
  | _, .comment .. => hidden
  | _, .statement _ => behind

/-- Whether a part may stand at a place. -/
def admits : Place → Item → Prop
  | place, .statement _ => place = fresh
  | _, _ => True

/-- The concrete trees of a part alone: a semicolon that ends no statement is one itself. -/
def trees : Place → Item → List Tree
  | _, .statement given => [given.tree]
  | fresh, .semicolon => [.leaf .emptyStatement ⟨0, 1⟩]
  | _, _ => []

end Place

/-- **A sequence of parts is a program**, from a place on: each statement starts where one may. -/
def IsLaidOut : Place → List Item → Prop
  | _, [] => True
  | place, item :: items => place.admits item ∧ IsLaidOut (place.after item) items

/-- The concrete trees of a program that is the last part of a text of a size. -/
def treesOf (total : Nat) : Place → List Item → List Tree
  | _, [] => []
  | place, item :: items =>
    Tree.shiftAll (total - Text.size (layoutText (item :: items))) (place.trees item) ++
      treesOf total (place.after item) items

theorem treesOf_statement (total : Nat) (given : Statement) (items : List Item) :
    treesOf total .fresh (.statement given :: items) =
      given.tree.shift (total - Text.size (layoutText (.statement given :: items))) ::
        treesOf total .behind items :=
  rfl

theorem treesOf_semicolon (total : Nat) (items : List Item) :
    treesOf total .fresh (.semicolon :: items) =
      (Tree.leaf .emptyStatement ⟨0, 1⟩).shift
          (total - Text.size (layoutText (.semicolon :: items))) :: treesOf total .fresh items :=
  rfl

theorem layoutText_cons (item : Item) (items : List Item) :
    layoutText (item :: items) = item.text ++ layoutText items :=
  List.flatMap_cons

theorem layoutText_append (first second : List Item) :
    layoutText (first ++ second) = layoutText first ++ layoutText second :=
  List.flatMap_append

/-! ### What stands between statements -/

theorem Lines.blank {c : Char} {next text : List Char} (gap : isGap c = true) (sameLine : c ≠ '\n')
    (more : Lines next text) : Lines next (c :: text) := by
  cases more with
  | last here token noBlock => exact .last (.blank gap sameLine here) token noBlock
  | line here below => exact .line (.blank gap sameLine here) below

theorem Lines.here {next : List Char} (stands : Stands next) (token : next.head? ≠ some '\n')
    (noBlock : next.head? ≠ some '=') : Lines next next := by
  refine .last (.here stands) token ?_
  cases next with
  | nil => rfl
  | cons c rest =>
    have other : '=' ≠ c := fun same => noBlock (congrArg some same.symm)
    show Text.strip? ('=' :: "begin".toList) _ = none
    rw [Text.strip?, if_neg other]

/-- What the reader finds where a statement may start. -/
inductive Begins : List Item → Prop
  | ended : Begins []
  | semicolon (items : List Item) : Begins (.semicolon :: items)
  | statement (statement : Statement) (items : List Item) : Begins (.statement statement :: items)

theorem Begins.head {items : List Item} (begins : Begins items) :
    ∀ c ∈ (layoutText items).head?, standsFresh c = true := by
  cases begins with
  | ended => exact nofun
  | semicolon items =>
    intro c first
    obtain rfl : ';' = c := Option.some.inj first
    decide
  | statement given items =>
    obtain ⟨first, more, same, starts⟩ := given.text_eq_cons
    intro c member
    rw [layoutText_cons, Item.text, same] at member
    obtain rfl : first = c := Option.some.inj member
    exact (Bool.and_eq_true_iff.mp starts).1

section Fresh

variable {text : List Char} (fresh : ∀ c ∈ text.head?, standsFresh c = true)

include fresh

theorem head?_ne_of_fresh {c : Char} (other : standsFresh c = false) : text.head? ≠ some c := by
  intro same
  rw [fresh c same] at other
  cases other

theorem stands_of_fresh : Stands text := by
  intro c member
  have noComment : c ≠ '#' := by
    rintro rfl
    exact head?_ne_of_fresh fresh rfl member
  have noEscape : c ≠ '\\' := by
    rintro rfl
    exact head?_ne_of_fresh fresh rfl member
  refine ⟨fun gap => ?_, noComment, noEscape⟩
  have starts := fresh c member
  rw [standsFresh, gap] at starts
  cases starts

theorem lines_of_fresh : Lines text text :=
  .here (stands_of_fresh fresh) (head?_ne_of_fresh fresh rfl) (head?_ne_of_fresh fresh rfl)

omit fresh in
theorem Lines.nil : Lines [] [] := lines_of_fresh nofun

theorem continuesLine_of_fresh : Reader.continuesLine text = false := by
  unfold Reader.continuesLine
  split
  next => rfl
  next => exact absurd rfl (head?_ne_of_fresh fresh (show standsFresh '.' = false from rfl))
  next => exact absurd rfl (head?_ne_of_fresh fresh (show standsFresh '&' = false from rfl))
  next => rfl

end Fresh

/-- A comment hides the rest of its line. -/
theorem hidden_splits (total : Nat) {items : List Item} (laid : IsLaidOut .hidden items) :
    ∃ body more, layoutText items = body ++ layoutText more ∧ '\n' ∉ body ∧
      treesOf total .hidden items = treesOf total .hidden more ∧ more.length ≤ items.length ∧
      (more = [] ∨ ∃ later, more = .lineBreak :: later ∧ IsLaidOut .fresh later) := by
  induction items with
  | nil => exact ⟨[], [], rfl, List.not_mem_nil, rfl, Nat.le_refl _, Or.inl rfl⟩
  | cons item items ih =>
    obtain ⟨admitted, laid⟩ := laid
    cases item with
    | lineBreak =>
      exact ⟨[], _, rfl, List.not_mem_nil, rfl, Nat.le_refl _, Or.inr ⟨items, rfl, laid⟩⟩
    | statement given => cases admitted
    | blank c gap sameLine =>
      obtain ⟨body, more, split, line, same, shorter, ends⟩ := ih laid
      refine ⟨c :: body, more, ?_, ?_, same, Nat.le_succ_of_le shorter, ends⟩
      · rw [layoutText_cons, split]
        rfl
      · exact List.not_mem_cons_of_ne_of_not_mem sameLine.symm line
    | semicolon =>
      obtain ⟨body, more, split, line, same, shorter, ends⟩ := ih laid
      refine ⟨';' :: body, more, ?_, ?_, same, Nat.le_succ_of_le shorter, ends⟩
      · rw [layoutText_cons, split]
        rfl
      · exact List.not_mem_cons_of_ne_of_not_mem (by decide) line
    | comment inner oneLine =>
      obtain ⟨body, more, split, line, same, shorter, ends⟩ := ih laid
      refine ⟨'#' :: (inner ++ body), more, ?_, ?_, same, Nat.le_succ_of_le shorter, ends⟩
      · rw [layoutText_cons, split, Item.text, List.cons_append, List.cons_append,
          List.append_assoc]
      · refine List.not_mem_cons_of_ne_of_not_mem (by decide) fun member => ?_
        exact (List.mem_append.mp member).elim oneLine line

/-- What stands in a comment up to the end of its line. -/
theorem comment_splits (total : Nat) {inner : List Char} (oneLine : '\n' ∉ inner)
    {items : List Item} (laid : IsLaidOut .hidden items) :
    ∃ more, Blanks (layoutText more) ('#' :: (inner ++ layoutText items)) ∧
      treesOf total .hidden items = treesOf total .hidden more ∧ more.length ≤ items.length ∧
      (more = [] ∨ ∃ later, more = .lineBreak :: later ∧ IsLaidOut .fresh later) := by
  obtain ⟨body, more, split, line, same, shorter, ends⟩ := hidden_splits total laid
  refine ⟨more, ?_, same, shorter, ends⟩
  rw [split, ← List.append_assoc]
  refine .comment (fun member => (List.mem_append.mp member).elim oneLine line) ?_
  rcases ends with rfl | ⟨later, rfl, -⟩
  · exact Or.inl rfl
  · exact Or.inr rfl

/-- **Where a statement may start**, the reader finds one behind blanks, comments and line breaks,
or a semicolon, or the end. -/
theorem fresh_begins (total : Nat) : ∀ {items : List Item}, IsLaidOut .fresh items →
    ∃ more, Lines (layoutText more) (layoutText items) ∧ Begins more ∧ IsLaidOut .fresh more ∧
      treesOf total .fresh items = treesOf total .fresh more
  | [], _ => ⟨[], lines_of_fresh nofun, .ended, trivial, rfl⟩
  | .semicolon :: items, laid =>
    ⟨_, lines_of_fresh (Begins.semicolon items).head, .semicolon items, laid, rfl⟩
  | .statement given :: items, laid =>
    ⟨_, lines_of_fresh (Begins.statement given items).head, .statement given items, laid, rfl⟩
  | .blank c gap sameLine :: items, laid => by
    obtain ⟨more, lines, begins, laidOut, same⟩ := fresh_begins total laid.2
    exact ⟨more, lines.blank gap sameLine, begins, laidOut, same⟩
  | .lineBreak :: items, laid => by
    obtain ⟨more, lines, begins, laidOut, same⟩ := fresh_begins total laid.2
    exact ⟨more, .line (.here (Halts.line _ : Halts false _).stands) lines, begins, laidOut, same⟩
  | .comment inner oneLine :: items, laid => by
    obtain ⟨rest, gap, same, shorter, ends⟩ := comment_splits total oneLine laid.2
    rcases ends with rfl | ⟨later, rfl, laidOut⟩
    · exact ⟨[], .last gap nofun rfl, .ended, trivial, same⟩
    · obtain ⟨more, lines, begins, laidOut, same'⟩ := fresh_begins total laidOut
      exact ⟨more, .line gap lines, begins, laidOut, same.trans same'⟩
termination_by items => items.length
decreasing_by
  all_goals simp only [List.length_cons] at *
  all_goals omega

/-- **Behind a statement** the reader finds a semicolon, the end of the line or the end. -/
theorem behind_ends (total : Nat) : ∀ {items : List Item}, IsLaidOut .behind items →
    ∃ more, Blanks (layoutText more) (layoutText items) ∧
      ((∃ later, more = .semicolon :: later ∧ IsLaidOut .fresh later ∧
          treesOf total .behind items = treesOf total .fresh later) ∨
        (more = [] ∧ treesOf total .behind items = []) ∨
        ∃ later, more = .lineBreak :: later ∧ IsLaidOut .fresh later ∧
          treesOf total .behind items = treesOf total .fresh later)
  | [], _ => ⟨[], .here nofun, Or.inr (Or.inl ⟨rfl, rfl⟩)⟩
  | .semicolon :: items, laid =>
    ⟨_, .here (Halts.semicolon _ : Halts false _).stands, Or.inl ⟨items, rfl, laid.2, rfl⟩⟩
  | .lineBreak :: items, laid =>
    ⟨_, .here (Halts.line _ : Halts false _).stands, Or.inr (Or.inr ⟨items, rfl, laid.2, rfl⟩)⟩
  | .statement _ :: _, laid => nomatch laid.1
  | .blank c gap sameLine :: items, laid => by
    obtain ⟨more, blanks, ends⟩ := behind_ends total laid.2
    exact ⟨more, .blank gap sameLine blanks, ends⟩
  | .comment inner oneLine :: items, laid => by
    obtain ⟨more, gap, same, -, ends⟩ := comment_splits total oneLine laid.2
    refine ⟨more, gap, Or.inr ?_⟩
    rcases ends with rfl | ⟨later, rfl, laidOut⟩
    · exact Or.inl ⟨rfl, same⟩
    · exact Or.inr ⟨later, rfl, laidOut, same⟩

/-- Nothing goes on with a statement. -/
theorem quiet_of_behind {items : List Item} (laid : IsLaidOut .behind items) :
    Quiet programContext (layoutText items) := by
  obtain ⟨more, blanks, ends⟩ := behind_ends 0 laid
  rcases ends with ⟨later, rfl, -⟩ | ⟨rfl, -⟩ | ⟨later, rfl, laidOut, -⟩
  · exact .line rfl blanks nofun (.semicolon _)
  · exact .line rfl blanks nofun .ended
  · obtain ⟨below, lines, begins, -⟩ := fresh_begins 0 laidOut
    exact .lineEnd rfl blanks lines (continuesLine_of_fresh begins.head)

end RecipeLint.Ruby
