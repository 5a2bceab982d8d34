/-
**Lists of arguments.**

The arguments of a call stand in a list, with commas and gaps between them. An argument is any text
that the reader reads as one wherever it stands in a list, before a comma as well as at the end.

* `Argument` — an argument that is read the same wherever it stands.
* `Arguments`, `Enclosed` — lists of arguments, without and with parentheses.
* `Reader.bracketedArguments_ok` — the reader finds those between parentheses.
-/

import RecipeLint.Proofs.Ruby.Layout

namespace RecipeLint.Ruby

/-! ### Gaps -/

/-- A gap between the arguments of a call: a blank or a line break, or a comment with the end of its
line. -/
inductive Filler where
  /-- A blank or a line break. -/
  | blank (c : Char) (gap : isGap c = true)
  /-- A comment without the sign that starts it. -/
  | remark (body : List Char) (oneLine : '\n' ∉ body)

/-- How a gap is written. -/
def Filler.text : Filler → List Char
  | .blank c _ => [c]
  | .remark body _ => '#' :: (body ++ ['\n'])

/-- How several gaps are written. -/
def fillerText (fillers : List Filler) : List Char :=
  fillers.flatMap Filler.text

/-- Whether a gap stays on its line. -/
def Filler.staysOnLine : Filler → Bool
  | .blank c _ => c != '\n'
  | .remark .. => false

/-- The signs that end a list, separate its parts, or may start a comment or a continued line. -/
def listSigns : List Char := ['#', '\\', ')', ',', '=']

/-- Whether a character can start an argument. -/
def startsListed (c : Char) : Bool :=
  !isGap c && !listSigns.contains c

section Gaps

variable {next : List Char} (stands : Stands next)

include stands

/-- Gaps lead over several lines. -/
theorem lines_of_fillers (token : next.head? ≠ some '\n') (noBlock : next.head? ≠ some '=')
    (fillers : List Filler) : Lines next (fillerText fillers ++ next) := by
  induction fillers with
  | nil => exact .here stands token noBlock
  | cons filler fillers ih =>
    rw [fillerText, List.flatMap_cons, List.append_assoc]
    cases filler with
    | blank c gap =>
      by_cases same : c = '\n'
      · subst same
        exact .line (.here (Halts.line _ : Halts false _).stands) ih
      · exact ih.blank gap same
    | remark body oneLine =>
      rw [Filler.text, List.cons_append, List.append_assoc]
      exact .line (.comment oneLine (Or.inr rfl)) ih

/-- Gaps that stay on the line lead to what stands behind them there. -/
theorem blanks_of_fillers {fillers : List Filler} (stay : fillers.all Filler.staysOnLine = true) :
    Blanks next (fillerText fillers ++ next) := by
  induction fillers with
  | nil => exact .here stands
  | cons filler fillers ih =>
    obtain ⟨here, others⟩ := Bool.and_eq_true_iff.mp stay
    rw [fillerText, List.flatMap_cons, List.append_assoc]
    cases filler with
    | blank c gap => exact .blank gap (by simpa [Filler.staysOnLine] using here) (ih others)
    | remark => cases here

end Gaps

/-! ### Arguments -/

/-- **An argument that is read the same wherever it stands** in a list in a context. -/
structure Argument (context : Context) (read : Reader Tree) where
  /-- How it is written. -/
  text : List Char
  /-- The concrete tree of the text alone. -/
  tree : Tree
  starts : text.head?.any startsListed = true
  within : tree.Within text
  noComment : tree.is .comment = false
  covers (names : List String) :
    (tree.lower text names .argumentList).node.span = ⟨0, Text.size text⟩
  reads (bound depth : Nat) {cursor : Cursor} {rest : List Char}
    (here : cursor.rest = text ++ rest) (free : cursor.heredocs = [])
    (quiet : Quiet context rest) (enough : cursor.rest.length < bound)
    (deep : nestingPerCharacter * text.length ≤ depth) :
    ∃ after, read (Reader.settingAt context bound depth) cursor =
      .ok (tree.shift cursor.offset, after) ∧ cursor.Takes text after

/-- An argument behind a comma. -/
structure Further (context : Context) (read : Reader Tree) where
  /-- The gaps before the comma. -/
  before : List Filler
  /-- The gaps behind the comma. -/
  behind : List Filler
  /-- The argument. -/
  argument : Argument context read

/-- **A list of arguments.** -/
structure Arguments (context : Context) (read : Reader Tree) where
  /-- The first argument. -/
  first : Argument context read
  /-- The others. -/
  more : List (Further context read)

section Lists

variable {context : Context} {read : Reader Tree}

/-- How an argument behind a comma is written. -/
def Further.text (further : Further context read) : List Char :=
  fillerText further.before ++ ',' :: (fillerText further.behind ++ further.argument.text)

/-- Where an argument behind a comma starts. -/
def Further.start (further : Further context read) (position : Nat) : Nat :=
  position + Text.size (fillerText further.before) + 1 + Text.size (fillerText further.behind)

theorem Further.start_eq (further : Further context read) (position : Nat) :
    further.start position = position +
      Text.size (fillerText further.before ++ ',' :: fillerText further.behind) := by
  rw [start, Text.size_append, Text.size_cons]
  show _ + _ + 1 + _ = _ + (_ + (1 + _))
  omega

theorem Further.start_add_size (further : Further context read) (position : Nat) :
    further.start position + Text.size further.argument.text =
      position + Text.size further.text := by
  rw [start_eq, Nat.add_assoc, ← Text.size_append, text, List.append_assoc, List.cons_append]

/-- How arguments behind commas are written. -/
def moreText (more : List (Further context read)) : List Char :=
  more.flatMap Further.text

/-- The concrete trees of arguments behind commas, from a position on. -/
def moreTrees : (position : Nat) → List (Further context read) → List Tree
  | _, [] => []
  | position, further :: more =>
    further.argument.tree.shift (further.start position) ::
      moreTrees (position + Text.size further.text) more

/-- How arguments are written. -/
def Arguments.text (arguments : Arguments context read) : List Char :=
  arguments.first.text ++ moreText arguments.more

/-- The concrete trees of arguments, from a position on. -/
def Arguments.trees (position : Nat) (arguments : Arguments context read) : List Tree :=
  arguments.first.tree.shift position ::
    moreTrees (position + Text.size arguments.first.text) arguments.more

theorem Argument.text_eq_cons (argument : Argument context read) :
    ∃ c more, argument.text = c :: more ∧ startsListed c = true := by
  have starts := argument.starts
  cases same : argument.text with
  | nil =>
    rw [same] at starts
    cases starts
  | cons c more =>
    rw [same] at starts
    exact ⟨c, more, rfl, starts⟩

theorem Argument.length_pos (argument : Argument context read) : 0 < argument.text.length := by
  obtain ⟨c, more, same, -⟩ := argument.text_eq_cons
  rw [same]
  exact Nat.succ_pos _

theorem moreText_cons (further : Further context read) (more : List (Further context read)) :
    moreText (further :: more) =
      fillerText further.before ++
        ',' :: (fillerText further.behind ++ (further.argument.text ++ moreText more)) := by
  simp only [moreText, List.flatMap_cons, Further.text, List.append_assoc, List.cons_append]

theorem shiftAll_moreTrees (distance : Nat) {position : Nat} {more : List (Further context read)} :
    Tree.shiftAll distance (moreTrees position more) = moreTrees (position + distance) more := by
  induction more generalizing position with
  | nil => rfl
  | cons further more ih =>
    have start : further.start position + distance = further.start (position + distance) := by
      unfold Further.start
      omega
    have later : position + Text.size further.text + distance =
        position + distance + Text.size further.text := by omega
    rw [moreTrees, moreTrees, Tree.shiftAll, ih, Tree.shift_shift, start, later]

theorem Arguments.shiftAll_trees (arguments : Arguments context read) (position distance : Nat) :
    Tree.shiftAll distance (arguments.trees position) = arguments.trees (position + distance) := by
  have later : position + Text.size arguments.first.text + distance =
      position + distance + Text.size arguments.first.text := by omega
  rw [trees, trees, Tree.shiftAll, Tree.shift_shift, shiftAll_moreTrees, later]

end Lists

/-- A list of arguments in a pair of parentheses. -/
inductive Enclosed where
  /-- No argument. -/
  | empty (inside : List Filler)
  /-- Some arguments, and the gaps behind them, in which a comma may stand. -/
  | some (opening : List Filler) (arguments : Arguments .bracketed Reader.argument)
    (closing : List Filler) (trailing : Option (List Filler))

/-- How the end of a list is written. -/
def closingText (closing : List Filler) (trailing : Option (List Filler)) : List Char :=
  fillerText closing ++ (match trailing with
    | none => [')']
    | some fillers => ',' :: (fillerText fillers ++ [')']))

namespace Enclosed

/-- How a list is written behind the opening parenthesis. -/
def inner : Enclosed → List Char
  | .empty inside => fillerText inside ++ [')']
  | .some opening arguments closing trailing =>
    fillerText opening ++ (arguments.text ++ closingText closing trailing)

/-- How a list is written. -/
def text (list : Enclosed) : List Char :=
  '(' :: list.inner

/-- The concrete trees of the arguments, where the opening parenthesis ends at a position. -/
def trees (position : Nat) : Enclosed → List Tree
  | .empty _ => []
  | .some opening arguments _ _ => arguments.trees (position + Text.size (fillerText opening))

/-- The concrete tree of a list alone. -/
def tree (list : Enclosed) : Tree :=
  .of .argumentList ⟨0, Text.size list.text⟩ (list.trees 1)

theorem shiftAll_trees (list : Enclosed) (position distance : Nat) :
    Tree.shiftAll distance (list.trees position) = list.trees (position + distance) := by
  cases list with
  | empty => rfl
  | some opening arguments =>
    have start : position + Text.size (fillerText opening) + distance =
        position + distance + Text.size (fillerText opening) := by omega
    rw [trees, trees, arguments.shiftAll_trees, start]

end Enclosed

/-! ### Places of arguments -/

section Within

variable {context : Context} {read : Reader Tree}

theorem within_moreTrees (more : List (Further context read)) (before after : List Char) :
    ∀ tree ∈ moreTrees (Text.size before) more,
      tree.Within (before ++ (moreText more ++ after)) := by
  induction more generalizing before with
  | nil => exact nofun
  | cons further more ih =>
    have others := ih (before ++ further.text)
    rw [Text.size_append] at others
    have start : further.start (Text.size before) =
        Text.size (before ++ (fillerText further.before ++ ',' :: fillerText further.behind)) := by
      rw [further.start_eq, ← Text.size_append]
    have whole : before ++ (moreText (further :: more) ++ after) =
        (before ++ (fillerText further.before ++ ',' :: fillerText further.behind)) ++
          (further.argument.text ++ (moreText more ++ after)) := by
      simp only [moreText_cons, List.append_assoc, List.cons_append]
    have same : before ++ (moreText (further :: more) ++ after) =
        (before ++ further.text) ++ (moreText more ++ after) := by
      simp only [moreText, List.flatMap_cons, List.append_assoc]
    rw [moreTrees, List.forall_mem_cons]
    refine ⟨?_, same ▸ others⟩
    rw [start, whole]
    exact further.argument.within.shift

theorem Arguments.within_trees (arguments : Arguments context read) (before after : List Char) :
    ∀ tree ∈ arguments.trees (Text.size before),
      tree.Within (before ++ (arguments.text ++ after)) := by
  have others := within_moreTrees arguments.more (before ++ arguments.first.text) after
  rw [Text.size_append] at others
  have whole : before ++ (arguments.text ++ after) =
      (before ++ arguments.first.text) ++ (moreText arguments.more ++ after) := by
    simp only [Arguments.text, List.append_assoc]
  rw [trees, List.forall_mem_cons]
  refine ⟨?_, whole ▸ others⟩
  rw [Arguments.text, List.append_assoc]
  exact arguments.first.within.shift

end Within

theorem Enclosed.within_tree (list : Enclosed) : list.tree.Within list.text := by
  refine .node ⟨[], list.text, [], (List.append_nil _).symm, rfl, Nat.zero_add _⟩ ?_
  cases list with
  | empty => exact nofun
  | some opening arguments closing trailing =>
    have inside := arguments.within_trees ('(' :: fillerText opening)
      (closingText closing trailing)
    have position : Text.size ('(' :: fillerText opening) = 1 + Text.size (fillerText opening) :=
      rfl
    rw [position] at inside
    simpa only [Enclosed.text, Enclosed.inner, Enclosed.trees, List.cons_append] using inside

/-! ### Reading lists -/

theorem stands_of_listed {c : Char} {rest : List Char} (starts : startsListed c = true) :
    Stands (c :: rest) := by
  rintro d ⟨⟩
  unfold startsListed at starts
  simp only [Bool.and_eq_true, Bool.not_eq_true'] at starts
  obtain ⟨noGap, noSign⟩ := starts
  refine ⟨fun gap => absurd gap (by rw [noGap]; nofun), ?_, ?_⟩ <;>
    · rintro rfl
      cases noSign

theorem ne_of_listed {c sign : Char} (starts : startsListed c = true)
    (other : startsListed sign = false) : c ≠ sign := by
  rintro rfl
  rw [starts] at other
  cases other

/-- A comma or a parenthesis behind gaps ends an argument between parentheses. -/
theorem quiet_of_sign {sign : Char} (ends : sign = ',' ∨ sign = ')') (fillers : List Filler)
    (rest : List Char) : Quiet .bracketed (fillerText fillers ++ sign :: rest) := by
  have halts : Halts Context.bracketed.listed (sign :: rest) := by
    rcases ends with rfl | rfl
    · exact .comma rfl rest
    · exact .parenthesis rest
  refine .gaps rfl (lines_of_fillers halts.stands ?_ ?_ fillers) halts <;>
    rcases ends with rfl | rfl <;> nofun

/-- Behind an argument between parentheses stands another one or the end of the list. -/
theorem quiet_of_more (more : List (Further .bracketed Reader.argument)) (closing : List Filler)
    (trailing : Option (List Filler)) (rest : List Char) :
    Quiet .bracketed (moreText more ++ (closingText closing trailing ++ rest)) := by
  cases more with
  | nil =>
    cases trailing with
    | none =>
      have ends := quiet_of_sign (Or.inr rfl) closing rest
      rwa [moreText, List.flatMap_nil, List.nil_append, closingText, List.append_assoc]
    | some fillers =>
      have ends := quiet_of_sign (Or.inl rfl) closing (fillerText fillers ++ ([')'] ++ rest))
      rwa [moreText, List.flatMap_nil, List.nil_append, closingText, List.append_assoc,
        List.cons_append, List.append_assoc]
  | cons further more =>
    have ends := quiet_of_sign (Or.inl rfl) further.before (fillerText further.behind ++
      (further.argument.text ++ (moreText more ++ (closingText closing trailing ++ rest))))
    simpa only [moreText_cons, List.append_assoc, List.cons_append] using ends

namespace Reader

/-- The reader moves over the gaps before a token. -/
theorem skipLines_fillers (setting : Setting) {cursor : Cursor} {fillers : List Filler} {c : Char}
    {rest : List Char}
    (here : cursor.rest = fillerText fillers ++ c :: rest) (stands : Stands (c :: rest))
    (token : c ≠ '\n') (noBlock : c ≠ '=') (free : cursor.heredocs = [])
    (enough : cursor.rest.length < setting.bound) :
    ∃ after, skipLines setting cursor = .ok ((), after) ∧ after.rest = c :: rest ∧
      cursor.Skips (fillerText fillers) after := by
  have lines := lines_of_fillers stands (fun same => token (Option.some.inj same))
    (fun same => noBlock (Option.some.inj same)) fillers
  obtain ⟨after, skipped, reaches⟩ := skipLines_ok setting lines here free (here ▸ enough)
  exact ⟨after, skipped, reaches.1, reaches.skips here⟩

section Steps

variable {setting : Setting} {element : Reader Tree} {closing : String} {count others : Nat}
  {cursor start behind stop : Cursor} {value : Tree}
  (skipped : skipLines setting cursor = .ok ((), start)) (noEnd : start.sees closing = false)
  (more : start.rest.isEmpty = false) (read : element setting start = .ok (value, behind))
  (skippedOn : skipLines setting behind = .ok ((), stop))

include skipped noEnd more read skippedOn

/-- The last element of a list. -/
theorem elementsUpTo_of_last (ended : stop.sees closing = true) :
    elementsUpTo element closing (count + 1) others setting cursor =
      .ok ([value], stop.eat closing.length) := by
  have reached : ending Ending.enclose element setting start = .ok (value, behind) :=
    ending_of_ok read
  simp only [elementsUpTo, bind_apply, skipped, accept_apply, noEnd, get_apply, ite_apply, more,
    pure_apply, reached, skippedOn, ended, Bool.false_eq_true, if_false, if_true]

/-- An element of a list with a comma behind it. -/
theorem elementsUpTo_of_comma {next after : Cursor} {values : List Tree}
    (goesOn : stop.sees closing = false) (comma : stop.sees "," = true)
    (skippedFurther : skipLines setting (stop.eat 1) = .ok ((), next))
    (single : next.sees "," = false)
    (later : elementsUpTo element closing count (others + 1) setting next = .ok (values, after)) :
    elementsUpTo element closing (count + 1) others setting cursor =
      .ok (value :: values, after) := by
  have reached : ending Ending.enclose element setting start = .ok (value, behind) :=
    ending_of_ok read
  have width : ",".length = 1 := rfl
  simp only [elementsUpTo, bind_apply, skipped, accept_apply, noEnd, get_apply, ite_apply, more,
    pure_apply, reached, skippedOn, goesOn, comma, width, skippedFurther, sees_apply, single, later,
    Bool.false_eq_true, if_false, if_true]

end Steps

/-- A list ends right away at its closing sign. -/
theorem elementsUpTo_of_end {setting : Setting} (element : Reader Tree) {closing : String}
    (count others : Nat) {cursor start : Cursor}
    (skipped : skipLines setting cursor = .ok ((), start))
    (ended : start.sees closing = true) :
    elementsUpTo element closing (count + 1) others setting cursor =
      .ok ([], start.eat closing.length) := by
  simp only [elementsUpTo, bind_apply, skipped, accept_apply, ended, ite_apply, pure_apply, if_true]

theorem sees_of_cons {cursor : Cursor} {sign : Char} {rest : List Char}
    (here : cursor.rest = sign :: rest) (other : Char) {expected : String}
    (same : expected.toList = [other]) : cursor.sees expected = decide (other = sign) := by
  rw [Cursor.sees, same, here, Text.strip?]
  split
  next equal => rw [decide_eq_true equal]; rfl
  next differs => rw [decide_eq_false differs]; rfl

section Lists

variable {bound depth : Nat}

/-- An argument is found behind the gaps before it. -/
theorem argument_ok {argument : Argument .bracketed argument} {cursor : Cursor}
    {fillers : List Filler} {rest : List Char}
    (here : cursor.rest = fillerText fillers ++ (argument.text ++ rest))
    (free : cursor.heredocs = []) (quiet : Quiet .bracketed rest)
    (enough : cursor.rest.length < bound)
    (deep : nestingPerCharacter * argument.text.length ≤ depth) :
    ∃ start behind, skipLines (settingAt .bracketed bound depth) cursor = .ok ((), start) ∧
      start.sees ")" = false ∧ start.sees "," = false ∧ start.rest.isEmpty = false ∧
      Reader.argument (settingAt .bracketed bound depth) start =
        .ok (argument.tree.shift start.offset, behind) ∧
      cursor.Skips (fillerText fillers) start ∧ start.Takes argument.text behind ∧
      behind.rest = rest := by
  obtain ⟨c, chars, same, starts⟩ := argument.text_eq_cons
  have there := here
  rw [same, List.cons_append] at there
  obtain ⟨start, skipped, left, skips⟩ :=
    skipLines_fillers (settingAt .bracketed bound depth) there
      (stands_of_listed starts) (ne_of_listed starts rfl) (ne_of_listed starts rfl) free enough
  have whole : start.rest = argument.text ++ rest := by rw [left, same]; rfl
  obtain ⟨behind, read, takes⟩ := argument.reads bound depth whole skips.stillFree quiet
    (Nat.lt_of_le_of_lt skips.toPasses.length_le enough) deep
  refine ⟨start, behind, skipped, ?_, ?_, by rw [left]; rfl, read, skips, takes,
    takes.rest_eq whole⟩
  · rw [sees_of_cons left ')' rfl]
    exact decide_eq_false (ne_of_listed starts rfl).symm
  · rw [sees_of_cons left ',' rfl]
    exact decide_eq_false (ne_of_listed starts rfl).symm

/-- The sign behind an argument is found behind the gaps before it. -/
theorem sign_ok (setting : Setting) {cursor : Cursor} {fillers : List Filler} {sign : Char}
    {rest : List Char} (ends : sign = ',' ∨ sign = ')')
    (here : cursor.rest = fillerText fillers ++ sign :: rest) (free : cursor.heredocs = [])
    (enough : cursor.rest.length < setting.bound) :
    ∃ stop, skipLines setting cursor = .ok ((), stop) ∧ stop.rest = sign :: rest ∧
      cursor.Skips (fillerText fillers) stop := by
  refine skipLines_fillers setting here ?_ ?_ ?_ free enough
  · rcases ends with rfl | rfl
    · exact (Halts.comma rfl rest : Halts true _).stands
    · exact (Halts.parenthesis rest : Halts true _).stands
  · rcases ends with rfl | rfl <;> decide
  · rcases ends with rfl | rfl <;> decide

/-- The comma behind an argument is found behind the gaps before it. -/
theorem comma_ok (setting : Setting) {cursor : Cursor} {fillers : List Filler} {rest : List Char}
    (here : cursor.rest = fillerText fillers ++ ',' :: rest) (free : cursor.heredocs = [])
    (enough : cursor.rest.length < setting.bound) :
    ∃ stop, skipLines setting cursor = .ok ((), stop) ∧ stop.sees ")" = false ∧
      stop.sees "," = true ∧ cursor.Takes (fillerText fillers ++ [',']) (stop.eat 1) ∧
      (stop.eat 1).rest = rest ∧ (stop.eat 1).rest.length < cursor.rest.length := by
  obtain ⟨stop, skipped, there, skips⟩ := sign_ok setting (Or.inl rfl) here free enough
  have comma : stop.rest = [','] ++ rest := there
  obtain ⟨takes, left⟩ := Cursor.eat_takes comma skips.stillFree
  refine ⟨stop, skipped, sees_of_cons there ')' rfl, stop.sees_of_append comma "," rfl,
    .trans skips.toPasses takes, left, ?_⟩
  show (stop.eat [','].length).rest.length < _
  rw [left, here, List.length_append, List.length_cons]
  omega

/-- The list ends behind its last argument. -/
theorem elementsUpTo_last (count others : Nat) {cursor start behind : Cursor} {value : Tree}
    {closing : List Filler} {trailing : Option (List Filler)} {rest : List Char}
    (skipped : skipLines (settingAt .bracketed bound depth) cursor = .ok ((), start))
    (noEnd : start.sees ")" = false) (long : start.rest.isEmpty = false)
    (read : argument (settingAt .bracketed bound depth) start = .ok (value, behind))
    (left : behind.rest = closingText closing trailing ++ rest) (free : behind.heredocs = [])
    (enough : behind.rest.length < bound) :
    ∃ after, elementsUpTo argument ")" (count + 2) others (settingAt .bracketed bound depth)
        cursor = .ok ([value], after) ∧
      behind.Takes (closingText closing trailing) after := by
  cases trailing with
  | none =>
    have whole : closingText closing none = fillerText closing ++ [')'] := rfl
    rw [whole, List.append_assoc] at left
    obtain ⟨stop, skippedOn, there, skipsOn⟩ :=
      sign_ok (settingAt .bracketed bound depth) (Or.inr rfl) left free enough
    have sign : stop.rest = [')'] ++ rest := there
    exact ⟨_, elementsUpTo_of_last skipped noEnd long read skippedOn
      (stop.sees_of_append sign ")" rfl),
      whole ▸ .trans skipsOn.toPasses (Cursor.eat_takes sign skipsOn.stillFree).1⟩
  | some fillers =>
    have whole : closingText closing (some fillers) =
        fillerText closing ++ ([','] ++ (fillerText fillers ++ [')'])) := rfl
    rw [whole, List.append_assoc, List.append_assoc, List.append_assoc] at left
    obtain ⟨stop, skippedOn, noEndOn, comma, takes, leftOver, shorter⟩ :=
      comma_ok (settingAt .bracketed bound depth) left free enough
    obtain ⟨next, skippedFurther, sign, skipsFurther⟩ :=
      sign_ok (settingAt .bracketed bound depth) (Or.inr rfl) leftOver takes.stillFree
        (Nat.lt_trans shorter enough)
    obtain ⟨last, again, closes, skipsAgain⟩ :=
      sign_ok (settingAt .bracketed bound depth) (Or.inr rfl)
        (show next.rest = fillerText [] ++ ')' :: rest from sign)
        skipsFurther.stillFree
        (Nat.lt_of_le_of_lt skipsFurther.toPasses.length_le (Nat.lt_trans shorter enough))
    have closes : last.rest = [')'] ++ rest := closes
    have ended := elementsUpTo_of_end argument count (others + 1) again
      (last.sees_of_append closes ")" rfl)
    refine ⟨_, elementsUpTo_of_comma skipped noEnd long read skippedOn noEndOn comma
      skippedFurther (sees_of_cons sign ',' rfl) ended, ?_⟩
    rw [whole, ← List.append_assoc]
    exact .trans takes.toPasses (.trans skipsFurther.toPasses
      (.trans skipsAgain.toPasses (Cursor.eat_takes closes skipsAgain.stillFree).1))

/-- **The arguments between parentheses are read** up to the closing one. -/
theorem elementsUpTo_ok (count others : Nat) {first : Argument .bracketed argument}
    {more : List (Further .bracketed argument)} {opening closing : List Filler}
    {trailing : Option (List Filler)} {cursor : Cursor} {rest : List Char}
    (here : cursor.rest = fillerText opening ++
      (first.text ++ (moreText more ++ (closingText closing trailing ++ rest))))
    (free : cursor.heredocs = []) (enough : cursor.rest.length < bound)
    (often : cursor.rest.length < count)
    (deep : nestingPerCharacter * (first.text ++ moreText more).length ≤ depth) :
    ∃ after, elementsUpTo argument ")" count others (settingAt .bracketed bound depth) cursor =
        .ok (first.tree.shift (cursor.offset + Text.size (fillerText opening)) ::
          moreTrees (cursor.offset + Text.size (fillerText opening) + Text.size first.text) more,
          after) ∧
      cursor.Takes (fillerText opening ++
        (first.text ++ (moreText more ++ closingText closing trailing))) after := by
  rw [List.length_append, Nat.mul_add] at deep
  induction more generalizing first opening cursor count others with
  | nil =>
    obtain ⟨start, behind, skipped, noEnd, -, long, read, skips, takes, left⟩ :=
      argument_ok here free (quiet_of_more [] closing trailing rest) enough
        (Nat.le_trans (Nat.le_add_right _ _) deep)
    have shorter := skips.toPasses.length_le
    have onward := takes.toPasses.length_le
    obtain ⟨count, rfl⟩ : ∃ fewer, count = fewer + 2 := Nat.exists_eq_add_of_le' (by
      have some := first.length_pos
      have width := congrArg List.length here
      simp only [List.length_append] at width
      omega)
    obtain ⟨after, done, closes⟩ := elementsUpTo_last count others skipped
      noEnd long read left takes.stillFree (by omega)
    rw [skips.offset] at done
    exact ⟨after, done, .trans skips.toPasses (.trans takes.toPasses closes)⟩
  | cons further more ih =>
    obtain ⟨count, rfl⟩ := Nat.exists_eq_succ_of_ne_zero (Nat.ne_zero_of_lt often)
    obtain ⟨start, behind, skipped, noEnd, -, long, read, skips, takes, left⟩ :=
      argument_ok here free (quiet_of_more (further :: more) closing trailing rest) enough
        (Nat.le_trans (Nat.le_add_right _ _) deep)
    have shorter := skips.toPasses.length_le
    have onward := takes.toPasses.length_le
    rw [moreText_cons] at left deep
    simp only [List.append_assoc, List.cons_append] at left
    obtain ⟨stop, skippedOn, noEndOn, comma, comes, leftOver, shorterOn⟩ :=
      comma_ok (settingAt .bracketed bound depth) left takes.stillFree
        (show behind.rest.length < bound by omega)
    simp only [List.length_append, List.length_cons, Nat.mul_add] at deep
    obtain ⟨next, -, skippedFurther, -, single, -, -, skipsFurther, -, -⟩ :=
      argument_ok leftOver comes.stillFree (quiet_of_more more closing trailing rest)
        (show (stop.eat 1).rest.length < bound by omega) (show _ ≤ depth by omega)
    have shorterFurther := skipsFurther.toPasses.length_le
    have gone : next.rest = fillerText [] ++ (further.argument.text ++
        (moreText more ++ (closingText closing trailing ++ rest))) :=
      skipsFurther.toPasses.rest_eq leftOver
    obtain ⟨after, later, closes⟩ := ih count (others + 1) gone skipsFurther.stillFree (by omega)
      (by omega) (by omega)
    have one : Text.size [','] = 1 := rfl
    have position : next.offset = further.start
        (cursor.offset + Text.size (fillerText opening) + Text.size first.text) := by
      rw [skipsFurther.offset, comes.offset, takes.offset, skips.offset, Text.size_append, one,
        Further.start, Nat.add_assoc _ _ 1]
    have width : next.offset + Text.size further.argument.text =
        cursor.offset + Text.size (fillerText opening) + Text.size first.text +
          Text.size further.text := by
      rw [position, further.start_add_size]
    have done := elementsUpTo_of_comma skipped noEnd long read skippedOn noEndOn comma
      skippedFurther single later
    have nothing : next.offset + Text.size (fillerText []) = next.offset := rfl
    rw [skips.offset, nothing, width, position] at done
    refine ⟨after, done, ?_⟩
    have whole := Cursor.Takes.trans skips.toPasses (.trans takes.toPasses (.trans comes.toPasses
      (.trans skipsFurther.toPasses closes)))
    rw [moreText_cons]
    simpa only [fillerText, List.flatMap_nil, List.nil_append, List.append_assoc, List.cons_append]
      using whole

/-- What stands behind the opening parenthesis is read up to the closing one. -/
theorem elementsUntil_ok (context : Context) {list : Enclosed} {cursor : Cursor} {rest : List Char}
    (here : cursor.rest = list.inner ++ rest) (free : cursor.heredocs = [])
    (enough : cursor.rest.length < bound)
    (deep : nestingPerCharacter * list.inner.length ≤ depth) :
    ∃ after, elementsUntil argument ")" (settingAt context bound depth) cursor =
        .ok (list.trees cursor.offset, after) ∧ cursor.Takes list.inner after := by
  cases list with
  | empty inside =>
    rw [Enclosed.inner, List.append_assoc] at here
    obtain ⟨stop, skipped, there, skips⟩ :=
      sign_ok (settingAt .bracketed bound depth) (Or.inr rfl) here free enough
    have sign : stop.rest = [')'] ++ rest := there
    obtain ⟨count, rfl⟩ := Nat.exists_eq_succ_of_ne_zero (Nat.ne_zero_of_lt enough)
    exact ⟨_, elementsUpTo_of_end argument count 0 skipped (stop.sees_of_append sign ")" rfl),
      .trans skips.toPasses (Cursor.eat_takes sign skips.stillFree).1⟩
  | some opening arguments closing trailing =>
    simp only [Enclosed.inner, Arguments.text, List.append_assoc] at here
    have deep' : nestingPerCharacter * (arguments.first.text ++ moreText arguments.more).length ≤
        depth := by
      refine Nat.le_trans (Nat.mul_le_mul_left _ ?_) deep
      simp only [Enclosed.inner, Arguments.text, List.length_append]
      omega
    obtain ⟨after, read, takes⟩ :=
      elementsUpTo_ok bound 0 here free enough enough deep'
    refine ⟨after, read, ?_⟩
    simpa only [Enclosed.inner, Arguments.text, List.append_assoc] using takes

/-- **The arguments of a call in parentheses are read.** -/
theorem bracketedArguments_ok (context : Context) {list : Enclosed} {cursor : Cursor}
    {rest : List Char} (here : cursor.rest = list.text ++ rest) (free : cursor.heredocs = [])
    (enough : cursor.rest.length < bound)
    (deep : nestingPerCharacter * list.text.length ≤ depth) :
    ∃ after, bracketedArguments (settingAt context bound depth) cursor =
        .ok (list.tree.shift cursor.offset, after) ∧ cursor.Takes list.text after := by
  have opens : cursor.rest = ['('] ++ (list.inner ++ rest) := here
  obtain ⟨opened, left⟩ := Cursor.eat_takes opens free
  have width : (cursor.eat ['('].length).rest.length < cursor.rest.length := by
    rw [left, opens, List.length_append]
    simp
  rw [Enclosed.text, List.length_cons, Nat.mul_add] at deep
  obtain ⟨stop, read, takes⟩ := elementsUntil_ok context left
    opened.stillFree (Nat.lt_trans width enough) (Nat.le_trans (Nat.le_add_right _ _) deep)
  obtain ⟨whole, -⟩ := (Cursor.Takes.trans opened.toPasses takes).complete cursor.offset
  refine ⟨stop.complete cursor.offset, ?_, whole⟩
  have inner : inside cursor.offset (ending (Ending.settle cursor.offset)
      (elementsUntil argument ")")) (settingAt context bound depth) (cursor.eat 1) =
        .ok (_, stop) :=
    inside_of_ok (ending_of_ok read)
  have start : (cursor.eat ['('].length).offset = 1 + cursor.offset :=
    opened.offset.trans (Nat.add_comm _ _)
  have tree : list.tree.shift cursor.offset =
      .of .argumentList ⟨cursor.offset, (stop.complete cursor.offset).last⟩
        (list.trees (cursor.eat ['('].length).offset) := by
    rw [start, ← list.shiftAll_trees, ← whole.span_shift]
    rfl
  unfold bracketedArguments
  simp only [bind_apply, position_apply, eat_apply, inner, modify_apply, spanFrom_apply, pure_apply,
    tree]

end Lists

end Reader

end RecipeLint.Ruby
