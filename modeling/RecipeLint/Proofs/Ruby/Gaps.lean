/-
**What separates the parts of a text.**

Blanks, comments and line breaks are described by what stands behind them. Where nothing behind a
part of a text can go on with it, the reader looks ahead, finds nothing and comes back.

* `Blanks`, `Lines` — a text goes on with something after blanks of the line, or of several lines.
* `Quiet` — nothing behind a part of a text goes on with it.
* `Reader.skipLines_ok`, `Reader.skipSpace_ok` — the reader moves to what stands behind.
* `Reader.terminator_of_line`, `Reader.terminator_of_semicolon` — a statement ends there.
-/

import RecipeLint.Proofs.Ruby.Reading

namespace RecipeLint.Ruby

/-! ### Gaps -/

theorem isGap_space : isGap ' ' = true := rfl

/-- A text starts with a token or a line break, or is at its end. -/
def Stands (text : List Char) : Prop :=
  ∀ c ∈ text.head?, (isGap c = true → c = '\n') ∧ c ≠ '#' ∧ c ≠ '\\'

instance (text : List Char) : Decidable (Stands text) :=
  inferInstanceAs (Decidable (∀ c ∈ text.head?, _))

/-- **A text goes on with `next` after blanks and a comment** on its line. -/
inductive Blanks (next : List Char) : List Char → Prop
  | here (stands : Stands next) : Blanks next next
  | blank {c : Char} {text : List Char} (gap : isGap c = true) (sameLine : c ≠ '\n')
      (more : Blanks next text) : Blanks next (c :: text)
  | comment {body : List Char} (line : '\n' ∉ body) (ends : next = [] ∨ next.head? = some '\n') :
      Blanks next ('#' :: (body ++ next))

/-- **A text goes on with `next` after gaps and comments** on any number of lines. -/
inductive Lines (next : List Char) : List Char → Prop
  | last {text : List Char} (gap : Blanks next text) (token : next.head? ≠ some '\n')
      (noBlock : Text.strip? "=begin".toList next = none) : Lines next text
  | line {more text : List Char} (gap : Blanks ('\n' :: more) text) (below : Lines next more) :
      Lines next text

/-- **Nothing can go on with what stands before a text**: it is at its end or starts with a sign
that ends an expression. -/
inductive Halts (listed : Bool) : List Char → Prop
  | ended : Halts listed []
  | line (rest : List Char) : Halts listed ('\n' :: rest)
  | semicolon (rest : List Char) : Halts listed (';' :: rest)
  | parenthesis (rest : List Char) : Halts listed (')' :: rest)
  | comma (separates : listed = true) (rest : List Char) : Halts listed (',' :: rest)

/-- **Nothing behind a part of a text goes on with it**, where a line break is a mere gap, where
the line goes on with a sign that ends an expression, or where the next line is a new one. -/
inductive Quiet (context : Context) : List Char → Prop
  | gaps {next text : List Char} (lines : context.lines = false) (gap : Lines next text)
      (halts : Halts context.listed next) : Quiet context text
  | line {next text : List Char} (lines : context.lines = true) (gap : Blanks next text)
      (token : next.head? ≠ some '\n') (halts : Halts context.listed next) : Quiet context text
  | lineEnd {more follow text : List Char} (lines : context.lines = true)
      (gap : Blanks ('\n' :: more) text) (below : Lines follow more)
      (fresh : Reader.continuesLine follow = false) : Quiet context text

/-- Where a comma may follow as well, no less stands behind. -/
theorem Halts.mono {listed listed' : Bool} {text : List Char}
    (more : listed = true → listed' = true)
    (halts : Halts listed text) : Halts listed' text := by
  cases halts with
  | ended => exact .ended
  | line rest => exact .line rest
  | semicolon rest => exact .semicolon rest
  | parenthesis rest => exact .parenthesis rest
  | comma separates rest => exact .comma (more separates) rest

theorem Quiet.mono {context context' : Context} {text : List Char} (quiet : Quiet context text)
    (same : context'.lines = context.lines)
    (more : context.listed = true → context'.listed = true) : Quiet context' text := by
  cases quiet with
  | gaps lines gap halts => exact .gaps (same.trans lines) gap (halts.mono more)
  | line lines gap token halts => exact .line (same.trans lines) gap token (halts.mono more)
  | lineEnd lines gap below fresh => exact .lineEnd (same.trans lines) gap below fresh

theorem Halts.stands {listed : Bool} {text : List Char} (halts : Halts listed text) :
    Stands text := by
  cases halts <;> intro c member <;> cases member <;> decide

theorem Blanks.stands {next text : List Char} (gap : Blanks next text) : Stands next := by
  induction gap with
  | here stands => exact stands
  | blank _ _ _ ih => exact ih
  | comment _ ends =>
    rcases ends with rfl | newline
    · exact nofun
    · intro c member
      rw [newline] at member
      cases member
      decide

/-- A part of a text that nothing goes on with ends where it seems to end. -/
theorem Blanks.head {next text : List Char} (gap : Blanks next text) :
    text = next ∨ ∃ c ∈ text.head?, isGap c = true ∨ c = '#' := by
  cases gap with
  | here => exact Or.inl rfl
  | @blank c text gap => exact Or.inr ⟨c, rfl, Or.inl gap⟩
  | comment => exact Or.inr ⟨'#', rfl, Or.inr rfl⟩

theorem dropWhile_of_stands {text : List Char} (stands : Stands text)
    (token : text.head? ≠ some '\n') : text.dropWhile isGap = text := by
  cases text with
  | nil => rfl
  | cons c rest =>
    refine List.dropWhile_cons_of_neg fun gap => token ?_
    exact congrArg some ((stands c rfl).1 gap)

/-- What stands behind the gaps of a line. -/
theorem Blanks.ahead {next text : List Char} (gap : Blanks next text) :
    text.dropWhile isGap = next.dropWhile isGap ∨
      ∃ body, '\n' ∉ body ∧ (next = [] ∨ next.head? = some '\n') ∧
        text.dropWhile isGap = '#' :: (body ++ next) := by
  induction gap with
  | here => exact Or.inl rfl
  | @blank c text isBlank _ _ ih => rwa [List.dropWhile_cons_of_pos isBlank]
  | @comment body line ends => exact Or.inr ⟨body, line, ends, rfl⟩

/-- **What stands behind the gaps of several lines**: what they lead to, or a comment. -/
theorem Lines.ahead {follow text : List Char} (gap : Lines follow text) :
    text.dropWhile isGap = follow ∨
      ∃ body more, '\n' ∉ body ∧ (more = [] ∨ more.head? = some '\n') ∧
        text.dropWhile isGap = '#' :: (body ++ more) ∧ Lines follow more := by
  induction gap with
  | @last text gap token noBlock =>
    rcases gap.ahead with same | ⟨body, line, ends, comment⟩
    · rw [dropWhile_of_stands gap.stands token] at same
      exact Or.inl same
    · exact Or.inr ⟨body, follow, line, ends, comment, .last (.here gap.stands) token noBlock⟩
  | @line more text gap below ih =>
    rcases gap.ahead with same | ⟨body, line, ends, comment⟩
    · rw [same]
      exact ih
    · exact Or.inr ⟨body, '\n' :: more, line, ends, comment, .line (.here gap.stands) below⟩

theorem Blanks.of_nil {next : List Char} (gap : Blanks next []) : next = [] := by
  cases gap
  rfl

theorem Lines.stands {follow text : List Char} (gap : Lines follow text) : Stands follow := by
  induction gap with
  | last gap => exact gap.stands
  | line _ _ ih => exact ih

theorem Lines.of_nil {follow : List Char} (gap : Lines follow []) : follow = [] := by
  cases gap with
  | last gap => exact gap.of_nil
  | line gap => cases gap.of_nil

/-! ### Moving over gaps -/

namespace Cursor

/-- A cursor has moved to `next` without passing a token. -/
def Reaches (cursor : Cursor) (next : List Char) (after : Cursor) : Prop :=
  after.rest = next ∧ ∃ passed, cursor.Skips passed after

variable {cursor middle after : Cursor} {next text : List Char}

theorem Reaches.refl (free : cursor.heredocs = []) : cursor.Reaches cursor.rest cursor :=
  ⟨rfl, [], .refl free⟩

theorem Reaches.trans {between : List Char} (before : cursor.Reaches between middle)
    (behind : middle.Reaches next after) : cursor.Reaches next after := by
  obtain ⟨-, first, firstSkips⟩ := before
  obtain ⟨there, second, secondSkips⟩ := behind
  exact ⟨there, first ++ second, firstSkips.trans secondSkips⟩

theorem Reaches.free (reaches : cursor.Reaches next after) : after.heredocs = [] := by
  obtain ⟨-, passed, skips⟩ := reaches
  exact skips.stillFree

theorem Reaches.last (reaches : cursor.Reaches next after) : after.last = cursor.last := by
  obtain ⟨-, passed, skips⟩ := reaches
  exact skips.last

theorem Reaches.length_le (reaches : cursor.Reaches next after) :
    next.length ≤ cursor.rest.length := by
  obtain ⟨rfl, passed, skips⟩ := reaches
  exact skips.toPasses.length_le

/-- What has been passed is what stood before. -/
theorem Reaches.skips {gap : List Char} (reaches : cursor.Reaches next after)
    (here : cursor.rest = gap ++ next) : cursor.Skips gap after := by
  obtain ⟨rfl, passed, skips⟩ := reaches
  have same : passed = gap := List.append_cancel_right (skips.rest.symm.trans here)
  exact same ▸ skips

/-- Passing over one character that is no token. -/
theorem reaches_skip_one {c : Char} {rest : List Char} (here : cursor.rest = c :: rest)
    (free : cursor.heredocs = []) : cursor.Reaches rest (cursor.skip 1) := by
  obtain ⟨skips, left⟩ := skip_skips (show cursor.rest = [c] ++ rest from here) free
  exact ⟨left, [c], skips⟩

/-- Passing over a comment. -/
theorem reaches_comment {body : List Char} (here : cursor.rest = '#' :: (body ++ next))
    (free : cursor.heredocs = []) (line : '\n' ∉ body)
    (ends : next = [] ∨ next.head? = some '\n') : cursor.Reaches next cursor.comment := by
  have run : (cursor.rest.takeWhile (· ≠ '\n')).length = ('#' :: body).length := by
    have stop : next.takeWhile (fun c => decide (c ≠ '\n')) = [] := by
      rcases ends with rfl | newline
      · rfl
      · obtain ⟨rest, rfl⟩ := List.head?_eq_some_iff.mp newline
        rfl
    have all : ∀ c ∈ '#' :: body, decide (c ≠ '\n') = true := by
      intro c member
      refine decide_eq_true ?_
      rintro rfl
      rcases List.mem_cons.mp member with impossible | inside
      · exact absurd impossible (by decide)
      · exact line inside
    rw [here, ← List.cons_append, List.takeWhile_append_of_pos all, stop, List.append_nil]
  obtain ⟨skips, left⟩ := skip_skips (show cursor.rest = ('#' :: body) ++ next from here) free
  unfold comment
  rw [run]
  refine ⟨left, '#' :: body, ⟨⟨skips.rest, skips.offset, ?_, free, free⟩, skips.last⟩⟩
  exact ⟨[_], rfl, by simpa using ⟨_, rfl⟩⟩

theorem isAtLineEnd_of_head (free : cursor.heredocs = []) :
    cursor.isAtLineEnd = decide (cursor.rest.head? = some '\n') := by
  unfold isAtLineEnd
  split
  next rest here => simp [here]
  next rest here => simp [here, free]
  next other _ =>
    cases rest : cursor.rest with
    | nil => rfl
    | cons c more =>
      have differs : c ≠ '\n' := fun same => other more (by rw [rest, same])
      simp [differs]

theorem blanks_of_nil {lines : Bool} (bound : Nat) (here : cursor.rest = []) :
    cursor.blanks lines bound = .ok cursor := by
  cases bound with
  | zero => rfl
  | succ bound => rw [blanks, here]

theorem blanks_of_cons {lines : Bool} {bound : Nat} {c : Char} {rest : List Char}
    (here : cursor.rest = c :: rest) (noEscape : c ≠ '\\') (noComment : c ≠ '#') :
    cursor.blanks lines (bound + 1) =
      if isGap c && !cursor.isAtLineEnd then cursor.skip 1 |>.blanks lines bound
      else .ok cursor := by
  rw [blanks, here]
  split
  next same => cases same
  next same => exact absurd (List.cons.inj same).1 noEscape
  next same => exact absurd (List.cons.inj same).1 noEscape
  next same => exact absurd (List.cons.inj same).1 noEscape
  next same => exact absurd (List.cons.inj same).1 noEscape
  next same => exact absurd (List.cons.inj same).1 noComment
  next same =>
    obtain ⟨rfl, rfl⟩ := List.cons.inj same
    rfl

theorem blanks_of_stands {lines : Bool} (bound : Nat) (stands : Stands cursor.rest)
    (free : cursor.heredocs = []) : cursor.blanks lines bound = .ok cursor := by
  cases here : cursor.rest with
  | nil => exact blanks_of_nil bound here
  | cons c rest =>
    obtain ⟨lineEnd, noComment, noEscape⟩ := stands c (by rw [here]; rfl)
    cases bound with
    | zero => rfl
    | succ bound =>
      rw [blanks_of_cons here noEscape noComment, isAtLineEnd_of_head free, here, List.head?_cons]
      refine if_neg fun passes => ?_
      simp only [Bool.and_eq_true, Bool.not_eq_true', decide_eq_false_iff_not] at passes
      exact passes.2 (congrArg some (lineEnd passes.1))

/-- **Blanks are passed up to what stands behind them.** -/
theorem blanks_ok (lines : Bool) {bound : Nat} (gap : Blanks next text) (here : cursor.rest = text)
    (free : cursor.heredocs = []) (enough : text.length < bound) :
    ∃ after, cursor.blanks lines bound = .ok after ∧ cursor.Reaches next after := by
  induction gap generalizing cursor bound with
  | here stands =>
    exact ⟨cursor, blanks_of_stands bound (here ▸ stands) free, here ▸ Reaches.refl free⟩
  | @blank c text isBlank sameLine more ih =>
    obtain ⟨bound, rfl⟩ := Nat.exists_eq_succ_of_ne_zero (Nat.ne_zero_of_lt enough)
    have step := reaches_skip_one here free
    obtain ⟨after, done, reaches⟩ := ih step.1 step.free (Nat.lt_of_succ_lt_succ enough)
    have noEscape : c ≠ '\\' := by
      rintro rfl
      exact absurd isBlank (by decide)
    have noComment : c ≠ '#' := by
      rintro rfl
      exact absurd isBlank (by decide)
    have inLine : cursor.isAtLineEnd = false := by
      rw [isAtLineEnd_of_head free, here]
      simpa using sameLine
    refine ⟨after, ?_, step.trans reaches⟩
    rw [blanks_of_cons here noEscape noComment, isBlank, inLine]
    exact done
  | @comment body line ends =>
    obtain ⟨bound, rfl⟩ := Nat.exists_eq_succ_of_ne_zero (Nat.ne_zero_of_lt enough)
    have step := reaches_comment here free line ends
    have stands : Stands cursor.comment.rest := by
      rw [step.1]
      exact (Blanks.comment line ends).stands
    refine ⟨cursor.comment, ?_, step⟩
    rw [blanks, here]
    exact blanks_of_stands bound stands step.free

end Cursor

namespace Reader

variable (setting : Setting) {cursor : Cursor} {next text : List Char}

theorem skipGaps_ok (lines : Bool) (gap : Blanks next text) (here : cursor.rest = text)
    (free : cursor.heredocs = []) (enough : text.length < setting.bound) :
    ∃ after, skipGaps lines setting cursor = .ok ((), after) ∧ cursor.Reaches next after := by
  obtain ⟨after, done, reaches⟩ := Cursor.blanks_ok lines gap here free enough
  refine ⟨after, ?_, reaches⟩
  simp only [skipGaps, bind_apply, get_apply, bound_apply, lift_apply, done, set_apply]

/-- Line breaks are passed up to what stands behind them. -/
theorem skipLinesUpTo_ok (blocks : Bool) (bound : Nat) (gap : Lines next text)
    (here : cursor.rest = text) (free : cursor.heredocs = [])
    (enough : text.length < setting.bound) (often : text.length < bound) :
    ∃ after, skipLinesUpTo blocks bound setting cursor = .ok ((), after) ∧
      cursor.Reaches next after := by
  induction gap generalizing cursor bound with
  | @last text gap token noBlock =>
    obtain ⟨bound, rfl⟩ := Nat.exists_eq_succ_of_ne_zero (Nat.ne_zero_of_lt often)
    obtain ⟨after, skipped, reaches⟩ := skipGaps_ok setting false gap here free enough
    have inLine : after.isAtLineEnd = false := by
      rw [Cursor.isAtLineEnd_of_head reaches.free, reaches.1]
      exact decide_eq_false token
    have noBlock' : after.sees "=begin" = false := by
      rw [Cursor.sees, reaches.1, noBlock]
      rfl
    refine ⟨after, ?_, reaches⟩
    simp only [skipLinesUpTo, bind_apply, skipped, get_apply, inLine, noBlock', ite_apply,
      Bool.and_false, pure_apply]
    rfl
  | @line more text gap below ih =>
    obtain ⟨bound, rfl⟩ := Nat.exists_eq_succ_of_ne_zero (Nat.ne_zero_of_lt often)
    obtain ⟨stop, skipped, reaches⟩ := skipGaps_ok setting false gap here free enough
    have atEnd : stop.isAtLineEnd = true := by
      rw [Cursor.isAtLineEnd_of_head reaches.free, reaches.1]
      rfl
    have step := Cursor.reaches_skip_one reaches.1 reaches.free
    have shorter := reaches.length_le
    rw [here] at shorter
    simp only [List.length_cons] at shorter
    obtain ⟨after, done, onward⟩ := ih bound step.1 step.free (by omega) (by omega)
    refine ⟨after, ?_, reaches.trans (step.trans onward)⟩
    simp only [skipLinesUpTo, bind_apply, skipped, get_apply, atEnd, reaches.free, ite_apply,
      List.isEmpty_nil, set_apply, if_true]
    exact done

/-- **The reader moves over line breaks to the next token.** -/
theorem skipLines_ok (gap : Lines next text) (here : cursor.rest = text)
    (free : cursor.heredocs = []) (enough : text.length < setting.bound) :
    ∃ after, skipLines setting cursor = .ok ((), after) ∧ cursor.Reaches next after := by
  obtain ⟨after, done, reaches⟩ :=
    skipLinesUpTo_ok setting true setting.bound gap here free enough enough
  exact ⟨after, by simp only [skipLines, bind_apply, bound_apply, done], reaches⟩

/-- The reader moves to the next token of the line. -/
theorem skipSpace_of_line (lines : setting.context.lines = true) (gap : Blanks next text)
    (token : next.head? ≠ some '\n') (here : cursor.rest = text) (free : cursor.heredocs = [])
    (enough : text.length < setting.bound) :
    ∃ stop, skipSpace setting cursor = .ok ((), stop) ∧ cursor.Reaches next stop := by
  obtain ⟨stop, done, reaches⟩ := skipGaps_ok setting true gap here free enough
  have inLine : stop.isAtLineEnd = false := by
    rw [Cursor.isAtLineEnd_of_head reaches.free, reaches.1]
    exact decide_eq_false token
  refine ⟨stop, ?_, reaches⟩
  simp only [skipSpace, skipBlanks, bind_apply, context_apply, lines, ite_apply, done, get_apply,
    inLine, pure_apply]
  rfl

/-- **Where nothing goes on with what has been read, the reader finds the sign that ends it.** -/
theorem skipSpace_ok {context : Context} (quiet : Quiet context text)
    (same : setting.context.lines = context.lines) (here : cursor.rest = text)
    (free : cursor.heredocs = []) (enough : text.length < setting.bound) :
    ∃ next stop, skipSpace setting cursor = .ok ((), stop) ∧ cursor.Reaches next stop ∧
      Halts context.listed next := by
  cases quiet with
  | @gaps next _ lines gap halts =>
    obtain ⟨stop, done, reaches⟩ := skipLines_ok setting gap here free enough
    refine ⟨next, stop, ?_, reaches, halts⟩
    simp only [skipSpace, bind_apply, context_apply, same, lines, ite_apply, done]
    rfl
  | @line next _ lines gap token halts =>
    obtain ⟨stop, done, reaches⟩ :=
      skipSpace_of_line setting (same.trans lines) gap token here free enough
    exact ⟨next, stop, done, reaches, halts⟩
  | @lineEnd more follow _ lines gap below fresh =>
    obtain ⟨stop, done, reaches⟩ := skipGaps_ok setting true gap here free enough
    have atEnd : stop.isAtLineEnd = true := by
      rw [Cursor.isAtLineEnd_of_head reaches.free, reaches.1]
      rfl
    have shorter := reaches.length_le
    rw [here] at shorter
    have whole : Lines follow ('\n' :: more) :=
      .line (.here (Halts.line more : Halts false _).stands) below
    obtain ⟨ahead, looked, found⟩ :=
      skipLinesUpTo_ok setting false setting.bound whole
        reaches.1 reaches.free (by omega) (by omega)
    refine ⟨'\n' :: more, stop, ?_, reaches, .line more⟩
    simp only [skipSpace, skipBlanks, bind_apply, context_apply, same, lines, ite_apply, done,
      get_apply, atEnd, bound_apply, looked, found.1, fresh, set_apply]
    rfl

/-! ### Ends of statements -/

/-- What ends a statement is looked for over lines of comments. -/
theorem lineBreakUpTo_ok (bound : Nat) (line : text = [] ∨ text.head? = some '\n')
    (below : Lines next text) (fresh : continuesLine next = false) (here : cursor.rest = text)
    (free : cursor.heredocs = []) (enough : text.length < setting.bound)
    (often : text.length < bound) :
    ∃ found after, lineBreakUpTo bound setting cursor = .ok (found, after) ∧
      (∃ passed, cursor.Passes passed after) ∧ Lines next after.rest ∧
      (found = false → next = []) ∧ (found = true → after.last = after.offset) := by
  induction bound generalizing cursor text with
  | zero => omega
  | succ bound ih =>
    rcases line with rfl | newline
    · -- At the end of the text there is no line break to take.
      have inLine : cursor.isAtLineEnd = false := by
        rw [Cursor.isAtLineEnd_of_head free, here]
        rfl
      refine ⟨false, cursor, ?_, ⟨[], (Cursor.Skips.refl free).toPasses⟩, here ▸ below, ?_,
        fun found => Bool.noConfusion found⟩
      · simp only [lineBreakUpTo, bind_apply, get_apply, inLine, ite_apply, pure_apply]
        rfl
      · exact fun _ => below.of_nil
    · have atEnd : cursor.isAtLineEnd = true := by
        rw [Cursor.isAtLineEnd_of_head free, here]
        exact decide_eq_true newline
      have split : cursor.rest = cursor.rest.takeWhile isGap ++ cursor.rest.dropWhile isGap :=
        List.takeWhile_append_dropWhile.symm
      obtain ⟨skips, left⟩ := Cursor.skip_skips split free
      have ahead : cursor.rest.drop (cursor.rest.takeWhile isGap).length =
          cursor.rest.dropWhile isGap := left
      rw [here] at skips left ahead
      rcases below.ahead with same | ⟨body, more, inBody, ends, comment, later⟩
      · have noComment : next.head? ≠ some '#' := by
          intro starts
          obtain ⟨-, other, -⟩ := below.stands '#' (by rw [starts]; rfl)
          exact other rfl
        refine ⟨true, { cursor with last := cursor.offset }, ?_,
          ⟨[], ⟨rfl, rfl, ⟨[], rfl, List.forall_mem_nil _⟩, free, free⟩⟩, here ▸ below,
          fun found => Bool.noConfusion found, fun _ => rfl⟩
        simp only [lineBreakUpTo, bind_apply, get_apply, atEnd, free, here, ahead, same, noComment,
          fresh, ite_apply, List.isEmpty_nil, set_apply, pure_apply]
        rfl
      · -- A comment follows: the line break behind it is the one that counts.
        rw [comment] at left
        have gap : Blanks more ('#' :: (body ++ more)) := .comment inBody ends
        have short : ('#' :: (body ++ more)).length < text.length := by
          rw [← comment]
          obtain ⟨c, rest⟩ := text
          · cases newline
          · cases newline
            rw [List.dropWhile_cons_of_pos (by decide), List.length_cons]
            exact Nat.lt_succ_of_le (List.dropWhile_sublist _).length_le
        obtain ⟨stop, skipped, reaches⟩ :=
          skipGaps_ok setting true gap left skips.stillFree (by omega)
        have shorter : more.length < text.length := by
          simp only [List.length_cons, List.length_append] at short
          omega
        obtain ⟨found, after, done, ⟨passed, passes⟩, below', atLast⟩ :=
          ih ends later reaches.1 reaches.free (by omega) (by omega)
        obtain ⟨-, gone, onward⟩ := reaches
        refine ⟨found, after, ?_,
          ⟨_, skips.toPasses.trans (onward.toPasses.trans passes)⟩, below', atLast⟩
        simp only [lineBreakUpTo, bind_apply, get_apply, atEnd, free, here, ahead, comment,
          ite_apply, List.isEmpty_nil, set_apply, skipBlanks, skipped, done]
        rfl

/-- **A semicolon ends a statement.** -/
theorem terminator_of_semicolon {rest : List Char} (gap : Blanks (';' :: rest) text)
    (here : cursor.rest = text) (free : cursor.heredocs = [])
    (enough : text.length < setting.bound) :
    ∃ start after, terminator setting cursor = .ok (some start, after) ∧
      (∃ passed, cursor.Takes passed after) ∧ after.rest = rest := by
  obtain ⟨stop, skipped, reaches⟩ := skipGaps_ok setting true gap here free enough
  obtain ⟨there, passed, skips⟩ := reaches
  obtain ⟨takes, left⟩ :=
    Cursor.eat_takes (show stop.rest = [';'] ++ rest from there) skips.stillFree
  have sign : stop.sees ";" = true := by
    rw [Cursor.sees, there]
    rfl
  refine ⟨stop.offset, stop.eat 1, ?_, ⟨_, .trans skips.toPasses takes⟩, left⟩
  simp only [terminator, skipBlanks, bind_apply, skipped, position_apply, accept_apply, sign,
    pure_apply, if_true]
  rfl

/-- **A line break ends a statement** if the next line does not go on with it, and at the end of the
text there is none. -/
theorem terminator_of_line {follow : List Char} (gap : Blanks next text)
    (line : next = [] ∨ next.head? = some '\n') (below : Lines follow next)
    (fresh : continuesLine follow = false) (here : cursor.rest = text) (free : cursor.heredocs = [])
    (enough : text.length < setting.bound) :
    ∃ found after, terminator setting cursor = .ok (found, after) ∧
      (∃ passed, cursor.Passes passed after) ∧ Lines follow after.rest ∧
      (found = none → follow = []) := by
  obtain ⟨stop, skipped, there, passed, skips⟩ := skipGaps_ok setting true gap here free enough
  have noSign : stop.sees ";" = false := by
    rw [Cursor.sees, there]
    rcases line with rfl | newline
    · rfl
    · obtain ⟨rest, rfl⟩ := List.head?_eq_some_iff.mp newline
      rfl
  have shorter := skips.toPasses.length_le
  rw [there, here] at shorter
  obtain ⟨found, after, done, ⟨gone, passes⟩, below', ended, -⟩ :=
    lineBreakUpTo_ok setting setting.bound line below fresh there
      skips.stillFree (by omega) (by omega)
  cases found with
  | true =>
    refine ⟨some after.last, after, ?_, ⟨_, skips.toPasses.trans passes⟩, below',
      fun none => absurd none (Option.some_ne_none _)⟩
    simp only [terminator, skipBlanks, bind_apply, skipped, position_apply, accept_apply, noSign,
      attempt_apply, bound_apply, done, ite_apply, get_apply, pure_apply, Bool.false_eq_true,
      if_false, if_true]
  | false =>
    refine ⟨none, stop, ?_, ⟨_, skips.toPasses⟩, there ▸ below, fun _ => ended rfl⟩
    simp only [terminator, skipBlanks, bind_apply, skipped, position_apply, accept_apply, noSign,
      attempt_apply, bound_apply, done, ite_apply, get_apply, pure_apply, Bool.false_eq_true,
      if_false]

end Reader

end RecipeLint.Ruby
