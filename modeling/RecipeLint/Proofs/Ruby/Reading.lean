/-
**How a reader goes over a text.**

A reader that succeeds yields a value and leaves the cursor behind the part of the text that it
took. Nothing else about the cursor matters for what is read next, but for the comments that were
put aside on the way; here documents are left out of account.

* `Reader.bind_apply` and its like — what the elementary readers do to a cursor.
* `Cursor.Passes` — a cursor has moved over a part of the text.
* `Cursor.Takes` — and the last token ends with it.
-/

import RecipeLint.Proofs.Ruby.Following
import RecipeLint.Ruby.Statement

namespace RecipeLint.Ruby

/-! ### Cursors -/

/-- A comment that has been put aside. -/
def Tree.IsComment (tree : Tree) : Prop :=
  ∃ span, tree = .leaf .comment span

namespace Cursor

/-- **A cursor has moved over a part of the text**, and only comments have been put aside. -/
structure Passes (cursor : Cursor) (text : List Char) (after : Cursor) : Prop where
  rest : cursor.rest = text ++ after.rest
  offset : after.offset = cursor.offset + Text.size text
  extras : ∃ comments, after.extras = comments ++ cursor.extras ∧
    ∀ extra ∈ comments, extra.IsComment
  free : cursor.heredocs = []
  stillFree : after.heredocs = []

/-- **A cursor has moved over a part of the text that ends with a token.** -/
structure Takes (cursor : Cursor) (text : List Char) (after : Cursor) : Prop
    extends Passes cursor text after where
  last : after.last = after.offset

/-- A cursor has moved over a part of the text without a token. -/
structure Skips (cursor : Cursor) (text : List Char) (after : Cursor) : Prop
    extends Passes cursor text after where
  last : after.last = cursor.last

variable {cursor middle after : Cursor} {first second text rest : List Char}

theorem Passes.trans (before : cursor.Passes first middle) (behind : middle.Passes second after) :
    cursor.Passes (first ++ second) after := by
  obtain ⟨comments, firstExtras, firstComments⟩ := before.extras
  obtain ⟨others, secondExtras, secondComments⟩ := behind.extras
  refine ⟨?_, ?_, ⟨others ++ comments, ?_, ?_⟩, before.free, behind.stillFree⟩
  · rw [before.rest, behind.rest, List.append_assoc]
  · rw [behind.offset, before.offset, Text.size_append, Nat.add_assoc]
  · rw [secondExtras, firstExtras, List.append_assoc]
  · exact List.forall_mem_append.mpr ⟨secondComments, firstComments⟩

theorem Passes.rest_eq (passes : cursor.Passes text after) (here : cursor.rest = text ++ rest) :
    after.rest = rest :=
  List.append_cancel_left (passes.rest.symm.trans here)

theorem Skips.refl (free : cursor.heredocs = []) : cursor.Skips [] cursor :=
  ⟨⟨rfl, rfl, ⟨[], rfl, List.forall_mem_nil _⟩, free, free⟩, rfl⟩

theorem Skips.trans (before : cursor.Skips first middle) (behind : middle.Skips second after) :
    cursor.Skips (first ++ second) after :=
  ⟨before.toPasses.trans behind.toPasses, behind.last.trans before.last⟩

theorem Takes.trans (before : cursor.Passes first middle) (behind : middle.Takes second after) :
    cursor.Takes (first ++ second) after :=
  ⟨before.trans behind.toPasses, behind.last⟩

/-- What has been taken reaches from the cursor to the end of the last token. -/
theorem Takes.span_shift (takes : cursor.Takes text after) :
    Span.shift cursor.offset ⟨0, Text.size text⟩ = ⟨cursor.offset, after.last⟩ := by
  rw [takes.last, takes.offset, Nat.add_comm]
  exact congrArg (Span.mk · _) (Nat.zero_add _)

theorem Passes.length_le (passes : cursor.Passes text after) :
    after.rest.length ≤ cursor.rest.length := by
  rw [passes.rest, List.length_append]
  exact Nat.le_add_left _ _

theorem skip_skips (here : cursor.rest = text ++ rest) (free : cursor.heredocs = []) :
    cursor.Skips text (cursor.skip text.length) ∧ (cursor.skip text.length).rest = rest := by
  have left : cursor.rest.drop text.length = rest := by rw [here, List.drop_left]
  have passed : cursor.rest.take text.length = text := by rw [here, List.take_left]
  refine ⟨⟨⟨?_, ?_, ⟨[], rfl, List.forall_mem_nil _⟩, free, free⟩, rfl⟩, left⟩
  · rw [skip, left, here]
  · rw [skip, passed]

theorem eat_takes (here : cursor.rest = text ++ rest) (free : cursor.heredocs = []) :
    cursor.Takes text (cursor.eat text.length) ∧ (cursor.eat text.length).rest = rest := by
  obtain ⟨skips, left⟩ := skip_skips here free
  exact ⟨⟨⟨skips.rest, skips.offset, skips.extras, free, free⟩, rfl⟩, left⟩

/-- Only what is noted about completed constructs changes where one ends. -/
theorem complete_eq (start : Nat) :
    cursor.complete start = { cursor with completed := (cursor.complete start).completed } := by
  unfold complete
  simp only
  split
  · rfl
  · split <;> rfl

theorem Passes.complete (passes : cursor.Passes text after) (start : Nat) :
    cursor.Passes text (after.complete start) ∧ (after.complete start).rest = after.rest := by
  rw [complete_eq]
  exact ⟨⟨passes.rest, passes.offset, passes.extras, passes.free, passes.stillFree⟩, rfl⟩

theorem Takes.complete (takes : cursor.Takes text after) (start : Nat) :
    cursor.Takes text (after.complete start) ∧ (after.complete start).rest = after.rest := by
  obtain ⟨passes, left⟩ := takes.toPasses.complete start
  refine ⟨⟨passes, ?_⟩, left⟩
  rw [complete_eq]
  exact takes.last

/-- Whether the text goes on with a sign is told by its first characters. -/
theorem sees_of_append (here : cursor.rest = text ++ rest) (expected : String)
    (same : expected.toList = text) : cursor.sees expected = true := by
  rw [sees, here, same, Text.strip?_append]
  rfl

end Cursor

/-! ### Elementary readers -/

namespace Reader

variable {α β : Type} {setting : Setting} {cursor after : Cursor}

@[simp] theorem bind_apply (first : Reader α) (next : α → Reader β) :
    (first >>= next) setting cursor =
      match first setting cursor with
      | .error failure => .error failure
      | .ok (value, after) => next value setting after := by
  show (Bind.bind (first setting cursor) _ : Except Failure _) = _
  cases first setting cursor <;> rfl

@[simp] theorem map_apply (change : α → β) (reader : Reader α) :
    (change <$> reader) setting cursor =
      match reader setting cursor with
      | .error failure => .error failure
      | .ok (value, after) => .ok (change value, after) := by
  show (Functor.map _ (reader setting cursor) : Except Failure _) = _
  cases reader setting cursor <;> rfl

@[simp] theorem pure_apply (value : α) :
    (pure value : Reader α) setting cursor = .ok (value, cursor) := rfl

@[simp] theorem get_apply : (get : Reader Cursor) setting cursor = .ok (cursor, cursor) := rfl

@[simp] theorem set_apply (next : Cursor) :
    (set next : Reader PUnit) setting cursor = .ok (⟨⟩, next) := rfl

@[simp] theorem read_apply : (read : Reader Setting) setting cursor = .ok (setting, cursor) := rfl

@[simp] theorem modify_apply (change : Cursor → Cursor) :
    (modify change : Reader PUnit) setting cursor = .ok (⟨⟩, change cursor) := rfl

@[simp] theorem lift_apply (result : Except Failure α) :
    (liftM result : Reader α) setting cursor =
      match result with
      | .error failure => .error failure
      | .ok value => .ok (value, cursor) := by
  cases result <;> rfl

@[simp] theorem ite_apply (condition : Prop) [Decidable condition] (first second : Reader α) :
    (if condition then first else second) setting cursor =
      if condition then first setting cursor else second setting cursor := by
  split <;> rfl

@[simp] theorem context_apply : context setting cursor = .ok (setting.context, cursor) := rfl

@[simp] theorem bound_apply : bound setting cursor = .ok (setting.bound, cursor) := rfl

@[simp] theorem position_apply : position setting cursor = .ok (cursor.offset, cursor) := rfl

@[simp] theorem peek_apply : peek setting cursor = .ok (cursor.rest.head?, cursor) := rfl

@[simp] theorem spanFrom_apply (start : Nat) :
    spanFrom start setting cursor = .ok (⟨start, cursor.last⟩, cursor) := rfl

@[simp] theorem sees_apply (expected : String) :
    sees expected setting cursor = .ok (cursor.sees expected, cursor) := rfl

@[simp] theorem seesWord_apply (expected : String) :
    seesWord expected setting cursor = .ok (cursor.seesWord expected, cursor) := rfl

@[simp] theorem eat_apply (count : Nat) : eat count setting cursor = .ok (⟨⟩, cursor.eat count) :=
  rfl

@[simp] theorem leaf_apply (kind : Kind) (count : Nat) :
    leaf kind count setting cursor =
      .ok (.leaf kind ⟨cursor.offset, (cursor.eat count).last⟩, cursor.eat count) := rfl

@[simp] theorem accept_apply (expected : String) :
    accept expected setting cursor =
      if cursor.sees expected then .ok (true, cursor.eat expected.length)
      else .ok (false, cursor) := by
  unfold accept
  simp only [bind_apply, sees_apply, ite_apply, eat_apply, pure_apply]

@[simp] theorem within_apply (change : Context → Context) (reader : Reader α) :
    within change reader setting cursor =
      reader { setting with context := change setting.context } cursor := rfl

@[simp] theorem descend_apply (goal : Goal) :
    descend goal setting cursor = setting.descent goal setting.context cursor := rfl

@[simp] theorem attempt_apply (reader : Reader (Option α)) :
    attempt reader setting cursor =
      match reader setting cursor with
      | .error failure => .error failure
      | .ok (some value, after) => .ok (some value, after)
      | .ok (none, _) => .ok (none, cursor) := by
  unfold attempt
  simp only [bind_apply, get_apply]
  cases reader setting cursor with
  | error failure => rfl
  | ok result =>
    obtain ⟨value, after⟩ := result
    cases value <;> rfl

/-- How an early end is seen is of no account where the text does not end. -/
theorem ending_of_ok {change : Ending → Ending} {reader : Reader α} {value : α}
    (read : reader setting cursor = .ok (value, after)) :
    ending change reader setting cursor = .ok (value, after) := by
  rw [ending, read]

theorem inside_of_ok {start : Nat} {reader : Reader α} {value : α}
    (read : reader setting cursor = .ok (value, after)) :
    inside start reader setting cursor = .ok (value, after) := by
  rw [inside, read]

end Reader

end RecipeLint.Ruby
