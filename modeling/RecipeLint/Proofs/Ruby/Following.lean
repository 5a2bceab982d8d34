/-
**Moving a part of a text, and remarking on it.**

What is read of a part of a text is read again where the part stands further to the right, and the
comments in it are put into its tree when all has been read.

* `Tree.shift` — a concrete tree further to the right.
* `Tree.Follows` — a concrete tree is another one further to the right, with comments put into it.
* `Tree.Follows.insert` — one more comment may be put into it.
* `Tree.Follows.locals` — it binds the same names.
-/

import RecipeLint.Proofs.Patch.Acceptance
import RecipeLint.Ruby.Lowering

namespace RecipeLint

/-- A range further to the right. -/
def Span.shift (distance : Nat) (span : Span) : Span :=
  ⟨span.start + distance, span.stop + distance⟩

namespace Ruby

/-! ### Places of concrete trees -/

mutual

/-- A concrete tree further to the right. -/
def Tree.shift (distance : Nat) : Tree → Tree
  | .node role kind span parts => .node role kind (span.shift distance) (shiftAll distance parts)

/-- Concrete trees further to the right. -/
def Tree.shiftAll (distance : Nat) : List Tree → List Tree
  | [] => []
  | tree :: trees => shift distance tree :: shiftAll distance trees

end

theorem Span.shift_shift (span : Span) (first second : Nat) :
    (span.shift first).shift second = span.shift (first + second) := by
  simp only [Span.shift, Nat.add_assoc]

mutual

theorem Tree.shift_shift (first second : Nat) : ∀ tree : Tree,
    (tree.shift first).shift second = tree.shift (first + second)
  | .node role kind span parts => by
    rw [shift, shift, shift, shiftAll_shiftAll first second parts, Span.shift_shift]

theorem Tree.shiftAll_shiftAll (first second : Nat) : ∀ trees : List Tree,
    shiftAll second (shiftAll first trees) = shiftAll (first + second) trees
  | [] => rfl
  | tree :: trees => by
    rw [shiftAll, shiftAll, shiftAll, shift_shift first second tree,
      shiftAll_shiftAll first second trees]

end

/-- A comment, in which only comments may stand. -/
inductive Tree.IsRemark : Tree → Prop
  | comment (span : Span) {parts : List Tree} (each : ∀ part ∈ parts, IsRemark part) :
      IsRemark (.node none .comment span parts)

mutual

/-- **A concrete tree is another one further to the right, with comments put into it.** -/
inductive Tree.Follows (distance : Nat) : Tree → Tree → Prop
  | node {role : Option Role} {kind : Kind} {span : Span} {parts others : List Tree}
      (each : AllFollow distance parts others) :
      Follows distance (.node role kind span parts) (.node role kind (span.shift distance) others)

/-- Concrete trees are other ones further to the right, with comments put in between. -/
inductive Tree.AllFollow (distance : Nat) : List Tree → List Tree → Prop
  | nil : AllFollow distance [] []
  | cons {tree other : Tree} {trees others : List Tree} (first : Follows distance tree other)
      (more : AllFollow distance trees others) :
      AllFollow distance (tree :: trees) (other :: others)
  | remark {other : Tree} {trees others : List Tree} (isRemark : other.IsRemark)
      (more : AllFollow distance trees others) : AllFollow distance trees (other :: others)

end

namespace Tree

mutual

theorem follows_shift (distance : Nat) : ∀ tree : Tree, tree.Follows distance (tree.shift distance)
  | .node _ _ _ parts => .node (allFollow_shift distance parts)

theorem allFollow_shift (distance : Nat) :
    ∀ trees : List Tree, AllFollow distance trees (shiftAll distance trees)
  | [] => .nil
  | tree :: trees => .cons (follows_shift distance tree) (allFollow_shift distance trees)

end

mutual

theorem follows_refl : ∀ tree : Tree, tree.Follows 0 tree
  | .node _ _ _ parts => .node (allFollow_refl parts)

theorem allFollow_refl : ∀ trees : List Tree, AllFollow 0 trees trees
  | [] => .nil
  | tree :: trees => .cons (follows_refl tree) (allFollow_refl trees)

end

mutual

/-- A tree that follows a moved one follows the one that was moved. -/
theorem Follows.of_shift {first second : Nat} : ∀ {tree other : Tree},
    (tree.shift first).Follows second other → tree.Follows (first + second) other
  | .node _ _ span _, _, .node each =>
    Span.shift_shift span first second ▸ .node (AllFollow.of_shift each)

theorem AllFollow.of_shift {first second : Nat} : ∀ {trees others : List Tree},
    AllFollow second (shiftAll first trees) others → AllFollow (first + second) trees others
  | [], [], .nil => .nil
  | [], _ :: _, .remark isRemark more => .remark isRemark (AllFollow.of_shift more)
  | _ :: _, _ :: _, .cons here more => .cons (Follows.of_shift here) (AllFollow.of_shift more)
  | _ :: _, _ :: _, .remark isRemark more => .remark isRemark (AllFollow.of_shift more)

end

/-! ### Comments -/

mutual

theorem IsRemark.insert {extra : Tree} (remark : extra.IsRemark) :
    ∀ {tree : Tree}, tree.IsRemark → (Tree.insert extra tree).IsRemark
  | .node _ _ _ parts, .comment span each => by
    rw [Tree.insert]
    exact .comment span (forall_insertAmong remark parts each)

theorem forall_insertAmong {extra : Tree} (remark : extra.IsRemark) :
    ∀ parts : List Tree, (∀ part ∈ parts, part.IsRemark) →
      ∀ part ∈ insertAmong extra parts, part.IsRemark
  | [], _ => List.forall_mem_singleton.mpr remark
  | part :: parts, each => by
    obtain ⟨here, others⟩ := List.forall_mem_cons.mp each
    rw [insertAmong]
    split
    · exact List.forall_mem_cons.mpr ⟨IsRemark.insert remark here, others⟩
    · split
      · exact List.forall_mem_cons.mpr ⟨remark, each⟩
      · exact List.forall_mem_cons.mpr ⟨here, forall_insertAmong remark parts others⟩

end

mutual

/-- **One more comment may be put into a tree.** -/
theorem Follows.insert {distance : Nat} {extra : Tree} (remark : extra.IsRemark) :
    ∀ {tree other : Tree}, tree.Follows distance other →
      tree.Follows distance (Tree.insert extra other)
  | _, .node _ _ _ others, .node each => by
    rw [Tree.insert]
    exact .node (AllFollow.insert remark each)

theorem AllFollow.insert {distance : Nat} {extra : Tree} (remark : extra.IsRemark) :
    ∀ {trees others : List Tree}, AllFollow distance trees others →
      AllFollow distance trees (insertAmong extra others)
  | _, [], .nil => .remark remark .nil
  | _, other :: others, .cons first more => by
    rw [insertAmong]
    split
    · exact .cons (Follows.insert remark first) more
    · split
      · exact .remark remark (.cons first more)
      · exact .cons first (AllFollow.insert remark more)
  | _, other :: others, .remark isRemark more => by
    rw [insertAmong]
    split
    · exact .remark (IsRemark.insert remark isRemark) more
    · split
      · exact .remark remark (.remark isRemark more)
      · exact .remark isRemark (AllFollow.insert remark more)

end

end Tree

/-- **All ranges of a concrete tree are parts of a text.** -/
inductive Tree.Within (text : List Char) : Tree → Prop
  | node {role : Option Role} {kind : Kind} {span : Span} {parts : List Tree}
      (cuts : span.CutsOut text) (each : ∀ part ∈ parts, Within text part) :
      Within text (.node role kind span parts)

/-- A moved range is a part of the text around the one that it was in. -/
theorem cutsOut_shift {before text after : List Char} {span : Span} (cuts : span.CutsOut text) :
    (span.shift (Text.size before)).CutsOut (before ++ (text ++ after)) := by
  obtain ⟨front, inside, rest, rfl, startAt, stopAt⟩ := cuts
  refine ⟨before ++ front, inside, rest ++ after, by simp only [List.append_assoc], ?_, ?_⟩
  · rw [Text.size_append, startAt, Nat.add_comm]
    rfl
  · show _ = span.stop + Text.size before
    rw [Text.size_append, ← stopAt]
    omega

mutual

theorem Tree.Within.shift {before text after : List Char} : ∀ {tree : Tree}, tree.Within text →
    (tree.shift (Text.size before)).Within (before ++ (text ++ after))
  | .node _ _ _ _, .node cuts each => .node (cutsOut_shift cuts) (withinAll_shift each)

theorem Tree.withinAll_shift {before text after : List Char} : ∀ {trees : List Tree},
    (∀ tree ∈ trees, tree.Within text) →
      ∀ tree ∈ Tree.shiftAll (Text.size before) trees, tree.Within (before ++ (text ++ after))
  | [], _ => nofun
  | tree :: trees, each => by
    obtain ⟨here, others⟩ := List.forall_mem_cons.mp each
    exact List.forall_mem_cons.mpr ⟨here.shift, withinAll_shift others⟩

end

theorem Tree.Within.append {text : List Char} {tree : Tree} (within : tree.Within text)
    (after : List Char) : tree.Within (text ++ after) := by
  induction within with
  | node cuts _ ih =>
    obtain ⟨front, inside, rest, rfl, startAt, stopAt⟩ := cuts
    exact .node ⟨front, inside, rest ++ after, by simp only [List.append_assoc], startAt, stopAt⟩ ih

theorem Tree.Within.as {text : List Char} {tree : Tree} (within : tree.Within text) (role : Role) :
    (tree.as role).Within text := by
  cases within with
  | node cuts each => exact .node cuts each

/-- The text of the whole range of a text. -/
theorem textOf_self (text : List Char) : textOf text ⟨0, Text.size text⟩ = text := by
  have whole := Text.slice?_append [] text []
  have length : Text.size ([] : List Char) + Text.size text = Text.size text := Nat.zero_add _
  rw [List.append_nil, List.nil_append, length] at whole
  exact congrArg (·.getD []) whole

/-- The text of a moved range is that of the range. -/
theorem textOf_shift {before text after : List Char} {span : Span} (cuts : span.CutsOut text) :
    textOf (before ++ (text ++ after)) (span.shift (Text.size before)) = textOf text span := by
  obtain ⟨front, inside, rest, rfl, startAt, stopAt⟩ := cuts
  have here : textOf (front ++ (inside ++ rest)) span = inside := by
    rw [textOf, ← startAt, ← stopAt, Text.slice?_append]
    rfl
  have whole : before ++ (front ++ (inside ++ rest) ++ after) =
      (before ++ front) ++ (inside ++ (rest ++ after)) := by simp only [List.append_assoc]
  have moved := Text.slice?_append (before ++ front) inside (rest ++ after)
  have start : Text.size (before ++ front) = span.start + Text.size before := by
    rw [Text.size_append, startAt, Nat.add_comm]
  have stop : Text.size (before ++ front) + Text.size inside = span.stop + Text.size before := by
    rw [start]
    omega
  rw [start] at moved
  rw [here, textOf, whole]
  show (Text.slice? _ (span.start + Text.size before) (span.stop + Text.size before)).getD [] = _
  rw [← stop, start, moved]
  rfl

/-! ### Names that are bound -/

mutual

/-- Nothing is bound in a comment. -/
theorem Tree.IsRemark.locals {source : List Char} (parent : Kind) :
    ∀ {tree : Tree}, tree.IsRemark → tree.locals source parent = []
  | .node _ _ _ parts, .comment span each => by
    rw [Tree.locals, localsAll_of_remarks .comment parts each]
    exact if_neg fun binds => nomatch binds.1

theorem localsAll_of_remarks {source : List Char} (parent : Kind) :
    ∀ trees : List Tree, (∀ tree ∈ trees, tree.IsRemark) →
      Tree.localsAll source parent trees = []
  | [], _ => rfl
  | tree :: trees, each => by
    obtain ⟨here, others⟩ := List.forall_mem_cons.mp each
    rw [Tree.localsAll, here.locals parent, localsAll_of_remarks parent trees others]
    rfl

end

section Bound

variable {before text after : List Char}

mutual

/-- **A tree that follows another one binds the same names.** -/
theorem Tree.Follows.locals (parent : Kind) : ∀ {tree other : Tree},
    tree.Follows (Text.size before) other → tree.Within text →
      other.locals (before ++ (text ++ after)) parent = tree.locals text parent
  | .node role kind span parts, _, .node each, .node cuts within => by
    have below := Tree.AllFollow.locals kind each within
    rw [Tree.locals, Tree.locals, below, textOf_shift cuts]

theorem Tree.AllFollow.locals (parent : Kind) : ∀ {trees others : List Tree},
    Tree.AllFollow (Text.size before) trees others → (∀ tree ∈ trees, tree.Within text) →
      Tree.localsAll (before ++ (text ++ after)) parent others =
        Tree.localsAll text parent trees
  | [], [], .nil, _ => rfl
  | tree :: trees, other :: others, .cons first more, within => by
    obtain ⟨here, later⟩ := List.forall_mem_cons.mp within
    rw [Tree.localsAll, Tree.localsAll, Tree.Follows.locals parent first here,
      Tree.AllFollow.locals parent more later]
  | _, other :: others, .remark isRemark more, within => by
    rw [Tree.localsAll, isRemark.locals parent, Tree.AllFollow.locals parent more within]
    rfl

end

end Bound

end Ruby

end RecipeLint
