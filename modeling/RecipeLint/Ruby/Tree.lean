/-
**Concrete trees.**

What the reader makes of a Ruby text: nodes with a kind, the range of bytes from their first to
their last token, and the parts that matter, in the order of the text. A part may play a role in
the node it belongs to, such as the receiver of a call.

* `Tree.insert` — puts a comment, or the body of a here document, into the innermost node that
  starts before it and ends after it.
-/

import RecipeLint.Ruby.Kind
import RecipeLint.Span

namespace RecipeLint.Ruby

/-- The part that a node plays in the node around it. -/
inductive Role where
  | receiver | method | arguments | block | name | scope | left | pattern
  deriving DecidableEq, Repr, Inhabited

/-- A node of the concrete tree. -/
inductive Tree where
  /-- A construct with its role, its range of bytes and its parts. -/
  | node (role : Option Role) (kind : Kind) (span : Span) (parts : List Tree)
  deriving Repr, Inhabited

namespace Tree

/-- The role of a node in the node around it. -/
def role : Tree → Option Role
  | .node role _ _ _ => role

/-- The construct that a node stands for. -/
def kind : Tree → Kind
  | .node _ kind _ _ => kind

/-- The range of bytes that a node covers. -/
def span : Tree → Span
  | .node _ _ span _ => span

/-- The parts of a node in the order of the text. -/
def parts : Tree → List Tree
  | .node _ _ _ parts => parts

/-- A node without role. -/
def of (kind : Kind) (span : Span) (parts : List Tree) : Tree :=
  .node none kind span parts

/-- A node without role and parts. -/
def leaf (kind : Kind) (span : Span) : Tree :=
  of kind span []

/-- The same node in a role. -/
def as (tree : Tree) (role : Role) : Tree :=
  .node (some role) tree.kind tree.span tree.parts

/-- The first part that plays a role. -/
def part? (tree : Tree) (role : Role) : Option Tree :=
  tree.parts.find? fun part => part.role == some role

/-- Whether a node is of a kind. -/
def is (tree : Tree) (kind : Kind) : Bool :=
  tree.kind == kind

/-- Whether a node starts before another and ends no earlier. -/
def surrounds (outer inner : Tree) : Bool :=
  outer.span.start < inner.span.start && inner.span.stop ≤ outer.span.stop

mutual

/-- Puts a node into the innermost node that surrounds it, between the parts that start before it
and the parts that start after it. -/
def insert (extra : Tree) : Tree → Tree
  | .node role kind span parts => .node role kind span (insertAmong extra parts)

/-- Puts a node among parts that are in the order of the text: inside the part that surrounds it,
or else before the first part that starts after it. -/
def insertAmong (extra : Tree) : List Tree → List Tree
  | [] => [extra]
  | part :: parts =>
    if part.surrounds extra then insert extra part :: parts
    else if extra.span.start < part.span.start then extra :: part :: parts
    else part :: insertAmong extra parts

end

end Tree

end RecipeLint.Ruby
