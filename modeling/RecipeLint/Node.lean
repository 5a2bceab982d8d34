/-
**The tree that rules see.**

A tree of seven kinds of nodes, each with just enough to match on, and the questions that rules ask
of a node. A call keeps its receiver and its arguments at the front of its children; a block keeps
the call it belongs to as its first child; a constant keeps its scope as its only child.

* `Node.arguments` — may have no value, since it adds machine words.
* `Node.constantPath?` — the names of a constant from the outermost scope inwards.
-/

import RecipeLint.Span

namespace RecipeLint

/-- The kinds of nodes, without what they carry. -/
inductive Tag where
  | program | call | const | str | comment | block | other
  deriving DecidableEq, Repr, Inhabited

namespace Tag

/-- All kinds of nodes. -/
def all : List Tag := [.program, .call, .const, .str, .comment, .block, .other]

/-- The name of a kind of node. -/
def name : Tag → String
  | .program => "program"
  | .call => "call"
  | .const => "const"
  | .str => "str"
  | .comment => "comment"
  | .block => "block"
  | .other => "other"

/-- The kind of node with a name. -/
def ofName? (name : String) : Option Tag :=
  all.find? fun tag => tag.name == name

end Tag

/-- What a node is and carries. -/
inductive NodeKind where
  /-- A whole document. -/
  | program
  /-- A call of a method, with the range of its name, whether it has a receiver, and how many
  arguments follow it. -/
  | call (method : String) (methodSpan : Span) (hasReceiver : Bool) (argumentCount : Nat)
  /-- A constant by its last name, and whether it is looked up from the top. -/
  | const (name : String) (rooted : Bool)
  /-- A string literal without interpolation. -/
  | str (value : String)
  /-- A comment with the sign that starts it. -/
  | comment (text : String)
  /-- A block and the call it belongs to. -/
  | block
  /-- Any other construct. -/
  | other (kind : String)
  deriving DecidableEq, Repr, Inhabited

/-- A node of the tree. -/
structure Node where
  /-- What the node is and carries. -/
  kind : NodeKind
  /-- The range of bytes it covers. -/
  span : Span
  /-- Its children in the order of the text. -/
  children : List Node
  deriving Repr, Inhabited

namespace Node

/-- A node without children. -/
def leaf (kind : NodeKind) (span : Span) : Node := ⟨kind, span, []⟩

/-- The kind of a node, without what it carries. -/
def tag (node : Node) : Tag :=
  match node.kind with
  | .program => .program
  | .call .. => .call
  | .const .. => .const
  | .str _ => .str
  | .comment _ => .comment
  | .block => .block
  | .other _ => .other

/-! ### Calls -/

/-- The name of the method that a call calls. -/
def methodName? (node : Node) : Option String :=
  match node.kind with
  | .call method .. => some method
  | _ => none

/-- The range of the name of the method that a call calls. -/
def methodSpan? (node : Node) : Option Span :=
  match node.kind with
  | .call _ methodSpan _ _ => some methodSpan
  | _ => none

/-- The receiver of a call. -/
def receiver? (node : Node) : Option Node :=
  match node.kind with
  | .call _ _ true _ => node.children.head?
  | _ => none

/-- The arguments of a call; none if the call claims more than it has children. -/
def arguments (node : Node) : Except Overflow (List Node) :=
  match node.kind with
  | .call _ _ hasReceiver argumentCount => do
    let start := if hasReceiver then 1 else 0
    let stop ← addWords start argumentCount
    if stop ≤ node.children.length then
      return (node.children.drop start).take argumentCount
    return []
  | _ => return []

/-- Whether a node calls a method of this name on no receiver. -/
def isCommand (node : Node) (method : String) : Bool :=
  node.methodName? == some method && node.receiver?.isNone

/-! ### Literals and comments -/

/-- The value of a string literal. -/
def stringValue? (node : Node) : Option String :=
  match node.kind with
  | .str value => some value
  | _ => none

/-- The value of the first argument if it is a string literal. -/
def firstString? (node : Node) : Except Overflow (Option String) := do
  return (← node.arguments).head?.bind stringValue?

/-- The text of a comment. -/
def commentText? (node : Node) : Option String :=
  match node.kind with
  | .comment text => some text
  | _ => none

/-! ### Constants -/

/-- The scope of a constant. -/
def scope? (node : Node) : Option Node :=
  match node.kind with
  | .const .. => node.children.head?
  | _ => none

mutual

/-- The names of a constant from the outermost scope inwards. There are none for what is no
constant, lies in what is no constant, or is looked up from the top. -/
def constantPath? : Node → Option (List String)
  | ⟨.const name rooted, _, children⟩ =>
    match scopePath? children with
    | none => none
    | some none => if rooted then none else some [name]
    | some (some scope) => some (scope ++ [name])
  | _ => none

/-- The names of the scope that the children of a constant give, if they give one. -/
def scopePath? : List Node → Option (Option (List String))
  | [] => some none
  | scope :: _ => scope.constantPath?.map some

end

/-- Whether a node is the constant of these names, from the outermost scope inwards. -/
def isConstant (node : Node) (path : List String) : Bool :=
  node.constantPath? == some path

/-! ### Blocks -/

/-- The call that a block belongs to. -/
def blockCall? (node : Node) : Option Node :=
  match node.kind with
  | .block => node.children.head?.filter fun child => child.tag == .call
  | _ => none

/-- The statements of a block. -/
def blockBody (node : Node) : List Node :=
  match node.kind with
  | .block => node.children.drop 1
  | _ => []

/-! ### Walks -/

mutual

/-- A node and all below it, a node before its children and children in their order. -/
def preorder : Node → List Node
  | ⟨kind, span, children⟩ => ⟨kind, span, children⟩ :: preorderAll children

/-- The nodes of several trees, one tree after the other. -/
def preorderAll : List Node → List Node
  | [] => []
  | node :: nodes => preorder node ++ preorderAll nodes

end

mutual

/-- The number of nodes of a tree. -/
def count : Node → Nat
  | ⟨_, _, children⟩ => 1 + countAll children

/-- The number of nodes of several trees. -/
def countAll : List Node → Nat
  | [] => 0
  | node :: nodes => count node + countAll nodes

end

theorem countAll_append (first second : List Node) :
    countAll (first ++ second) = countAll first + countAll second := by
  induction first with
  | nil => simp [countAll]
  | cons node nodes ih => simp [countAll, ih, Nat.add_assoc]

/-- Takes the top node off a stack, puts its children there instead, and goes on until the stack is
empty. -/
def drain : List Node → List Node
  | [] => []
  | ⟨kind, span, children⟩ :: stack => ⟨kind, span, children⟩ :: drain (children ++ stack)
termination_by stack => countAll stack
decreasing_by simp only [countAll_append, countAll, count]; omega

/-- All nodes of a tree in the order in which a stack yields them. -/
def walk (node : Node) : List Node := drain [node]

end Node

end RecipeLint
