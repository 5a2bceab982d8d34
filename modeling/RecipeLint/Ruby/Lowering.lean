/-
**From concrete trees to the tree that rules see.**

A fold over the concrete tree: every node is made from its concrete form and from what its parts
became. An identifier reads a local variable if it is bound anywhere in the text, and is a call
without arguments otherwise.

* `Tree.locals` — the names bound in a text.
* `Tree.lower` — the node of a concrete tree, together with those of its parts.
* `lowerProgram` — the node of a whole text.
-/

import RecipeLint.Node
import RecipeLint.Ruby.Tree
import RecipeLint.Text.Bytes
import RecipeLint.Text.Search

namespace RecipeLint.Ruby

/-- The text of a range of bytes; empty if the range is no part of the text. -/
def textOf (source : List Char) (span : Span) : List Char :=
  (Text.slice? source span.start span.stop).getD []

/-! ### Local variables -/

/-- Whether an identifier in a role is bound by the construct around it. -/
def isBinding (parent : Kind) (role : Option Role) : Bool :=
  match parent with
  | .assignment | .operatorAssignment => role == some .left
  | .forLoop => role == some .pattern
  | _ => parent.bindsParts || (parent.bindsName && role == some .name)

mutual

/-- The names bound in a tree that stands in a construct of a kind. -/
def Tree.locals (source : List Char) (parent : Kind) : Tree → List String
  | .node role kind span parts =>
    let inner := Tree.localsAll source kind parts
    if kind = .identifier ∧ isBinding parent role then
      String.ofList (textOf source span) :: inner
    else inner

/-- The names bound in several trees that stand in a construct of a kind. -/
def Tree.localsAll (source : List Char) (parent : Kind) : List Tree → List String
  | [] => []
  | part :: parts => part.locals source parent ++ Tree.localsAll source parent parts

end

/-! ### Strings -/

/-- The value of what stands between single quotes: a backslash escapes a backslash and a quote,
and is itself elsewhere. -/
def unescapeSingle : List Char → List Char
  | '\\' :: '\\' :: rest => '\\' :: unescapeSingle rest
  | '\\' :: '\'' :: rest => '\'' :: unescapeSingle rest
  | c :: rest => c :: unescapeSingle rest
  | [] => []

/-- The value of an escape: six letters stand for a character, and all else stands for itself
without the backslash. -/
def unescape (escape : List Char) : List Char :=
  match escape with
  | '\\' :: rest =>
    match rest with
    | ['n'] => ['\n']
    | ['t'] => ['\t']
    | ['r'] => ['\r']
    | ['0'] => [Char.ofNat 0]
    | ['s'] => [' ']
    | ['e'] => [Char.ofNat 27]
    | _ => rest
  | _ => escape

/-- What stands between the quotes of a literal in single quotes. -/
def betweenQuotes (raw : List Char) : List Char :=
  match raw with
  | '\'' :: rest => if rest.getLast? = some '\'' then rest.dropLast else []
  | _ => []

/-- The value of a string literal without interpolation. -/
def stringValue (source : List Char) (span : Span) (parts : List Tree) : List Char :=
  let raw := textOf source span
  if raw.head? = some '\'' then unescapeSingle (betweenQuotes raw)
  else
    parts.flatMap fun part =>
      match part.kind with
      | .stringContent => textOf source part.span
      | .escapeSequence => unescape (textOf source part.span)
      | _ => []

/-! ### Nodes -/

/-- A concrete tree with the nodes made from it and from its parts. -/
inductive Lowered where
  /-- The concrete tree, its node, and the same for its parts. -/
  | mk (tree : Tree) (node : Node) (parts : List Lowered)

namespace Lowered

/-- The concrete tree. -/
def tree : Lowered → Tree
  | .mk tree _ _ => tree

/-- The node made from the tree. -/
def node : Lowered → Node
  | .mk _ node _ => node

/-- What the parts of the tree became. -/
def parts : Lowered → List Lowered
  | .mk _ _ parts => parts

/-- Whether the concrete tree is a comment. -/
def isComment (lowered : Lowered) : Bool := lowered.tree.is .comment

/-- The first of several trees that plays a role. -/
def inRole? (parts : List Lowered) (role : Role) : Option Lowered :=
  parts.find? fun part => part.tree.role == some role

end Lowered

/-- The statements of a block, without its parameters. -/
def blockStatements (block : Lowered) : List Node :=
  block.parts.flatMap fun part =>
    if part.tree.is .blockParameters then []
    else if part.tree.kind.wrapsBody then part.parts.map (·.node)
    else [part.node]

/-- The node of a call: the receiver, the arguments, then the comments among the arguments and the
comments before the method. A block makes it the first child of a node of its own. -/
def lowerCall (source : List Char) (span : Span) (parts : List Lowered) : Node :=
  let receiver := Lowered.inRole? parts .receiver
  let method := Lowered.inRole? parts .method
  let arguments := Lowered.inRole? parts .arguments
  let given := arguments.toList.flatMap (·.parts)
  let values := given.filter (!·.isComment)
  let comments := given.filter (·.isComment) ++ parts.filter (·.isComment)
  let (name, nameSpan) :=
    match method with
    | some method => (String.ofList (textOf source method.tree.span), method.tree.span)
    | none => ("call", Span.empty span.start)
  let stop :=
    match (arguments.or method).or receiver with
    | some part => part.tree.span.stop
    | none => span.start
  let call : Node :=
    ⟨.call name nameSpan receiver.isSome values.length, ⟨span.start, stop⟩,
      (receiver.toList ++ values ++ comments).map (·.node)⟩
  match Lowered.inRole? parts .block with
  | some block => ⟨.block, span, call :: blockStatements block⟩
  | none => call

/-- Whether an identifier names a method rather than calling it or reading a variable. -/
def namesMethod (parent : Kind) (role : Option Role) : Bool :=
  match parent with
  | .aliasName | .undefName => true
  | .methodDefinition | .singletonMethod => role == some .name
  | _ => false

/-- The node of a concrete tree in a construct of a kind, from what its parts became. -/
def combine (source : List Char) (locals : List String) (parent : Kind) (role : Option Role)
    (kind : Kind) (span : Span) (parts : List Lowered) : Node :=
  let text := String.ofList (textOf source span)
  let other := fun (name : String) => Node.mk (.other name) span (parts.map (·.node))
  match kind with
  | .comment => .leaf (.comment text) span
  | .call => lowerCall source span parts
  | .identifier =>
    if namesMethod parent role || locals.contains text then .leaf (.other kind.name) span
    else .leaf (.call text span false 0) span
  | .constant => .leaf (.const text false) span
  | .scopeResolution =>
    match (Lowered.inRole? parts .name).filter (·.tree.is .constant) with
    | none => other kind.name
    | some name =>
      let scope := Lowered.inRole? parts .scope
      ⟨.const (String.ofList (textOf source name.tree.span)) scope.isNone, span,
        scope.toList.map (·.node)⟩
  | .stringLiteral =>
    if parts.any (·.tree.is .interpolation) then other "dstr"
    else .leaf (.str (String.ofList (stringValue source span (parts.map (·.tree))))) span
  | _ => other kind.name

mutual

/-- The node of a concrete tree that stands in a construct of a kind, with those of its parts. -/
def Tree.lower (source : List Char) (locals : List String) (parent : Kind) : Tree → Lowered
  | .node role kind span parts =>
    let lowered := Tree.lowerAll source locals kind parts
    .mk (.node role kind span parts) (combine source locals parent role kind span lowered) lowered

/-- The nodes of several concrete trees that stand in a construct of a kind. -/
def Tree.lowerAll (source : List Char) (locals : List String) (parent : Kind) :
    List Tree → List Lowered
  | [] => []
  | part :: parts => part.lower source locals parent :: Tree.lowerAll source locals parent parts

end

/-- The node of a whole text from its concrete tree. -/
def lowerProgram (source : List Char) (root : Tree) : Node :=
  let locals := Tree.localsAll source root.kind root.parts
  ⟨.program, ⟨0, Text.size source⟩,
    (Tree.lowerAll source locals root.kind root.parts).map (·.node)⟩

end RecipeLint.Ruby
