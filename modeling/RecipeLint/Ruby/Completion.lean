/-
**What a closing token can complete.**

Where a text ends inside a construct, its closing token alone may complete it. That is so only if
what stands last is taken for the same thing with the token and without it: a name that might still
be assigned to leaves a body open, and a number after an operator leaves a list open.

* `Tree.admitsEnd` — whether a body that ends in a node can be completed.
* `Tree.admitsBracket` — whether a list that ends in an element can be completed.
-/

import RecipeLint.Ruby.Tree

namespace RecipeLint.Ruby

namespace Kind

/-- The numbers. -/
def isNumber : Kind → Bool
  | .integerNumber | .floatNumber | .rationalNumber | .complexNumber => true
  | _ => false

/-- The names that can be assigned to as far as their form tells, and the words that a value or a
statement may follow. -/
def mayContinue : Kind → Bool
  | .identifier | .constant | .instanceVariable | .classVariable | .globalVariable
  | .selfReference | .superCall | .currentLine | .currentFile | .currentEncoding
  | .returnJump | .breakJump | .nextJump | .thenBranch | .elseBranch => true
  | _ => false

/-- The constructs that take a name that stands last for an operand. -/
def isOperation : Kind → Bool
  | .binary | .conditional | .rangeValue | .matchPattern => true
  | _ => false

/-- The constructs that end with the last of their statements. -/
def endsInStatement : Kind → Bool
  | .bodyStatement | .blockBody | .thenBranch | .elseBranch | .whenBranch | .inClause
  | .rescueClause | .ensureClause => true
  | _ => false

/-- The values that may be either the value of a pair or the pattern it is matched with. -/
def isAlsoPattern : Kind → Bool
  | .nilLiteral | .trueLiteral | .falseLiteral | .selfReference | .identifier | .constant
  | .hashLiteral | .lambdaLiteral | .currentLine | .currentFile | .currentEncoding => true
  | kind => kind.isNumber

/-- The arguments after which a command in a list is complete. -/
def endsListedCommand : Kind → Bool
  | .stringLiteral | .chainedString | .simpleSymbol | .delimitedSymbol | .trueLiteral
  | .falseLiteral | .nilLiteral | .arrayLiteral | .stringArray | .symbolArray | .regexLiteral
  | .subshell => true
  | _ => false

/-- The sole arguments after which a command in a body with clauses is complete. -/
def endsCommand : Kind → Bool
  | .simpleSymbol | .arrayLiteral | .hashLiteral | .stringArray | .symbolArray | .regexLiteral
  | .subshell | .lambdaLiteral => true
  | kind => kind.isNumber

end Kind

namespace Tree

mutual

/-- The last node that ends where a tree ends, as seen through nodes of the opened kinds. -/
def tip (opens : Kind → Bool) : Tree → Tree
  | .node role kind span parts =>
    if opens kind then tipAmong opens (.node role kind span parts) span.stop parts
    else .node role kind span parts

/-- The tip of the last of some parts, if it ends at a position; otherwise the node around them. -/
def tipAmong (opens : Kind → Bool) (around : Tree) (stop : Nat) : List Tree → Tree
  | [] => around
  | [part] => if part.span.stop = stop then tip opens part else around
  | _ :: part :: parts => tipAmong opens around stop (part :: parts)

end

/-- The arguments of a call that stand without parentheses. -/
def bareArguments (tree : Tree) : List Tree :=
  match tree.part? .arguments with
  | some list =>
    if list.parts.head?.any (·.span.start = list.span.start) then list.parts else []
  | none => []

/-- Whether a pair has its key before a colon. -/
def isKeyedPair (tree : Tree) : Bool :=
  tree.is .pair && tree.parts.head?.any (·.is .hashKeySymbol)

/-- Whether a block or the arguments of a command leave no doubt that they are all of it. -/
def isWholeCommand (statement : Tree) : Bool :=
  (statement.part? .block).isSome ||
    match statement.bareArguments with
    | [] => true
    | [argument] =>
      argument.isKeyedPair || argument.kind.endsCommand ||
        argument.is .pair && argument.parts.getLast?.any (·.kind.endsCommand) ||
        argument.is .call && argument.bareArguments.isEmpty
    | arguments => arguments.getLast?.any isKeyedPair

/-- Whether the token that ends a body can follow its last node at the end of the text. -/
def admitsEnd (last : Tree) : Bool :=
  let statement := last.tip Kind.endsInStatement
  statement.kind.isOperation ||
    !(statement.tip fun _ => true).kind.mayContinue &&
      (!last.is .bodyStatement ||
        isWholeCommand statement &&
          !(statement.is .assignment &&
            statement.parts.getLast?.any fun value => !value.bareArguments.isEmpty))

/-- Whether the bracket that closes a list can follow an element at the end of the text, with a
number of elements before it. -/
def admitsBracket (element : Tree) (before : Nat) : Bool :=
  let isNumeric := (element.tip fun _ => true).kind.isNumber
  match element.kind with
  | .pair =>
    if element.isKeyedPair then before < 2 || !isNumeric
    else !element.parts.getLast?.any (·.kind.isAlsoPattern)
  | .call =>
    ((element.part? .block).all fun block => block.is .doBlock || !block.parts.isEmpty) &&
      match element.bareArguments.getLast? with
      | some last => last.kind.endsListedCommand
      | none => true
  | .splatArgument => true
  | kind => !isNumeric || (kind.isNumber && before < 2)

end Tree

end RecipeLint.Ruby
