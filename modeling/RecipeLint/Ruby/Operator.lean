/-
**Operators and assignments.**

Expressions of binary, unary and ternary operators by precedence, ranges, and assignments of one
or several values.

* `binaryOperators` — the operators with how tightly they bind and to which side they group.
* `Reader.operand` — an expression whose operators bind at least as tightly as a level.
* `Reader.matched` — the same with a pattern that its value is matched against.
-/

import RecipeLint.Ruby.Primary

namespace RecipeLint.Ruby

/-- A binary operator. -/
structure BinaryOperator where
  /-- How it is written. -/
  sign : String
  /-- How tightly it binds. -/
  level : Nat
  /-- Whether equal operators group to the right. -/
  groupsRight : Bool := false

/-- How tightly the words bind that join expressions. -/
def joiningLevel : Nat := 1

/-- How tightly a conditional expression binds. -/
def conditionalLevel : Nat := 20

/-- How tightly a range binds. -/
def rangeLevel : Nat := 25

/-- How tightly a sign before an operand binds. -/
def signLevel : Nat := 75

/-- How tightly an exclamation mark or a tilde before an operand binds. -/
def complementLevel : Nat := 85

/-- The binary operators, a longer sign before one that it starts with. -/
def binaryOperators : List BinaryOperator :=
  [⟨"**", 80, true⟩, ⟨"*", 70, false⟩, ⟨"/", 70, false⟩, ⟨"%", 70, false⟩, ⟨"+", 65, false⟩,
   ⟨"-", 65, false⟩, ⟨"<=>", 40, true⟩, ⟨"<<", 60, false⟩, ⟨"<=", 45, false⟩, ⟨"<", 45, false⟩,
   ⟨">>", 60, false⟩, ⟨">=", 45, false⟩, ⟨">", 45, false⟩, ⟨"&&", 35, false⟩, ⟨"&", 55, false⟩,
   ⟨"||", 30, false⟩, ⟨"|", 50, false⟩, ⟨"^", 50, false⟩, ⟨"===", 40, true⟩, ⟨"==", 40, true⟩,
   ⟨"=~", 40, true⟩, ⟨"!=", 40, true⟩, ⟨"!~", 40, true⟩]

/-- The operators that an equals sign turns into assignments. -/
def assigningOperators : List String :=
  ["**", "*", "/", "%", "+", "-", "<<", ">>", "&&", "&", "||", "|", "^"]

/-- The number of characters of the assigning operator at the start of a text. -/
def assigningLength? (text : List Char) : Option Nat := do
  let sign ← assigningOperators.find? fun sign => (Text.strip? (sign.toList ++ ['=']) text).isSome
  return sign.length + 1

/-- The binary operator at the start of a text. Where a bar ends the construct, it is none. -/
def binaryOperator? (barred : Bool) (text : List Char) : Option BinaryOperator :=
  let operator := binaryOperators.find? fun operator =>
    (Text.strip? operator.sign.toList text).isSome
  match text with
  | '&' :: '.' :: _ => none
  | '=' :: '>' :: _ => none
  | '|' :: _ => operator.filter fun operator => !barred || operator.sign != "|"
  | _ => operator

/-- Whether a text starts with the equals sign of an assignment. -/
def startsAssignment (text : List Char) : Bool :=
  match text with
  | '=' :: c :: _ => c != '=' && c != '~' && c != '>'
  | ['='] => true
  | _ => false

/-- Whether a parenthesis at the start of a text may enclose several targets of an assignment: a
comma or a star stands in it, and an equals sign or a comma after it. -/
def enclosesTargets : List Char → Nat → Bool → Bool
  | [], _, _ => false
  | '(' :: text, depth, several => enclosesTargets text (depth + 1) several
  | ')' :: text, depth, several =>
    if depth ≤ 1 then
      let after := text.dropWhile fun c => isGap c || c == '\\'
      several && after.head?.any fun c => c == '=' || c == ','
    else enclosesTargets text (depth - 1) several
  | c :: text, depth, several => enclosesTargets text depth (several || c == ',' || c == '*')

namespace Reader

/-- Reads what an operator is applied to, over line breaks. A call there needs parentheses. -/
def rightOperand (level : Nat) : Reader Tree := do
  skipLines
  return (← within Context.plain (descend (.operand level))).tree

/-! ### Assignments -/

/-- Reads a single value on the right of an assignment, after which a comma may follow, with what
replaces it if its evaluation fails. -/
def assignedValue (listed : Bool) : Reader Operand := do
  let value ←
    within (fun context =>
        { context.before ["rescue"] with
          listed := context.listed || listed, keyed := false, unnamed := false })
      (descend (.matched 2))
  let rescued ← rescuedValue value.tree (rightOperand 2)
  return { tree := rescued, command := value.command }

/-- Reads a value of a list on the right of an assignment: `and` and `or` after it join the whole
assignment to what follows. -/
def listedValue : Reader Tree := do
  return (← within Context.element (descend (.operand (joiningLevel + 1)))).tree

/-- Reads a star and the value whose elements are assigned. A slash right after the star starts no
regular expression. -/
def assignedSplat : Reader Tree := do
  if ← sees "*/" then leaf .splatArgument 1 else signedBy listedValue .splatArgument 1

/-- Fails if the text ends after a comma that stands here. -/
def endedComma : Reader Unit := do
  let start ← get
  skipSpace
  let comma ← position
  if ← accept "," then
    skipLines
    if (← get).rest.isEmpty then ending (Ending.settle comma) (missing "identifier")
  set start

/-- Reads the values of a list on the right of an assignment after the first. -/
def assignedList (first : Tree) : Reader Tree := do
  if (← context).listed || first.is .rescueModifier then return first
  endedComma
  let more ← many <| attempt do
    skipSpace
    unless ← accept "," do return none
    skipLines
    if (← sees "*") && !(← sees "**") then some <$> assignedSplat else some <$> listedValue
  if more.isEmpty then return first
  return .of .rightAssignmentList (← spanFrom first.span.start) (first :: more)

/-- Reads the right side of an assignment. -/
def assignmentRight : Reader Operand := do
  skipLines
  if (← sees "*") && !(← sees "**") then
    return { tree := ← assignedList (← assignedSplat) }
  let value ← assignedValue true
  if value.command then return value
  return { tree := ← assignedList value.tree }

/-- Reads the right side of an assignment by an operator that stands at a place. A value that is
missing is not dropped together with the operator. -/
def operatorRight (start sign : Nat) : Reader Operand := do
  skipLines
  let change := if (← get).rest.isEmpty then Ending.reach start else Ending.settle sign
  ending change (assignedValue false)

/-- The assignment of a right side to a left side. -/
def assignment (kind : Kind) (left : Tree) (right : Operand) : Reader Operand := do
  let tree := Tree.of kind (← spanFrom left.span.start) [left.as .left, right.tree]
  return { tree := tree, command := right.command }

/-- Takes the comma that may follow the last target of an assignment, and moves to the equals sign
after it, if there is one. After what cannot be compared, the sign starts no longer operator. -/
def seesEquals (last : Tree) : Reader Bool := do
  let comma ← accept ","
  skipLines
  let isOpen := comma || last.is .destructuredLeftAssignment || last.is .restAssignment
  return startsAssignment (← get).rest || (isOpen && (← sees "=~"))

/-- Reads the equals sign and the right side of an assignment to several targets. -/
def assignTargets (targets : Tree) : Reader Operand := do
  eat 1
  let right ← ending (Ending.settle targets.span.start) assignmentRight
  assignment .assignment targets right

/-- Reads the rest of a multiple assignment after its first target. -/
def multipleAssignment (first : Tree) : Reader Operand := do
  unless first.is .restAssignment do endedComma
  let start ← get
  let more ← if (← context).listed then pure [] else moreTargets
  skipLines
  if more.isEmpty && (← get).rest.isEmpty then unfinished none
  let isAssigned ← seesEquals (more.getLast?.getD first)
  let cursor ← get
  if cursor.rest.isEmpty then
    ending (fun early => { early with last := cursor.offset }) (unfinished none)
  unless isAssigned do
    set start
    skipSpace
    unexpected
  assignTargets (.of .leftAssignmentList (← spanFrom first.span.start) (first :: more))

/-- Reads several targets, the first of them in parentheses, where a comma may as well separate
other things, if an equals sign follows. -/
def listedTargets? : Reader (Option Tree) :=
  tentative do
    let first ← descend .target
    let more ← moreTargets
    skipLines
    let isAssigned ← seesEquals (more.getLast?.getD first)
    let targets := Tree.of .leftAssignmentList (← spanFrom first.span.start) (first :: more)
    return if isAssigned then some targets else none

/-- Reads the rest of an assignment after a left side, if there is one. -/
def assignmentTail (left : Tree) : Reader (Option Operand) := do
  let start ← get
  attempt do
    skipSpace
    let cursor ← get
    if !(← context).listed && cursor.sees "," then
      set start
      return some (← multipleAssignment left)
    if startsAssignment cursor.rest then
      eat 1
      let right ← inside cursor.offset (ending (Ending.settle cursor.offset) assignmentRight)
      return some (← assignment .assignment left right)
    match assigningLength? cursor.rest with
    | none => return none
    | some count =>
      eat count
      let right ← operatorRight left.span.start cursor.offset
      return some (← assignment .operatorAssignment left right)

/-! ### Operators -/

/-- Reads the branches of a conditional expression after its condition. -/
def conditionalTail (test : Tree) : Reader Tree := do
  let start ← position
  ending (Ending.settle start) do
    eat 1
    skipLines
    let positive ← ending Ending.enclose
      (within (fun _ => { lines := false, commands := false })
        (descend (.operand conditionalLevel)))
    skipLines
    unless ← accept ":" do unfinished none
    let negative ← rightOperand conditionalLevel
    return .of .conditional (← spanFrom test.span.start) [test, positive.tree, negative]

/-- Reads the rest of a range after its lower end, if it has one. The upper end may be left out if
there is a lower one. -/
def rangeTail (start : Nat) (lower : List Tree) : Reader Tree := do
  eat (if ← sees "..." then 3 else 2)
  let complete ← get
  skipSpace
  let cursor ← get
  if lower.isEmpty then
    let upper ← ending (Ending.reach start) (rightOperand rangeLevel)
    return .of .rangeValue (← spanFrom start) [upper]
  if startsUpperEnd (← context) cursor.isSpaced cursor.rest then
    let upper ← ending (Ending.settle cursor.offset) (rightOperand rangeLevel)
    return .of .rangeValue (← spanFrom start) (lower ++ [upper])
  set complete
  return .of .rangeValue (← spanFrom start) lower

/-- The length of the word at the cursor that joins expressions of operators, zero if there is
none. -/
def joiningLength : Reader Nat := do
  let words := (← context).words
  let cursor ← get
  if cursor.seesStem "and" && !words.contains "and" then return 3
  if cursor.seesStem "or" && !words.contains "or" then return 2
  return 0

/-- Reads the right operand of a binary operator. An operand that is missing is not dropped together
with the operator. -/
def operatorOperand (start sign level : Nat) : Reader Tree := do
  skipLines
  let change := if (← get).rest.isEmpty then Ending.reach start else Ending.settle sign
  ending change (rightOperand level)

/-- Reads one more operator and what it is applied to, if it binds at least as tightly as a
level. -/
def operatorTail (level : Nat) (left : Tree) : Reader (Option Tree) :=
  attempt do
    skipSpace
    let context ← context
    let text := (← get).rest
    let start := left.span.start
    let sign ← position
    match text with
    | '?' :: _ =>
      if conditionalLevel < level then return none
      some <$> conditionalTail left
    | '.' :: '.' :: _ =>
      if rangeLevel < level then return none
      some <$> rangeTail start [left]
    | _ =>
      match binaryOperator? context.barred text with
      | none =>
        let count ← joiningLength
        if count = 0 || context.commands || joiningLevel < level then return none
        eat count
        let right ← operatorOperand start sign (joiningLevel + 1)
        return some (.of .binary (← spanFrom start) [left, right])
      | some operator =>
        if operator.level < level || (assigningLength? text).isSome then return none
        eat operator.sign.length
        let level := if operator.groupsRight then operator.level else operator.level + 1
        let right ← operatorOperand start sign level
        return some (.of .binary (← spanFrom start) [left, right])

/-- Reads what a minus sign that is no part of its operand makes of it. -/
def signedOperand : Reader Operand := do
  let start ← position
  eat 1
  let value ← ending (Ending.reach start) (rightOperand signLevel)
  return { tree := .of .unary (← spanFrom start) [value] }

/-- Reads a number with its sign, which calls may follow. -/
def signedLiteral : Reader Operand := do
  largest { tree := ← signedNumber }

/-- Reads a number with a minus sign. A power of the number binds more tightly than the sign. -/
def negativeLiteral : Reader Operand := do
  let start ← position
  let power ← attempt do
    eat 1
    let base ← number
    skipSpace
    unless (← sees "**") && !(← sees "**=") do return none
    eat 2
    let exponent ← rightOperand 80
    let power := Tree.of .binary (← spanFrom base.span.start) [base, exponent]
    return some (Tree.of .unary (← spanFrom start) [power])
  match power with
  | some tree => return { tree }
  | none => signedLiteral

/-- Reads what a negation makes of the operand after it, which may be a command. -/
def negatedOperand (length level : Nat) : Reader Operand := do
  let start ← position
  eat length
  skipLines
  let value ← ending (Ending.reach start)
    (within (fun context => { context with keyed := false, unnamed := false })
      (descend (.matched level)))
  return { tree := .of .unary (← spanFrom start) [value.tree], command := value.command }

/-- Reads what a word makes of the operand after it. With parentheses it looks like a call, and
calls may follow. -/
def wordOperand (length level : Nat) : Reader Operand := do
  let start ← get
  eat length
  skipLines
  if ← sees "(" then
    let inside ← parenthesized
    largest { tree := .of .unary (← spanFrom start.offset) [inside] }
  else
    set start
    negatedOperand length level

/-- Reads an operand with the operators before it. -/
def operandHead : Reader Operand := do
  let cursor ← get
  match cursor.rest with
  | '!' :: _ => negatedOperand 1 complementLevel
  | '~' :: _ => negatedOperand 1 complementLevel
  | '+' :: rest =>
    if (rest.dropWhile isGap).head?.any Char.isDigit then signedLiteral
    else negatedOperand 1 signLevel
  | '-' :: '>' :: _ => primary
  | '-' :: rest =>
    if !isPartOfOperand cursor.isSpaced rest then signedOperand
    else if rest.head?.any Char.isDigit then negativeLiteral
    else negatedOperand 1 signLevel
  | '.' :: '.' :: _ => return { tree := ← rangeTail cursor.offset [] }
  | '*' :: _ => multipleAssignment (← descend .target)
  | '(' :: _ =>
    unless enclosesTargets cursor.rest 0 false do return ← primary
    if (← context).listed then
      match ← listedTargets? with
      | some targets => assignTargets targets
      | none => primary
    else
      match ← tentative (some <$> descend .target) with
      | some first => multipleAssignment first
      | none => primary
  | _ =>
    if cursor.seesWord "not" then wordOperand 3 2
    else if cursor.seesWord "defined?" then wordOperand 8 2
    else primary

/-- Reads an expression of operators that bind at least as tightly as a level. -/
def operand (level : Nat) : Reader Operand := do
  let head ← operandHead
  if head.command then return head
  let assigned ← if head.tree.isAssignable then assignmentTail head.tree else pure none
  let left := assigned.getD head
  if left.command then return left
  return { tree := ← extend (operatorTail level) left.tree }

/-! ### Matches -/

/-- Reads an expression of operators that bind at least as tightly as a level, and the pattern that
its value is matched against. -/
def matched (level : Nat) : Reader Operand := do
  let value ← operand level
  let context ← context
  if value.command || !context.commands then return value
  let found ← attempt do
    skipSpace
    let kind ←
      if (← sees "=>") && !context.keyed then pure (some Kind.matchPattern)
      else if (← seesWord "in") && !context.words.contains "in" then pure (some .testPattern)
      else pure none
    match kind with
    | none => return none
    | some kind =>
      let sign ← position
      eat 2
      skipLines
      let pattern ← ending (Ending.settle sign) (descend (.pattern true))
      let tree := Tree.of kind (← spanFrom value.tree.span.start) [value.tree, pattern]
      return some { tree := tree, command := true : Operand }
  return found.getD value

end Reader

end RecipeLint.Ruby
