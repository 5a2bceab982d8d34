/-
**Patterns.**

What a value can be matched against: literals, ranges, constants, names, references, and the
patterns of arrays and hashes that are built from others.

* `Reader.basicPattern` — a pattern without alternatives.
* `Reader.patternExpression` — alternatives, and the name that the value gets.
* `Reader.topPattern` — a pattern at the top, where the brackets of an array or a hash may be left
  out.
-/

import RecipeLint.Ruby.Control

namespace RecipeLint.Ruby.Reader

/-! ### Names and references -/

/-- Reads the rest of a path of constants. -/
def patternPath (first : Tree) : Reader Tree :=
  first |> extend fun scope => attempt do
    skipSpace
    unless ← accept "::" do return none
    skipLines
    let word := wordOf (← get).rest
    unless nameKind word = .constant do missing "constant"
    let name ← leaf .constant word.length
    let span ← spanFrom scope.span.start
    return some (.of .scopeResolution span [scope.as .scope, name.as .name])

/-- Reads a reference to the value of a variable or an expression. -/
def referencePattern : Reader Tree := do
  let start ← position
  eat 1
  skipLines
  if ← accept "(" then
    skipLines
    let value ← within (fun _ => { lines := false }) (descend .expression)
    skipLines
    unless ← accept ")" do missing ")"
    return .of .expressionReferencePattern (← spanFrom start) [value.tree]
  match variableOf? (← get).rest with
  | some (kind, count) =>
    let name ← leaf kind count
    return .of .variableReferencePattern (← spanFrom start) [name]
  | none =>
    let word := wordOf (← get).rest
    unless !word.isEmpty && nameKind word = .identifier do missing "identifier"
    let name ← leaf .identifier word.length
    return .of .variableReferencePattern (← spanFrom start) [name]

/-- Reads a star with the name that the elements it stands for get. -/
def starPattern : Reader Tree := do
  let start ← position
  eat 1
  let bare ← get
  skipSpace
  let word := wordOf (← get).rest
  let words := (← context).words
  if word.isEmpty || nameKind word != .identifier || words.contains (String.ofList word) then
    set bare
    return .leaf .splatParameter (← spanFrom start)
  let name ← leaf .identifier word.length
  return .of .splatParameter (← spanFrom start) [name.as .name]

/-- Reads two stars with the name that the rest of a hash gets, or with the word that there is
none. -/
def restPattern : Reader Tree := do
  let start ← position
  eat 2
  let bare ← get
  skipSpace
  if ← acceptWord "nil" then return .leaf .hashSplatNil (← spanFrom start)
  let word := wordOf (← get).rest
  let words := (← context).words
  if word.isEmpty || nameKind word != .identifier || words.contains (String.ofList word) then
    set bare
    return .leaf .hashSplatParameter (← spanFrom start)
  let name ← leaf .identifier word.length
  return .of .hashSplatParameter (← spanFrom start) [name.as .name]

/-! ### Literals and ranges -/

/-- The words that are values of their own in a pattern. -/
def valueWords : List (String × Kind) :=
  [("nil", .nilLiteral), ("self", .selfReference), ("true", .trueLiteral),
   ("false", .falseLiteral), ("__LINE__", .currentLine), ("__FILE__", .currentFile),
   ("__ENCODING__", .currentEncoding)]

/-- Whether a text starts a literal of a pattern. -/
def startsPatternLiteral (text : List Char) : Bool :=
  match text with
  | [] => false
  | '-' :: _ => true
  | '+' :: _ => true
  | '/' :: _ => true
  | ':' :: ':' :: _ => false
  | ':' :: _ => true
  | c :: _ =>
    c.isDigit || c == '\'' || c == '"' || c == backQuote || startsCharacter text ||
      (heredocStart? text).isSome || startsPercent false text ||
      valueWords.any fun (word, _) => nameOf text == word.toList

/-- Reads a number with its sign. -/
def signedNumber : Reader Tree := do
  let start ← position
  eat 1
  skipLines
  unless (← peek).any Char.isDigit do unexpected
  let value ← number
  return .of .unary (← spanFrom start) [value]

/-- Reads a literal of a pattern. -/
def patternLiteral : Reader Tree := do
  let text := (← get).rest
  match text with
  | '-' :: '>' :: _ => lambdaLiteral
  | '-' :: _ => signedNumber
  | '+' :: _ => signedNumber
  | '/' :: _ => regexFlags (← delimited .regexLiteral 1 (.quoted '/' true))
  | ':' :: _ => symbol
  | c :: _ =>
    if c.isDigit then number
    else if startsString text then quotedString
    else if c == backQuote then delimited .subshell 1 (.quoted backQuote true)
    else if (heredocStart? text).isSome then heredocBeginning
    else if startsPercent false text then percentLiteral
    else if startsCharacter text then characterLiteral
    else
      match valueWords.find? fun (word, _) => nameOf text == word.toList with
      | some (word, kind) => leaf kind word.length
      | none => unexpected
  | [] => missing "identifier"

/-- Reads the upper end of a range in a pattern, if there is one. -/
def patternRange (start : Nat) (lower : List Tree) : Reader Tree := do
  eat (if ← sees "..." then 3 else 2)
  let complete ← get
  skipSpace
  if startsPatternLiteral (← get).rest then
    let upper ← patternLiteral
    return .of .rangeValue (← spanFrom start) (lower ++ [upper])
  if lower.isEmpty then unexpected
  set complete
  return .of .rangeValue (← spanFrom start) lower

/-! ### Arrays and hashes -/

/-- Whether a text starts a pattern. -/
def startsPattern (words : List String) (text : List Char) : Bool :=
  match text with
  | [] => false
  | '[' :: _ => true
  | '{' :: _ => true
  | '(' :: _ => true
  | '^' :: _ => true
  | ':' :: ':' :: _ => true
  | '.' :: '.' :: _ => true
  | c :: _ =>
    startsPatternLiteral text ||
      (isWordStart c && !words.contains (String.ofList (nameOf text)))

/-- Reads the value after a key of a hash pattern, which may be left out. -/
def keyPattern (key : Tree) : Reader Tree := do
  let bare ← get
  skipSpace
  let start := key.span.start
  if startsPattern (← context).words (← get).rest then
    let value ← descend (.pattern false)
    return .of .keywordPattern (← spanFrom start) [key, value]
  set bare
  return .of .keywordPattern (← spanFrom start) [key]

/-- Reads an element of a hash pattern, if one starts here. -/
def hashElementPattern? : Reader (Option Tree) := do
  if ← sees "**" then return some (← restPattern)
  match keyOf (← get).rest with
  | some name =>
    let key ← leaf .hashKeySymbol name.length
    eat 1
    return some (← keyPattern key)
  | none =>
    unless startsString (← get).rest do return none
    attempt do
      let key ← quotedString
      unless (← sees ":") && !(← sees "::") do return none
      eat 1
      return some (← keyPattern key)

/-- Reads the elements of a hash pattern after the first. -/
def moreHashElements : Reader (List Tree) :=
  many <| attempt do
    skipSpace
    unless ← accept "," do return none
    skipSpace
    hashElementPattern?

/-- Reads an element of an array pattern. -/
def elementPattern : Reader Tree := do
  if (← sees "*") && !(← sees "**") then starPattern else descend (.pattern false)

/-- Reads the elements of an array pattern after the first. -/
def moreElements : Reader (List Tree) :=
  many <| attempt do
    skipSpace
    unless ← accept "," do return none
    skipLines
    unless (← sees "*") || startsPattern (← context).words (← get).rest do return none
    some <$> elementPattern

/-- The kind of an array pattern by its elements: two stars look for what stands between them. -/
def elementsKind (elements : List Tree) : Kind :=
  if (elements.filter (·.is .splatParameter)).length ≥ 2 then .findPattern else .arrayPattern

/-- Reads the elements of an array pattern, and the comma after the last, which stands for further
elements. -/
def patternElements (first : Tree) : Reader (List Tree) := do
  let more ← moreElements
  let comma ← attempt do
    skipSpace
    let start ← position
    unless ← accept "," do return none
    return some (Tree.leaf .splatParameter (← spanFrom start))
  return first :: more ++ comma.toList

/-- Reads the elements of an array or a hash pattern up to a closing bracket. -/
def bracketedPattern (start : Nat) (leading : List Tree) (closing : String) : Reader Tree :=
  within (fun _ => { lines := false, listed := true }) do
    eat 1
    skipLines
    if ← accept closing then
      let kind := if closing = "\x7d" then Kind.hashPattern else .arrayPattern
      return .of kind (← spanFrom start) leading
    let first ← hashElementPattern?
    match first with
    | some first =>
      if closing = "]" && leading.isEmpty then unexpected
      let more ← moreHashElements
      skipLines
      let _ ← accept ","
      skipLines
      unless ← accept closing do missing closing
      return .of .hashPattern (← spanFrom start) (leading ++ first :: more)
    | none =>
      if closing = "\x7d" then unexpected
      let elements ← patternElements (← elementPattern)
      skipLines
      unless ← accept closing do missing closing
      return .of (elementsKind elements) (← spanFrom start) (leading ++ elements)

/-! ### Patterns -/

/-- Reads a pattern without alternatives. -/
def basicPattern : Reader Tree := do
  let start ← position
  let text := (← get).rest
  match text with
  | '[' :: _ => bracketedPattern start [] "]"
  | '{' :: _ => bracketedPattern start [] "\x7d"
  | '^' :: _ => referencePattern
  | '.' :: '.' :: _ => patternRange start []
  | '(' :: _ =>
    eat 1
    skipLines
    let inner ← within (fun _ => { lines := false }) (descend (.pattern false))
    skipLines
    unless ← accept ")" do missing ")"
    return .of .parenthesizedPattern (← spanFrom start) [inner]
  | ':' :: ':' :: _ =>
    eat 2
    skipLines
    let word := wordOf (← get).rest
    unless nameKind word = .constant do missing "constant"
    let name ← leaf .constant word.length
    constantPattern start (.of .scopeResolution (← spanFrom start) [name.as .name])
  | _ =>
    if startsPatternLiteral text then
      let lower ← patternLiteral
      let range ← attempt do
        skipSpace
        unless ← sees ".." do return none
        return some (← patternRange start [lower])
      return range.getD lower
    let word := wordOf text
    if word.isEmpty then missing "identifier"
    let name ← leaf (nameKind word) word.length
    if name.is .identifier then return name
    constantPattern start name
where
  /-- Reads the rest of a pattern that starts with a constant. -/
  constantPattern (start : Nat) (first : Tree) : Reader Tree := do
    let path ← patternPath first
    if ← sees "[" then return ← bracketedPattern start [path] "]"
    if ← sees "(" then return ← bracketedPattern start [path] ")"
    return path

/-- Reads alternatives, and the names that the value gets. -/
def patternExpression : Reader Tree := do
  let first ← basicPattern
  let more ← many <| attempt do
    skipSpace
    unless (← sees "|") && !(← sees "||") do return none
    eat 1
    skipLines
    some <$> basicPattern
  let start := first.span.start
  let alternatives ←
    if more.isEmpty then pure first
    else do pure (Tree.of .alternativePattern (← spanFrom start) (first :: more))
  alternatives |> extend fun value => attempt do
    skipSpace
    unless ← accept "=>" do return none
    skipLines
    let word := wordOf (← get).rest
    unless !word.isEmpty && nameKind word = .identifier do missing "identifier"
    let name ← leaf .identifier word.length
    return some (.of .asPattern (← spanFrom start) [value, name])

/-- Reads a pattern at the top. -/
def topPattern : Reader Tree := do
  let start ← position
  match ← hashElementPattern? with
  | some first =>
    let more ← moreHashElements
    let _ ← attempt do
      skipSpace
      return if ← accept "," then some () else none
    return .of .hashPattern (← spanFrom start) (first :: more)
  | none =>
    let first ← elementPattern
    let elements ← patternElements first
    match elements with
    | [only] =>
      if only.is .splatParameter then return .of .arrayPattern (← spanFrom start) elements
      return only
    | _ => return .of (elementsKind elements) (← spanFrom start) elements

end RecipeLint.Ruby.Reader
