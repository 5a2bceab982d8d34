/-
**Definitions.**

Methods, classes and modules, and the statements that give a method another name or take its name
away. Each reader starts at the word that opens its construct.

* `Reader.methodName` — the name that a method is defined by.
* `Reader.rescuedValue` — a value with what replaces it if its evaluation fails.
-/

import RecipeLint.Ruby.Case

namespace RecipeLint.Ruby.Reader

/-! ### Names of methods -/

/-- Reads the name of a method: a word, an operator, a symbol, a variable, or a word with the equals
sign of a setter. -/
def methodName : Reader Tree := do
  let text := (← get).rest
  let name := methodNameOf text
  if !name.isEmpty then
    let start ← position
    let word ← leaf (nameKind name) name.length
    let isPlain := word.is .identifier && name.length = (wordOf text).length
    if isPlain then
      if ← accept "=" then return .of .setter (← spanFrom start) [word.as .name]
    return word
  if text.head? = some ':' then return ← symbol
  match variableOf? text with
  | some (kind, count) => leaf kind count
  | none =>
    match operatorNameLength? text with
    | some count => leaf .operatorName count
    | none => missing "identifier"

/-- The kind and the number of characters of a variable or a word at the start of a text that can
be the object whose method is defined. -/
def definedObject? (text : List Char) : Option (Kind × Nat) :=
  match variableOf? text with
  | some found => some found
  | none =>
    let word := wordOf text
    if word.isEmpty then none
    else if word = "self".toList then some (.selfReference, 4)
    else if word = "super".toList then some (.superCall, 5)
    else some (nameKind word, word.length)

/-- Takes the dot or the double colon between an object and the name of its method. -/
def definitionDot : Reader Bool := do
  skipSpace
  if (← sees ".") && !(← sees "..") then accept "." else accept "::"

/-- Reads the object whose method is defined, if it is named, with the dot after it. -/
def definedOn : Reader (List Tree) := do
  if ← accept "(" then
    skipLines
    let object ← within (fun _ => { lines := false, commands := false }) (descend (.operand 0))
    skipLines
    unless ← accept ")" do missing ")"
    unless ← definitionDot do missing "."
    return [object.tree]
  let object ← attempt do
    match definedObject? (← get).rest with
    | none => return none
    | some (kind, count) =>
      let object ← leaf kind count
      if ← definitionDot then return some object
      if kind = .selfReference || kind = .superCall then missing "."
      return none
  return object.toList

/-! ### Bodies -/

/-- Reads the handler that replaces a value if its evaluation fails. -/
def rescuedValue (value : Tree) (handler : Reader Tree) : Reader Tree := do
  let rescued ← attempt do
    skipSpace
    let word ← position
    unless ← acceptStem "rescue" do return none
    skipLines
    if (← get).rest.isEmpty then ending (Ending.settle word) (unfinished none)
    let replacement ← handler
    return some (Tree.of .rescueModifier (← spanFrom value.span.start) [value, replacement])
  return rescued.getD value

/-- Reads an expression of operators, which a handler may follow. -/
def handledValue : Reader Tree := do
  let plain : Reader Tree := do
    return (← within Context.plain (descend (.operand 2))).tree
  let value ← within (·.before ["rescue"]) plain
  rescuedValue value plain

/-- Reads the body of a class, a module or a method up to the word that ends it. -/
def definitionBody : Reader (List Tree) := do
  let body ← wrapped .bodyStatement (← bodyParts clauseStatements)
  closingEnd body
  return body

/-- Reads the expression that is the whole body of a method. -/
def expressionBody : Reader (List Tree) := do
  eat 1
  skipLines
  List.singleton <$> handledValue

/-! ### Methods -/

/-- Reads the parameters of a method, and whether they stand in parentheses. -/
def definedParameters : Reader (List Tree × Bool) :=
  within (fun _ => { commands := false, listed := true }) do
    skipSpace
    if ← sees "(" then return ([← parameterList .methodParameters], true)
    if (← get).isAtLineEnd || (← sees ";") || (← sees "=") then return ([], false)
    return ([← bareParameters .methodParameters], false)

/-- Reads the parameters and the body of a method. -/
def methodRest : Reader (List Tree) := do
  let (parameters, enclosed) ← ending Ending.enclose definedParameters
  skipBlanks
  if ← sees "=" then return parameters ++ (← expressionBody)
  let ended ← terminator
  if ended.isNone && !enclosed then unexpected
  return parameters ++ (← definitionBody)

/-- Reads the definition of a method. -/
def methodDefinition : Reader Tree :=
  construct do
    let start ← position
    eat 3
    skipLines
    let object ← ending Ending.enclose (within (fun _ => {}) definedOn)
    skipLines
    let name ← ending Ending.enclose methodName
    let rest ← methodRest
    let kind := if object.isEmpty then Kind.methodDefinition else .singletonMethod
    return .of kind (← spanFrom start) (object ++ name.as .name :: rest)

/-! ### Classes and modules -/

/-- Reads a constant with the names of the scopes around it. -/
def constantPath : Reader Tree := do
  let start ← position
  let constant : Reader Tree := do
    skipLines
    let word := wordOf (← get).rest
    if nameKind word = .constant then leaf .constant word.length else missing "constant"
  let first ←
    if ← accept "::" then do
      let name ← constant
      pure (Tree.of .scopeResolution (← spanFrom start) [name.as .name])
    else constant
  first |> extend fun scope => do
    unless ← accept "::" do return none
    let name ← constant
    return some (.of .scopeResolution (← spanFrom start) [scope.as .scope, name.as .name])

/-- Reads the name of a class or a module: a constant, which may belong to any value. -/
def definedPath : Reader Tree := do
  let path ← tentative do
    let value ← within (fun _ => { commands := false }) (descend (.operand 100))
    return if value.tree.is .scopeResolution then some value.tree else none
  match path with
  | some path => return path
  | none => constantPath

/-- Reads the class that another extends, if there is one. -/
def superclass? : Reader (Option Tree) := do
  skipBlanks
  let start ← position
  unless ← accept "<" do return none
  skipLines
  let value ← within (fun _ => { unnamed := true }) (descend .expression)
  return some (.of .superclass (← spanFrom start) [value.tree])

/-- Reads the definition of a class, or the opening of the singleton class of an object. -/
def classDefinition : Reader Tree :=
  construct do
    let start ← position
    eat 5
    skipLines
    if ← accept "<<" then
      skipLines
      let value ← ending Ending.enclose
        (within (fun _ => { commands := false }) (descend (.operand 0)))
      if (← terminator).isNone then unfinished none
      let body ← definitionBody
      return .of .singletonClass (← spanFrom start) (value.tree :: body)
    let name ← ending Ending.enclose definedPath
    let superclass ← ending Ending.enclose superclass?
    let ended ← terminator
    if ended.isNone && superclass.isSome then unfinished none
    let body ← definitionBody
    return .of .classDefinition (← spanFrom start) (name.as .name :: superclass.toList ++ body)

/-- Reads the definition of a module. -/
def moduleDefinition : Reader Tree :=
  construct do
    let start ← position
    eat 6
    skipLines
    let name ← ending Ending.enclose definedPath
    let _ ← terminator
    let body ← definitionBody
    return .of .moduleDefinition (← spanFrom start) (name.as .name :: body)

/-! ### Other names -/

/-- Reads a statement that gives a method another name. -/
def aliasName : Reader Tree := do
  let start ← position
  eat 5
  skipLines
  let new ← methodName
  skipLines
  let old ← methodName
  return .of .aliasName (← spanFrom start) [new.as .name, old]

/-- Reads a statement that takes names of methods away. -/
def undefName : Reader Tree := do
  let start ← position
  eat 5
  skipLines
  let first ← methodName
  let more ← many <| attempt do
    skipSpace
    unless ← accept "," do return none
    skipLines
    some <$> methodName
  return .of .undefName (← spanFrom start) (first :: more)

end RecipeLint.Ruby.Reader
