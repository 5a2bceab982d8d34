/-
**Words of a Ruby text.**

Which characters make up names, and what stands at the start of a text that begins with one: a
plain word, a word with the mark that belongs to it, a key before a colon, a variable with its
sigil, the name of an operator, a symbol.

* `nameOf` — the name at the start of a text, with its mark.
* `keyOf` — the name at the start of a text that a colon makes a key.
* `symbolLength?` — how far a symbol reaches.
-/

import RecipeLint.Ruby.Kind
import RecipeLint.Text.Search

namespace RecipeLint.Ruby

/-! ### Characters -/

/-- The sign that quotes a shell command. -/
def backQuote : Char := Char.ofNat 96

/-- The signs of the language, none of which is part of a name. -/
def signs : List Char :=
  backQuote :: ":;\"'@$#.,|^&<=>+-*/\\%?!~()[]\x7b\x7d".toList

/-- The characters between tokens, line breaks among them. -/
def isGap (c : Char) : Bool :=
  c == ' ' || c == '\t' || c == '\r' || c == '\n'

/-- A text without the gaps at its end. -/
def trimGaps (text : List Char) : List Char :=
  (text.reverse.dropWhile isGap).reverse

/-- Characters that are part of names: all but gaps, controls and the signs of the language. -/
def isWordPart (c : Char) : Bool :=
  32 < c.toNat && !signs.contains c

/-- Characters that start a name. -/
def isWordStart (c : Char) : Bool :=
  isWordPart c && !c.isDigit

/-- Characters of names to which a mark can belong. -/
def isPlainWordPart (c : Char) : Bool :=
  c.isAlphanum || c == '_'

/-- Characters that are part of symbols. Only the lowest byte of a character is looked at. -/
def isSymbolPart (c : Char) : Bool :=
  let low := Char.ofNat (c.toNat % 256)
  low.toNat != 0 && !isGap low && !signs.contains low

/-- Hexadecimal digits. -/
def isHexDigit (c : Char) : Bool :=
  c.isDigit || ('a' ≤ c && c ≤ 'f') || ('A' ≤ c && c ≤ 'F')

/-! ### Names -/

/-- The word at the start of a text, empty if none starts there. -/
def wordOf (text : List Char) : List Char :=
  match text with
  | [] => []
  | c :: _ => if isWordStart c then text.takeWhile isWordPart else []

/-- A word with the exclamation or question mark that belongs to it. An exclamation mark that
starts an inequality does not, and neither does a mark after a word with a foreign letter. -/
def nameOf (text : List Char) : List Char :=
  let word := wordOf text
  if word.isEmpty || !word.all isPlainWordPart then word
  else
    match text.drop word.length with
    | '?' :: _ => word ++ ['?']
    | '!' :: '=' :: _ => word
    | '!' :: _ => word ++ ['!']
    | _ => word

/-- The name at the start of a text if a colon makes it a key. -/
def keyOf (text : List Char) : Option (List Char) :=
  let word := wordOf text
  let name := nameOf text
  let isKey := fun (name : List Char) =>
    match text.drop name.length with
    | ':' :: ':' :: _ => false
    | ':' :: _ => true
    | _ => false
  if word.isEmpty then none
  else if isKey word then some word
  else if isKey name then some name
  else none

/-- A name that can be that of a method: the word `defined?` is a sign of its own. -/
def methodNameOf (text : List Char) : List Char :=
  if nameOf text = "defined?".toList then wordOf text else nameOf text

/-- The kind of a name: names of constants start with a capital letter. -/
def nameKind (name : List Char) : Kind :=
  if name.head?.any Char.isUpper then .constant else .identifier

/-- The words that open a construct which another word ends. -/
def constructWords : List String :=
  ["if", "unless", "while", "until", "for", "case", "begin", "def", "class", "module"]

/-- The words that start a value, whatever may follow what stands before them. -/
def openingWords : List String :=
  ["nil", "true", "false", "self", "super", "return", "break", "next", "redo", "retry", "yield",
   "not", "defined?"] ++ constructWords

/-- The words that are no names where they mean something else. -/
def reservedWords : List String :=
  ["end", "rescue", "else", "elsif", "ensure", "when", "then", "do", "in", "and", "or", "if",
   "unless", "while", "until"]

/-! ### Variables -/

/-- The kind of the variable with a sigil at the start of a text, and its number of characters. -/
def variableOf? (text : List Char) : Option (Kind × Nat) :=
  match text with
  | '@' :: '@' :: rest =>
    let word := wordOf rest
    if word.isEmpty then none else some (.classVariable, 2 + word.length)
  | '@' :: rest =>
    let word := wordOf rest
    if word.isEmpty then none else some (.instanceVariable, 1 + word.length)
  | '$' :: '-' :: c :: _ => if isPlainWordPart c then some (.globalVariable, 3) else none
  | '$' :: c :: rest =>
    if c.isDigit then some (.globalVariable, 2 + (rest.takeWhile Char.isDigit).length)
    else if isPlainWordPart c then
      some (.globalVariable, 2 + (rest.takeWhile isPlainWordPart).length)
    else if c == backQuote || "!@&'+~=/\\,;.<>*$?:\"".toList.contains c then
      some (.globalVariable, 2)
    else none
  | _ => none

/-! ### Operators as names -/

/-- The operators that can name a method after a dot or in a definition, a longer one before one
that it starts with. -/
def operatorNames : List String :=
  ["[]=", "[]", "===", "==", "=~", "!~", "!", "<=>", "<=", "<<", "<", ">=", ">>", ">",
   "+@", "-@", "~@", "+", "-", "**", "*", "/", "%", "&", "|", "^", "~", "..",
   String.ofList [backQuote]]

/-- The number of characters of the operator that names a method at the start of a text. -/
def operatorNameLength? (text : List Char) : Option Nat :=
  (operatorNames.find? fun name => (Text.strip? name.toList text).isSome).map (·.length)

/-! ### Symbols -/

/-- The operators that can be written as symbols, a longer one before one that it starts with. -/
def operatorSymbols : List String :=
  ["<=>", "<=", "<<", "<", ">>", ">=", ">", "===", "==", "=~", "+@", "-@", "~@", "+", "-", "~",
   "..", "&", "^", "|", "/", "%", String.ofList [backQuote], "!=", "!~", "!", "**", "*", "[]=",
   "[]"]

/-- The number of characters of an operator that is written as a symbol. -/
def operatorSymbolLength? (text : List Char) : Option Nat :=
  (operatorSymbols.find? fun name => (Text.strip? name.toList text).isSome).map (·.length)

/-- The number of characters of the name after the colon of a symbol. An equals sign belongs to it
unless it starts an arrow. -/
def symbolLength? (text : List Char) : Option Nat := do
  let sigil :=
    match text with
    | '@' :: '@' :: _ => 2
    | '@' :: _ => 1
    | '$' :: _ => 1
    | _ => 0
  let rest := text.drop sigil
  let start ← if rest.head?.any isSymbolPart then some 1 else operatorSymbolLength? rest
  let body := start + ((rest.drop start).takeWhile isSymbolPart).length
  let mark := if (rest.drop body).head?.any fun c => c == '?' || c == '!' then 1 else 0
  let length := sigil + body + mark
  match text.drop length with
  | '=' :: after =>
    if after.head? = some '>' then some length else some (length + 1)
  | _ => some length

/-- Whether a text starts with a symbol, in quotes or plain. -/
def startsSymbol (text : List Char) : Bool :=
  match text with
  | ':' :: '"' :: _ => true
  | ':' :: '\'' :: _ => true
  | ':' :: rest => (symbolLength? rest).isSome
  | _ => false

/-- The name at the start of an argument if a colon makes it a key. After a mark or a foreign
letter, what may be a symbol is one. -/
def argumentKeyOf (text : List Char) : Option (List Char) :=
  (keyOf text).filter fun name =>
    name.all isPlainWordPart || !startsSymbol (text.drop name.length)

end RecipeLint.Ruby
