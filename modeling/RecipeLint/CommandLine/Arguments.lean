/-
**The arguments of the command.**

The words after the name of the program: options of the program, the name of a command, and the
options and operands of the command. An option has a long name, perhaps a short one, and takes a
value or not. Short options may be joined, and a value may be joined to its option. The words are
looked at one after the other, so what is wrong with a later word does not count after a request
for help or for the version.

* `Reading.words` — the options and operands among words.
* `Invocation.read?` — what is asked for; nothing if the words make no sense.
-/

import RecipeLint.Severity
import RecipeLint.Text.Search
import RecipeLint.Version

namespace RecipeLint.CommandLine

/-- The forms in which a report is printed. -/
inductive Format where
  /-- For people. -/
  | text
  /-- As data. -/
  | json
  /-- One line for each offense. -/
  | compact
  deriving DecidableEq, Repr, Inhabited

/-- The options of the command that checks files. -/
structure CheckOptions where
  /-- The files and directories. -/
  paths : List String := ["."]
  /-- The form of the report. -/
  format : Format := .text
  /-- The names and codes of the only rules that run. -/
  rules : Option String := none
  /-- Patterns of files that are left out. -/
  excluded : List String := []
  /-- The version of the platform. -/
  target : Option Version := none
  /-- Whether changes are made. -/
  autocorrect : Bool := false
  /-- The severity from which on an offense fails the run. -/
  failOn : Option Severity := none
  /-- The year that rules about dates go by. -/
  year : Option Int := none
  /-- The name of a set of rules. -/
  preset : Option String := none
  deriving Repr, Inhabited

/-- The names of the commands. -/
inductive CommandName where
  | check | listRules | init
  deriving DecidableEq, Repr, Inhabited

/-- What help is about. -/
inductive Topic where
  /-- The program. -/
  | program
  /-- A command. -/
  | command (name : CommandName)
  /-- Help itself. -/
  | help
  deriving DecidableEq, Repr, Inhabited

/-- The commands. -/
inductive Command where
  /-- Checks files. -/
  | check (options : CheckOptions)
  /-- Lists the rules. -/
  | listRules
  /-- Writes a configuration file, over an existing one if forced. -/
  | init (force : Bool)
  /-- Tells the version of the program. -/
  | version
  /-- Tells how the program is used, briefly or in detail. -/
  | help (topic : Topic) (detailed : Bool)
  deriving Repr, Inhabited

/-- What is asked for. -/
structure Invocation where
  /-- The command. -/
  command : Command
  /-- Whether to tell more about the run. -/
  verbose : Bool := false
  /-- The path of a configuration file. -/
  config : Option String := none
  deriving Repr, Inhabited

/-! ### Words -/

/-- The options. -/
inductive OptionName where
  | verbose | config | help | version | format | rules | exclude | target | autocorrect | failOn
  | year | preset | force
  deriving DecidableEq, Repr, Inhabited

namespace OptionName

/-- The long name. -/
def long : OptionName → String
  | .verbose => "verbose"
  | .config => "config"
  | .help => "help"
  | .version => "version"
  | .format => "format"
  | .rules => "rules"
  | .exclude => "exclude"
  | .target => "target-version"
  | .autocorrect => "autocorrect"
  | .failOn => "fail-on"
  | .year => "current-year"
  | .preset => "preset"
  | .force => "force"

/-- The short name. -/
def short? : OptionName → Option Char
  | .verbose => some 'v'
  | .config => some 'c'
  | .help => some 'h'
  | .version => some 'V'
  | .format => some 'f'
  | .exclude => some 'e'
  | .target => some 't'
  | .autocorrect => some 'a'
  | _ => none

/-- Whether the option takes a value. -/
def takesValue : OptionName → Bool
  | .verbose | .help | .version | .autocorrect | .force => false
  | _ => true

end OptionName

/-- An option or an operand. -/
inductive Item where
  /-- An option without value. -/
  | flag (name : OptionName)
  /-- An option with its value. -/
  | value (name : OptionName) (text : String)
  /-- An operand. -/
  | operand (text : String)
  deriving DecidableEq, Repr, Inhabited

/-! ### Values -/

/-- A path; the empty text is none. -/
def path? (text : String) : Option String :=
  if text.isEmpty then none else some text

/-- The form with a name. -/
def format? (name : String) : Option Format :=
  if name = "text" then some .text
  else if name = "json" then some .json
  else if name = "compact" then some .compact
  else none

/-- The year that a text gives: decimal digits with or without a sign. -/
def year? (text : String) : Option Int := do
  let value : Int ← match text.toList with
    | '-' :: digits => (decimal? digits).map fun value => -(value : Int)
    | '+' :: digits => (decimal? digits).map fun value => (value : Int)
    | digits => (decimal? digits).map fun value => (value : Int)
  if -2147483648 ≤ value ∧ value ≤ 2147483647 then some value else none

/-- Whether a text can be the value of an option. -/
def OptionName.accepts (text : String) : OptionName → Bool
  | .config => (path? text).isSome
  | .format => (format? text).isSome
  | .target => (Version.read text).toOption.isSome
  | .failOn => (Severity.read text).toOption.isSome
  | .year => (year? text).isSome
  | _ => true

/-- Whether an option may be given more than once. -/
def OptionName.isRepeatable : OptionName → Bool
  | .exclude => true
  | _ => false

/-! ### Reading -/

/-- Why words are not read to their end. -/
inductive Stop where
  /-- A word makes no sense. -/
  | refused
  /-- Help is asked for, briefly or in detail. -/
  | help (detailed : Bool)
  /-- The version is asked for. -/
  | version
  deriving DecidableEq, Repr, Inhabited

/-- What words are read into. -/
structure Reading where
  /-- The options and operands so far. -/
  items : List Item := []
  /-- The option whose value is the next word, or was the last one. -/
  pending : Option (OptionName × Option String) := none
  deriving Inhabited

/-- What words can be. -/
structure Scope where
  /-- The options. -/
  known : List OptionName
  /-- Whether operands are taken. -/
  takesOperands : Bool := false
  /-- Whether the first operand is a command, with which the reading ends. -/
  hasCommands : Bool := false
  deriving Inhabited

namespace Reading

/-- Whether an option is among the items. -/
def mentions (reading : Reading) (name : OptionName) : Bool :=
  reading.items.any fun
    | .flag found => found == name
    | .value found _ => found == name
    | .operand _ => false

/-- Adds an option with its value. -/
def addValue (reading : Reading) (name : OptionName) (text : String) : Except Stop Reading :=
  if !name.accepts text || (reading.mentions name && !name.isRepeatable) then .error .refused
  else .ok { reading with items := reading.items ++ [.value name text] }

/-- Looks at the value of the last option; one that has no value makes no sense. -/
def settle (reading : Reading) : Except Stop Reading :=
  match reading.pending with
  | none => .ok reading
  | some (_, none) => .error .refused
  | some (name, some text) => { reading with pending := none }.addValue name text

/-- Adds an option without value, or stops at it. -/
def addFlag (reading : Reading) (name : OptionName) (detailed : Bool) : Except Stop Reading := do
  let settled ← reading.settle
  match name with
  | .help => throw (.help detailed)
  | .version => throw .version
  | _ =>
    if settled.mentions name then throw .refused
    return { settled with items := settled.items ++ [.flag name] }

/-- Adds an option that takes a value, which may be joined to it. -/
def addOption (reading : Reading) (name : OptionName) (joined : Option String) :
    Except Stop Reading := do
  let settled ← reading.settle
  match joined with
  | some text => settled.addValue name text
  | none => return { settled with pending := some (name, none) }

/-- Adds an operand. -/
def addOperand (scope : Scope) (reading : Reading) (word : String) : Except Stop Reading := do
  let settled ← reading.settle
  if scope.takesOperands && (path? word).isSome then
    return { settled with items := settled.items ++ [.operand word] }
  throw .refused

/-- A value joined to a short option, where a sign of equality does not count. -/
def joinedValue (text : List Char) : String :=
  match text with
  | '=' :: rest => String.ofList rest
  | _ => String.ofList text

/-- Reads joined letters, each an option, the last perhaps with its value. -/
def letters (scope : Scope) (reading : Reading) : List Char → Except Stop Reading
  | [] => .ok reading
  | letter :: rest =>
    match scope.known.find? fun name => name.short? == some letter with
    | none => .error .refused
    | some name =>
      if name.takesValue then
        reading.addOption name (if rest.isEmpty then none else some (joinedValue rest))
      else
        match reading.addFlag name false with
        | .ok reading => letters scope reading rest
        | .error stop => .error stop

/-- Reads an option by its long name. -/
def long (scope : Scope) (reading : Reading) (word : List Char) : Except Stop Reading :=
  let (spelled, joined) := match Text.breakOn? ['='] word with
    | some (before, after) => (before, some (String.ofList after))
    | none => (word, none)
  match scope.known.find? fun name => name.long.toList == spelled with
  | none => .error .refused
  | some name =>
    if name.takesValue then reading.addOption name joined
    else if joined.isSome then .error .refused
    else reading.addFlag name true

/-- Reads words. Two hyphens make operands of all words that follow; a word may be the value of the
option before it unless it looks like an option. What is left starts with the name of a command. -/
def words (scope : Scope) (reading : Reading) : List String → Except Stop (Reading × List String)
  | [] => .ok (reading, [])
  | word :: rest =>
    match word.toList with
    | ['-', '-'] => do return (← rest.foldlM (addOperand scope) reading, [])
    | '-' :: '-' :: name =>
      match reading.long scope name with
      | .ok reading => words scope reading rest
      | .error stop => .error stop
    | '-' :: letter :: more =>
      match reading.letters scope (letter :: more) with
      | .ok reading => words scope reading rest
      | .error stop => .error stop
    | _ =>
      match reading.pending with
      | some (name, none) => words scope { reading with pending := some (name, some word) } rest
      | _ =>
        if scope.hasCommands then .ok (reading, word :: rest)
        else
          match addOperand scope reading word with
          | .ok reading => words scope reading rest
          | .error stop => .error stop

end Reading

/-! ### Meaning -/

/-- The values of an option among items. -/
def values (name : OptionName) (items : List Item) : List String :=
  items.filterMap fun
    | .value found text => if found = name then some text else none
    | _ => none

/-- The operands among items. -/
def operands (items : List Item) : List String :=
  items.filterMap fun
    | .operand text => some text
    | _ => none

/-- Whether an option without value is among items. -/
def has (name : OptionName) (items : List Item) : Bool :=
  items.contains (.flag name)

/-- The value of an option, if it is given. -/
def valueOf {α : Type} (read : String → Option α) (name : OptionName) (items : List Item) :
    Option α :=
  (values name items).head?.bind read

/-- The options of the command that checks files. -/
def checkOptions (items : List Item) : CheckOptions :=
  let paths := operands items
  { paths := if paths.isEmpty then ["."] else paths
    format := (valueOf format? .format items).getD .text
    rules := valueOf some .rules items
    excluded := values .exclude items
    target := valueOf (fun text => (Version.read text).toOption) .target items
    autocorrect := has .autocorrect items
    failOn := valueOf (fun text => (Severity.read text).toOption) .failOn items
    year := valueOf year? .year items
    preset := valueOf some .preset items }

/-- The options of every command. -/
def globalOptions : List OptionName := [.verbose, .config, .help]

/-- What stands before the name of a command. -/
def programScope : Scope where
  known := globalOptions ++ [.version]
  hasCommands := true

namespace CommandName

/-- The word for a command. -/
def word : CommandName → String
  | .check => "check"
  | .listRules => "list-rules"
  | .init => "init"

/-- All commands. -/
def all : List CommandName := [.check, .listRules, .init]

/-- The command for a word. -/
def ofWord? (word : String) : Option CommandName :=
  all.find? fun name => name.word == word

/-- What stands after the name of a command. -/
def scope : CommandName → Scope
  | .check =>
    { known := globalOptions ++
        [.format, .rules, .exclude, .target, .autocorrect, .failOn, .year, .preset]
      takesOperands := true }
  | .listRules => { known := globalOptions }
  | .init => { known := globalOptions ++ [.force] }

/-- The command with the items after its name. -/
def command (items : List Item) : CommandName → Command
  | .check => .check (checkOptions items)
  | .listRules => .listRules
  | .init => .init (has .force items)

end CommandName

/-- The word that asks for help. -/
def helpWord : String := "help"

/-- What help is about that is asked for with words. -/
def topic? : List String → Option Topic
  | [] => some .program
  | [word] => if word = helpWord then some .help else (CommandName.ofWord? word).map .command
  | _ => none

/-- What is asked for where the reading stops. -/
def Stop.invocation? (topic : Topic) : Stop → Option Invocation
  | .refused => none
  | .help detailed => some { command := .help topic detailed }
  | .version => some { command := .version }

/-- What a command and the words after it ask for, after the reading of what stands before. The
value of the last option before the command is looked at last. -/
def CommandName.invocation? (before : Reading) (name : CommandName) (words : List String) :
    Option Invocation :=
  match (do let (after, _) ← Reading.words name.scope {} words; after.settle) with
  | .error stop => stop.invocation? (.command name)
  | .ok after =>
    match before.settle with
    | .error _ => none
    | .ok before =>
      some
        { command := name.command after.items
          verbose := has .verbose before.items || has .verbose after.items
          config := (valueOf path? .config after.items).or (valueOf path? .config before.items) }

/-- What the words after the name of the program ask for. An option of every command counts most
where it is given last. -/
def Invocation.read? (words : List String) : Option Invocation :=
  match Reading.words programScope {} words with
  | .error stop => stop.invocation? .program
  | .ok (_, []) => none
  | .ok (before, word :: rest) =>
    if word = helpWord then (topic? rest).map fun topic => { command := .help topic true }
    else (CommandName.ofWord? word).bind fun name => name.invocation? before rest

end RecipeLint.CommandLine
