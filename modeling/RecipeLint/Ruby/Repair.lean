/-
**What to blame for a text that cannot be read.**

Where reading stops at a token, the text is changed so that reading goes on: a token is put before
the one that nothing can take, or some of the constructs before it and of the tokens from it on are
dropped. If reading stops again, the same is done again; what is dropped then may join what was
dropped before. Of all ways to make a program of the text, the cheapest is chosen, and its first
change is to blame. After a delimiter that nothing closes, the text is read as if the delimiter was
not there.

* `readTo` — how far a text can be read.
* `costOf` — what it costs to drop a part of a text.
* `Repair.choices` — the changes that may be made where reading stops.
* `verdictOf` — what is wrong with a text that is no program.
-/

import RecipeLint.Ruby.Statement

namespace RecipeLint.Ruby

/-! ### Changed texts -/

/-- How far a text can be read, in bytes: one more than its size if it is a program. A reserved word
at a position is no name. -/
def readTo (reserved : Option Nat) (text : List Char) : Nat :=
  match readProgramWith reserved text with
  | .ok _ => Text.size text + 1
  | .error (.unexpected span _ _) => span.start
  | .error (.unclosed span) => span.start
  | .error (.ended early) => early.last

/-- The part of a text in a range of bytes; empty if there is none. -/
def partIn (source : List Char) (span : Span) : List Char :=
  (Text.slice? source span.start span.stop).getD []

/-- The text after a position. -/
def restFrom (source : List Char) (position : Nat) : List Char :=
  (Text.drop? source position).getD []

/-- A text with others in place of a range of bytes. -/
def replaceIn (source : List Char) (span : Span) (others : List Char) : List Char :=
  match Text.split? source span.start with
  | some (before, after) => before ++ others ++ restFrom after (span.stop - span.start)
  | none => source

/-- A text with blanks in place of a range of bytes. -/
def blankOut (source : List Char) (span : Span) : List Char :=
  replaceIn source span (List.replicate (span.stop - span.start) ' ')

/-- The tokens of a text that starts at a position, at most `bound` of them and of comments. -/
def tokensFrom : Nat → Nat → List Char → List Span
  | 0, _, _ => []
  | bound + 1, position, text =>
    let gap := text.takeWhile isGap
    let start := position + Text.size gap
    match text.drop gap.length with
    | [] => []
    | '#' :: rest =>
      let comment := '#' :: rest.takeWhile (· ≠ '\n')
      tokensFrom bound (start + Text.size comment) (('#' :: rest).drop comment.length)
    | rest =>
      let count := tokenLength rest
      let stop := start + Text.size (rest.take count)
      ⟨start, stop⟩ :: tokensFrom bound stop (rest.drop count)

/-! ### Costs -/

/-- The cost of a construct or a token that is dropped, besides its bytes. -/
def dropCost : Nat := 100

/-- The cost of a line that is dropped, besides its bytes. -/
def lineCost : Nat := 30

/-- The cost of a token that is put into a text. -/
def missingCost : Nat := 110

/-- The number of parts of a token: of a text in quotes, each quote is one. -/
def partCount (token : List Char) : Nat :=
  match token with
  | '"' :: rest => min 3 (rest.length + 1)
  | '\'' :: rest => min 3 (rest.length + 1)
  | _ => 1

/-- The number of parts of the tokens in a range of bytes. -/
def partsIn (source : List Char) (span : Span) : Nat :=
  let text := partIn source span
  (tokensFrom text.length 0 text).foldr (fun token count => partCount (partIn text token) + count) 0

/-- The cost of dropping a range of bytes, some of which are a single construct. -/
def costOf (source : List Char) (span construct : Span) : Nat :=
  let parts :=
    if construct.start < construct.stop then
      1 + partsIn source ⟨span.start, construct.start⟩ + partsIn source ⟨construct.stop, span.stop⟩
    else partsIn source span
  dropCost * parts + lineCost * (partIn source span).count '\n' + (span.stop - span.start)

/-! ### Changes -/

/-- Where reading stops. -/
structure Stop where
  /-- The text. -/
  source : List Char
  /-- The token that nothing can take. -/
  token : Span
  /-- The token before it. -/
  previous : Span
  /-- Where the constructs start that have been read at least in part. -/
  starts : List Nat

/-- A change of a text that lets reading go on. -/
structure Repair where
  /-- What the change blames. -/
  verdict : Verdict
  /-- How much it costs. -/
  cost : Nat
  /-- The changed text. -/
  text : List Char

namespace Stop

/-- Whether the token is a reserved word that stands in a list, where it can only be a name. A word
that opens a block is none there either. -/
def isName (stop : Stop) : Bool :=
  let word := String.ofList (partIn stop.source stop.token)
  reservedWords.contains word && word != "do" &&
    [");", "];"].any fun closer =>
      let changed := replaceIn stop.source (Span.empty stop.token.start) closer.toList
      stop.token.start + 1 < readTo none changed

/-- The text with a plain name in place of the token if it can only be a name. -/
def probe (stop : Stop) : List Char :=
  if stop.isName then
    replaceIn stop.source stop.token
      ('a' :: List.replicate (stop.token.stop - stop.token.start - 1) ' ')
  else stop.source

/-- The largest complete construct that ends where reading stops and starts at a position or after
it. -/
def constructFrom (stop : Stop) (start : Nat) : Span :=
  let starts := stop.starts.filter fun inner => start ≤ inner && inner < stop.previous.stop
  let isComplete (inner : Nat) : Bool :=
    (readProgram (partIn stop.source ⟨inner, stop.previous.stop⟩)).isOk
  match starts.mergeSort.find? isComplete with
  | some inner => ⟨inner, stop.previous.stop⟩
  | none => Span.empty start

/-- Whether the statement before the token ends in an argument without parentheses. -/
def followsArgument (stop : Stop) : Bool :=
  match readProgram (partIn stop.source (stop.constructFrom 0)) with
  | .ok program => program.parts.getLast?.any fun statement => !statement.bareArguments.isEmpty
  | .error _ => false

/-- Where the constructs start that can be dropped before a token, the innermost first. A closing
bracket completes the construct before it, so that no part of it but an argument without
parentheses is dropped alone. -/
def droppable (stop : Stop) (next : Nat) : List Nat :=
  let whole := stop.constructFrom 0
  let isCompleted := (partIn stop.source stop.token).head?.any isCloser && !stop.followsArgument
  let starts := (stop.token.start :: stop.starts).filter fun start =>
    start ≤ stop.token.start && start < next &&
      !(isCompleted && whole.start < start && start < whole.stop)
  starts.eraseDups.mergeSort fun first second => second ≤ first

end Stop

namespace Repair

/-- The tokens that may be missing, and how they are written. -/
def insertions : List (String × String) :=
  [("identifier", " a "), (";", ";"), ("\x7d", "\x7d"), (")", ")"), ("|", "|;"), ("]", "]")]

/-- Whether a token ends a literal or a construct in brackets. -/
def endsLiteral (token : List Char) : Bool :=
  token.getLast?.any isCloser || token.head?.any "\"':".toList.contains

/-- The change that puts a token before the one where reading stops, if one helps. A semicolon is
put only after a literal that is no argument, or before a reserved word. -/
def insertion? (stop : Stop) : Option Repair :=
  let probe := stop.probe
  let mayEnd := endsLiteral (partIn stop.source stop.previous) && !stop.followsArgument ||
    reservedWords.contains (String.ofList (partIn stop.source stop.token))
  (insertions.filter fun (name, _) => name != ";" || mayEnd).findSome? fun (name, text) =>
    let insert (source : List Char) := replaceIn source (Span.empty stop.token.start) text.toList
    let reach := readTo (some (stop.token.start + text.length)) (insert probe) - text.length
    if stop.token.start < reach then
      some ⟨.missing name stop.previous.stop, missingCost, insert stop.source⟩
    else none

/-- The change that drops the tokens up to one, or to the end of the text, and before them as few
constructs as will do to read what follows. Line breaks are dropped with the tokens before them. -/
def skipping? (stop : Stop) (next : Nat) : Option Repair :=
  let probe := stop.probe
  let dropped (start : Nat) : Span :=
    let text := partIn stop.source ⟨start, next⟩
    match (tokensFrom text.length start text).getLast? with
    | some last => ⟨start, last.stop⟩
    | none => ⟨start, next⟩
  let blanked (start : Nat) : Span :=
    if next = stop.token.start then dropped start else ⟨start, next⟩
  let start? := (stop.droppable next).find? fun start =>
    next < readTo (some next) (blankOut probe (blanked start))
  start?.map fun start =>
    let cost := costOf stop.source (dropped start) (stop.constructFrom start)
    ⟨.dropped (dropped start), cost, blankOut stop.source (blanked start)⟩

/-- The greatest number of tokens that are dropped where nothing less helps. -/
def greatestSkip : Nat := 12

/-- The changes that may be made where reading stops: a token is put before the one there, or what
stands before it is dropped, or the token is dropped as well. Only if neither of the first helps,
more tokens are dropped. -/
def choices (stop : Stop) : List Repair :=
  let tokens := tokensFrom greatestSkip stop.token.stop (restFrom stop.source stop.token.stop)
  let final := if tokens.length < greatestSkip then [Text.size stop.source] else []
  let nexts := tokens.map (·.start) ++ final
  let early := (insertion? stop).toList ++ (skipping? stop stop.token.start).toList
  let skip := nexts.head?.bind (skipping? stop)
  let changes := skip.toList ++ early
  if changes.isEmpty then ((nexts.drop 1).findSome? (skipping? stop)).toList else changes

end Repair

/-! ### Verdicts -/

/-- What is to blame after something else was to blame: what is dropped next to it joins it. -/
def Verdict.join (source : List Char) (first second : Verdict) : Verdict :=
  match first, second with
  | .dropped inner, .dropped outer =>
    let isNext := outer.start ≤ inner.stop ||
      (partIn source ⟨inner.stop, outer.start⟩).all isGap
    if isNext && inner.start ≤ outer.stop then
      .dropped ⟨min outer.start inner.start, max outer.stop inner.stop⟩
    else first
  | _, _ => first

/-- The cost of anything that is to blame, besides the cost of the change it asks for. -/
def blameCost : Nat := 500

/-- What is to blame for a text that cannot be read. -/
structure Blame where
  /-- What is to blame first. -/
  verdict : Verdict
  /-- The cost of all that is to blame. -/
  cost : Nat
  /-- Whether the text ends too early after all changes. -/
  isEnded : Bool

namespace Blame

/-- The number of parts of a statement that goes on after it: the receiver and the arguments of a
call are one each, and so is each sign before the call. -/
def partsOfHead (text : List Char) (statement : Tree) : Nat :=
  let call := statement.tip fun kind => kind = .assignment || kind = .operatorAssignment
  let receiver := if (call.part? .receiver).isSome then 2 else 0
  let arguments := if (call.part? .arguments).isSome then 1 else 0
  partsIn text ⟨statement.span.start, call.span.start⟩ + receiver + 1 + arguments

/-- The number of constructs before a position, one after the other. -/
def constructsBefore (text : List Char) (position : Nat) : Nat :=
  match readProgram (partIn text ⟨0, position⟩) with
  | .ok program =>
    match (program.parts.filter fun part => !part.is .comment).reverse with
    | [] => 0
    | last :: others =>
      let goesOn := !(partIn text ⟨last.span.stop, position⟩).contains '\n'
      others.length + (if goesOn then partsOfHead text last else 1)
  | .error _ => 0

/-- The number of statements, and of semicolons between them. -/
def entriesAmong (text : List Char) : List Span → Nat
  | first :: second :: others =>
    let between := partIn text ⟨first.stop, second.start⟩
    (if (between.takeWhile (· ≠ '#')).contains ';' then 2 else 1) +
      entriesAmong text (second :: others)
  | statements => statements.length

/-- Whether it costs less to drop all of a text than to drop a construct at its end that lacks
nothing but its end: the statements of its body are then dropped as one. -/
def prefersWhole (text : List Char) (early : Ending) : Bool :=
  let region := partIn text ⟨early.start, early.last⟩
  let others := text.count '\n' - region.count '\n'
  let more := dropCost * (constructsBefore text early.start + 1) + lineCost * others +
    (Text.size text - (early.last - early.start))
  !early.statements.isEmpty && more < dropCost * entriesAmong text early.statements

/-- The blame of a text that ends too early. -/
def ofEnding (text : List Char) (early : Ending) : Blame :=
  let verdict :=
    if prefersWhole text early then .dropped ⟨Text.size (text.takeWhile isGap), Text.size text⟩
    else early.verdict text
  match verdict with
  | .dropped span => ⟨.dropped span, blameCost + costOf text span (Span.empty 0), true⟩
  | verdict => ⟨verdict, blameCost + missingCost, true⟩

/-- The blame of a change, after which something else is to blame. What is dropped then may join
what the change drops. -/
def after (source : List Char) (change : Repair) (further : Blame) : Blame :=
  match change.verdict, change.verdict.join source further.verdict with
  | .dropped inner, .dropped outer =>
    if inner = outer then ⟨.dropped outer, blameCost + change.cost + further.cost, further.isEnded⟩
    else ⟨.dropped outer, further.cost + change.cost, further.isEnded⟩
  | verdict, _ => ⟨verdict, blameCost + change.cost + further.cost, further.isEnded⟩

/-- The cheapest of some, the first of equal ones. -/
def cheapest? : List Blame → Option Blame
  | [] => none
  | first :: others =>
    some (others.foldl (fun best other => if other.cost < best.cost then other else best) first)

end Blame

/-- Whether a quote that ends a text makes it a program if it is closed at once. -/
def isClosedBy (text : List Char) (quote : Span) : Bool :=
  let mark := partIn text quote
  (mark == ['"'] || mark == ['\'']) && (restFrom text quote.stop).all isGap &&
    (readProgram (replaceIn text (Span.empty quote.stop) mark)).isOk

/-- The greatest number of changes that are made to a text. -/
def greatestRepairs : Nat := 4

/-- What may be to blame for a changed text, to which at most `bound` further changes are made. -/
def blamesUpTo (source : List Char) : Nat → List Char → Failure → List Blame
  | _, text, .unclosed span =>
    match readProgram (blankOut text span) with
    | .ok _ => [⟨.dropped span, blameCost, false⟩]
    | .error further =>
      if isClosedBy text span then [⟨.missing "\"" span.stop, blameCost + missingCost, true⟩]
      else [⟨.dropped (further.dropWith text span), blameCost, false⟩]
  | _, text, .ended early => [.ofEnding text early]
  | 0, _, .unexpected token _ _ => [⟨.dropped token, blameCost * 10, false⟩]
  | bound + 1, text, .unexpected token previous starts =>
    let isComma := partIn text previous == [',']
    let starts := if isComma then starts.erase previous.start else starts
    let stop : Stop := ⟨text, token, previous, starts⟩
    let follow (change : Repair) : List Blame :=
      match readProgram change.text with
      | .ok _ => [⟨change.verdict, blameCost + change.cost, false⟩]
      | .error further => (blamesUpTo source bound change.text further).map (.after source change)
    let blames := (if previous = token then [] else Repair.choices stop).flatMap follow
    match Blame.cheapest? blames with
    | none => [⟨.dropped token, blameCost * 10, false⟩]
    | some best =>
      match if best.isEnded then Repair.skipping? stop (Text.size text) else none with
      | some rest => blames ++ [⟨rest.verdict, blameCost + rest.cost, true⟩]
      | none => blames

/-- What is wrong with a text that cannot be read. -/
def verdictOf (source : List Char) (failure : Failure) : Verdict :=
  match Blame.cheapest? (blamesUpTo source greatestRepairs source failure) with
  | some blame => blame.verdict
  | none => .dropped (Span.empty 0)

end RecipeLint.Ruby
