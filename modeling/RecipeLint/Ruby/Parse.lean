/-
**Ruby as a source language.**

* `parse` — the tree of a Ruby text, or its first error in words.
* `language` — Ruby for the analysis.
-/

import RecipeLint.Language
import RecipeLint.Ruby.Lowering
import RecipeLint.Ruby.Repair
import RecipeLint.Text.Blank

namespace RecipeLint.Ruby

/-- The longest part of the text that an error message shows, in characters. -/
def snippetLength : Nat := 40

/-- What is said about bytes that nothing can take: the beginning of their first line. -/
def describeUnexpected (source : List Char) (span : Span) : String :=
  let line := (Text.lines (textOf source span)).headD []
  let snippet := Text.trim (line.take snippetLength)
  if snippet.isEmpty then "unexpected end of input"
  else "unexpected '" ++ String.ofList snippet ++ "'"

/-- What is said about a text that is wrong. -/
def Verdict.toError (source : List Char) : Verdict → SyntaxError
  | .dropped span => ⟨describeUnexpected source span, span.start, span.stop - span.start⟩
  | .missing token position => ⟨"missing '" ++ token ++ "'", position, 0⟩

/-- The tree of a Ruby text. -/
def parse (text : String) : Except SyntaxError Node :=
  let source := text.toList
  match readProgram source with
  | .ok tree => .ok (lowerProgram source tree)
  | .error failure => .error ((verdictOf source failure).toError source)

/-- Ruby as a source language. -/
def language : Language where
  extensions := ["rb"]
  parse := parse

end RecipeLint.Ruby
