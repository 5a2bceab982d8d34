/-
**Source languages.**

What the analysis needs of a language: which files hold it, and how a text of it becomes a tree or
an error with a place.
-/

import RecipeLint.Node

namespace RecipeLint

/-- Why a text is not of a language, and where. -/
structure SyntaxError where
  /-- What is wrong. -/
  message : String
  /-- The first byte to blame. -/
  offset : Nat
  /-- The number of bytes to blame. -/
  length : Nat
  deriving DecidableEq, Repr, Inhabited

/-- A source language. -/
structure Language where
  /-- The endings of the names of its files, without the dot. -/
  extensions : List String
  /-- The tree of a text. -/
  parse : String → Except SyntaxError Node

end RecipeLint
