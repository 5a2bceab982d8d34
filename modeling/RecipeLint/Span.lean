/-
**Ranges of bytes.**

A range of a source text runs from the byte `start` up to, and without, the byte `stop`. Positions
are machine words, so a length or a sum may have no value; such a case is a fault of arithmetic,
with the two ways it can arise as its causes.
-/

namespace RecipeLint

/-- The largest position, and the largest number of bytes, that a machine word holds. -/
def maxWord : Nat := 0xFFFFFFFFFFFFFFFF

/-- A calculation with machine words that has no result. -/
inductive Overflow where
  /-- A difference below zero. -/
  | subtraction
  /-- A sum above the largest word. -/
  | addition
  deriving DecidableEq, Repr

/-- What is said about a calculation without result. -/
def Overflow.message : Overflow → String
  | .subtraction => "attempt to subtract with overflow"
  | .addition => "attempt to add with overflow"

/-- The difference of two words. -/
def subtractWords (minuend subtrahend : Nat) : Except Overflow Nat :=
  if subtrahend ≤ minuend then .ok (minuend - subtrahend) else .error .subtraction

/-- The sum of two words. -/
def addWords (first second : Nat) : Except Overflow Nat :=
  if first + second ≤ maxWord then .ok (first + second) else .error .addition

/-- A range of bytes of a source text. -/
structure Span where
  /-- The position of the first byte. -/
  start : Nat
  /-- The position after the last byte. -/
  stop : Nat
  deriving DecidableEq, Repr, Inhabited

namespace Span

/-- The empty range at a position. -/
def empty (position : Nat) : Span := ⟨position, position⟩

/-- Whether a range has no bytes. -/
def isEmpty (span : Span) : Bool := span.start == span.stop

/-- The number of bytes of a range; a range that ends before it starts has none. -/
def length (span : Span) : Except Overflow Nat := subtractWords span.stop span.start

end Span

end RecipeLint
