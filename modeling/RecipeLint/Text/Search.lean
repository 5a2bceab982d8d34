/-
**Looking for parts of a text.**

Finding a marker in a text, taking a text apart at a character or at its line ends, and taking an
expected beginning off it.

* `breakOn?_eq_some` — a found marker splits the text into what stands before and after it.
-/

namespace RecipeLint.Text

/-- What is left of a text that starts with `expected`. -/
def strip? : List Char → List Char → Option (List Char)
  | [], text => some text
  | _ :: _, [] => none
  | e :: expected, c :: text => if e = c then strip? expected text else none

/-- The text before and the text after the first occurrence of `marker`. -/
def breakOn? (marker : List Char) : List Char → Option (List Char × List Char)
  | [] => (strip? marker []).map fun rest => ([], rest)
  | c :: text =>
    match strip? marker (c :: text) with
    | some rest => some ([], rest)
    | none => (breakOn? marker text).map fun (before, after) => (c :: before, after)

/-- Whether a text contains `part`. -/
def contains (part text : List Char) : Bool :=
  (breakOn? part text).isSome

/-- The parts of a text between the occurrences of a character; always at least one. -/
def splitAt (separator : Char) : List Char → List (List Char)
  | [] => [[]]
  | c :: text =>
    if c = separator then [] :: splitAt separator text
    else
      match splitAt separator text with
      | [] => [[c]]
      | part :: parts => (c :: part) :: parts

/-- A line without the carriage return that ends it. -/
def dropReturn (line : List Char) : List Char :=
  if line.getLast? = some '\r' then line.dropLast else line

/-- The lines of a text, each without its line end. What follows the last line feed is a line only
if it is not empty, and keeps a carriage return at its end. -/
def lines (text : List Char) : List (List Char) :=
  let parts := splitAt '\n' text
  parts.dropLast.map dropReturn ++ parts.getLast?.toList.filter (· ≠ [])

/-! ### Lemmas -/

theorem strip?_eq_some {expected text rest : List Char} (found : strip? expected text = some rest) :
    text = expected ++ rest := by
  induction expected generalizing text with
  | nil => simpa [strip?] using found
  | cons e expected ih =>
    cases text with
    | nil => simp [strip?] at found
    | cons c text =>
      rw [strip?] at found
      split at found
      next same => rw [same, ih found, List.cons_append]
      next => simp at found

@[simp] theorem strip?_append (expected rest : List Char) :
    strip? expected (expected ++ rest) = some rest := by
  induction expected with
  | nil => simp [strip?]
  | cons e expected ih => simp [strip?, ih]

/-- A found marker splits the text into what stands before and after it. -/
theorem breakOn?_eq_some {marker text before after : List Char}
    (found : breakOn? marker text = some (before, after)) : text = before ++ marker ++ after := by
  induction text generalizing before with
  | nil =>
    simp only [breakOn?, Option.map_eq_some_iff, Prod.mk.injEq] at found
    obtain ⟨rest, stripped, rfl, rfl⟩ := found
    simpa using strip?_eq_some stripped
  | cons c text ih =>
    rw [breakOn?] at found
    split at found
    next rest stripped =>
      simp only [Option.some.injEq, Prod.mk.injEq] at found
      obtain ⟨rfl, rfl⟩ := found
      simpa using strip?_eq_some stripped
    next =>
      simp only [Option.map_eq_some_iff, Prod.mk.injEq, Prod.exists] at found
      obtain ⟨first, second, inner, rfl, rfl⟩ := found
      rw [ih inner]
      simp

/-- A marker that a text starts with is found there. -/
theorem breakOn?_append (marker after : List Char) :
    breakOn? marker (marker ++ after) = some ([], after) := by
  cases marker with
  | nil =>
    cases after with
    | nil => rfl
    | cons c after => simp [breakOn?, strip?]
  | cons c marker =>
    have stripped := strip?_append (c :: marker) after
    rw [List.cons_append] at stripped ⊢
    rw [breakOn?, stripped]

end RecipeLint.Text
