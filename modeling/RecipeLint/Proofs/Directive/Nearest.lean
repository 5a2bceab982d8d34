/-
**Which directive decides.**

The directives of a text are found by one scan and kept with the numbers of their lines. Whether a
rule may be violated on a line is then asked of that list. The answer depends on two lines only: the
directive of the line above decides if it names the rule, and otherwise that of the line itself.

* `Directive.allowing?` — the directive that decides, by its line.
* `Directives.check_scan` — the scan of a text gives the same answer.
-/

import RecipeLint.Directive

namespace RecipeLint

namespace Directive

/-- The directive of a line of a text, the lines counted from one. -/
def at? (content : List Char) : Nat → Option Directive
  | 0 => none
  | index + 1 => (Text.lines content)[index]?.bind read?

/-- **The directive that allows the violation of a rule on a line**: the one of the line above if it
names the rule, and otherwise the one of the line itself if that does. -/
def allowing? (content : List Char) (line : Nat) (name code : String) : Option Directive :=
  ((at? content (line - 1)).filter fun directive => directive.covers name code).or
    ((at? content line).filter fun directive => directive.covers name code)

/-- The directive with a number, where the lines of a text follow `before` other ones. -/
def numbered? (lines : List (List Char)) (before number : Nat) : Option Directive :=
  if before < number then lines[number - before - 1]?.bind read? else none

theorem numbered?_of_le (lines : List (List Char)) {before number : Nat} (early : number ≤ before) :
    numbered? lines before number = none :=
  if_neg (Nat.not_lt.mpr early)

theorem numbered?_cons (text : List Char) (lines : List (List Char)) (before number : Nat) :
    numbered? (text :: lines) before number =
      if number = before + 1 then read? text else numbered? lines (before + 1) number := by
  unfold numbered?
  by_cases first : number = before + 1
  · subst first
    simp
  · by_cases later : before + 1 < number
    · have shifted : number - before - 1 = number - (before + 1) - 1 + 1 := by omega
      rw [if_pos (by omega), if_neg first, if_pos later, shifted, List.getElem?_cons_succ]
    · rw [if_neg (by omega), if_neg first, if_neg later]

theorem numbered?_zero_eq_at? (content : List Char) (number : Nat) :
    numbered? (Text.lines content) 0 number = at? content number := by
  cases number with
  | zero => rfl
  | succ index => rfl

end Directive

namespace Directives

/-- The directives of lines that follow `before` other ones. -/
def scanFrom (before : Nat) (lines : List (List Char)) : Directives :=
  (lines.zipIdx before).filterMap fun (line, index) =>
    (Directive.read? line).map fun directive => (index + 1, directive)

theorem scanFrom_cons_of_none {text : List Char} (before : Nat) (lines : List (List Char))
    (plain : Directive.read? text = none) :
    scanFrom before (text :: lines) = scanFrom (before + 1) lines := by
  simp only [scanFrom, List.zipIdx_cons, List.filterMap_cons, plain, Option.map_none]

theorem scanFrom_cons_of_some {text : List Char} {directive : Directive} (before : Nat)
    (lines : List (List Char)) (read : Directive.read? text = some directive) :
    scanFrom before (text :: lines) = (before + 1, directive) :: scanFrom (before + 1) lines := by
  simp only [scanFrom, List.zipIdx_cons, List.filterMap_cons, read, Option.map_some]

/-- The first directive on a line or the line above that names a rule. -/
def first? (directives : Directives) (line : Nat) (name code : String) : Option Directive :=
  ((directives.filter fun (place, _) => place == line || place + 1 == line).find?
    fun (_, directive) => directive.covers name code).map (·.2)

theorem first?_cons (place : Nat) (directive : Directive) (rest : Directives) (line : Nat)
    (name code : String) :
    first? ((place, directive) :: rest) line name code =
      if (place = line ∨ place + 1 = line) ∧ directive.covers name code = true then some directive
      else first? rest line name code := by
  unfold first?
  by_cases near : place = line ∨ place + 1 = line
  · rw [List.filter_cons_of_pos (by simpa using near)]
    cases covered : directive.covers name code with
    | true => simp [covered, near]
    | false => simp [covered]
  · rw [List.filter_cons_of_neg (by simpa using near), if_neg fun both => near both.1]

/-- **Two lines decide.** The induction is on the lines; once the two that matter are past, nothing
with their numbers is left. -/
theorem first?_scanFrom (before : Nat) (lines : List (List Char)) (line : Nat)
    (name code : String) :
    first? (scanFrom before lines) line name code =
      ((Directive.numbered? lines before (line - 1)).filter fun directive =>
        directive.covers name code).or
        ((Directive.numbered? lines before line).filter fun directive =>
          directive.covers name code) := by
  induction lines generalizing before with
  | nil => simp [scanFrom, first?, Directive.numbered?]
  | cons text lines ih =>
    rw [Directive.numbered?_cons, Directive.numbered?_cons]
    cases read : Directive.read? text with
    | none =>
      -- a line without a directive changes nothing, whatever its number is
      have skipped : ∀ number, (if number = before + 1 then none
          else Directive.numbered? lines (before + 1) number) =
            Directive.numbered? lines (before + 1) number := by
        intro number
        split
        next here => rw [Directive.numbered?_of_le lines (Nat.le_of_eq here)]
        next => rfl
      rw [skipped, skipped, scanFrom_cons_of_none before lines read]
      exact ih (before + 1)
    | some directive =>
      rw [scanFrom_cons_of_some before lines read, first?_cons, ih (before + 1)]
      by_cases own : line = before + 1
      · have above : Directive.numbered? lines (before + 1) (line - 1) = none :=
          Directive.numbered?_of_le lines (by omega)
        have here : Directive.numbered? lines (before + 1) line = none :=
          Directive.numbered?_of_le lines (by omega)
        rw [above, here, if_neg (by omega : ¬ line - 1 = before + 1), if_pos own]
        cases covered : directive.covers name code with
        | true => simp [Option.filter_some, own, covered]
        | false => simp [Option.filter_some, covered]
      · by_cases below : line = before + 2
        · have above : Directive.numbered? lines (before + 1) (line - 1) = none :=
            Directive.numbered?_of_le lines (by omega)
          rw [above, if_pos (by omega : line - 1 = before + 1), if_neg own]
          cases covered : directive.covers name code with
          | true => simp [Option.filter_some, below, covered]
          | false => simp [Option.filter_some, covered]
        · rw [if_neg (by omega : ¬ line - 1 = before + 1), if_neg own, if_neg (by omega)]

/-- **The scan of a text finds the directive that decides**, of the line above or of the line
itself. -/
theorem check_scan (content : List Char) (line : Nat) (name code : String) :
    (scan content).check line name code =
      match Directive.allowing? content line name code with
      | some directive => .allowed directive.reason
      | none => .denied := by
  have found : first? (scan content) line name code =
      Directive.allowing? content line name code := by
    have scanned := first?_scanFrom 0 (Text.lines content) line name code
    rwa [Directive.numbered?_zero_eq_at?, Directive.numbered?_zero_eq_at?] at scanned
  rw [← found, check, first?]
  cases List.find? _ _ with
  | none => rfl
  | some entry => rfl

end Directives

/-- Where the scan finds no directive, none decides. -/
theorem Directive.allowing?_of_scan {content : List Char} (quiet : Directives.scan content = [])
    (line : Nat) (name code : String) : Directive.allowing? content line name code = none := by
  have decided := Directives.check_scan content line name code
  rw [quiet] at decided
  cases found : Directive.allowing? content line name code with
  | none => rfl
  | some directive =>
    rw [found] at decided
    cases decided

end RecipeLint
