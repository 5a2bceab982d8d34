/-
**Blanks of a text.**

The characters that count as white space, and the three ways of cutting them off the ends of a
text. The set is the Unicode property `White_Space`.

* `trimStart_eq_nil_iff` — a text is trimmed to nothing exactly when it holds blanks only.
* `trimEnd_append_blank` — blanks at the end of a text are trimmed off.
-/

namespace RecipeLint.Text

/-- The white space characters. -/
def isBlank (c : Char) : Bool :=
  let n := c.toNat
  (9 ≤ n && n ≤ 13) || n == 32 || n == 133 || n == 160 || n == 0x1680 ||
    (0x2000 ≤ n && n ≤ 0x200A) || n == 0x2028 || n == 0x2029 || n == 0x202F ||
    n == 0x205F || n == 0x3000

/-- A text without its leading blanks. -/
def trimStart (text : List Char) : List Char :=
  text.dropWhile isBlank

/-- A text without its trailing blanks. -/
def trimEnd (text : List Char) : List Char :=
  (text.reverse.dropWhile isBlank).reverse

/-- A text without leading and trailing blanks. -/
def trim (text : List Char) : List Char :=
  trimEnd (trimStart text)

/-- Whether a text holds nothing but blanks. -/
def isBlankText (text : List Char) : Bool :=
  text.all isBlank

/-! ### Lemmas -/

/-- A text is trimmed to nothing exactly when it holds blanks only. -/
theorem trimStart_eq_nil_iff (text : List Char) :
    trimStart text = [] ↔ ∀ c ∈ text, isBlank c = true := by
  induction text with
  | nil => simp [trimStart]
  | cons c rest ih =>
    by_cases blank : isBlank c = true
    · have shorter : trimStart (c :: rest) = trimStart rest := by simp [trimStart, blank]
      rw [shorter, ih]
      simp [blank]
    · simp [trimStart, blank]

/-- Blanks at the end of a text are trimmed off. -/
theorem trimEnd_append_blank (text : List Char) {blanks : List Char}
    (blank : ∀ c ∈ blanks, isBlank c = true) : trimEnd (text ++ blanks) = trimEnd text := by
  rw [trimEnd, List.reverse_append, List.dropWhile_append_of_pos, trimEnd]
  exact fun c member => blank c (List.mem_reverse.mp member)

end RecipeLint.Text
